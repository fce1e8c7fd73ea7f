import GraphifyDaemon.VaultCompiler.Snapshot

/-! The `get_community` tool over one snapshot. A Python string is its list of code points. -/
namespace GraphifyDaemon
open Library

variable {ν γ τ : Type}

abbrev Text := List Char

/-- `"\n".join(lines)` -/
def joinLines (lines : List Text) : Text := ['\n'].intercalate lines

/-- `str.rfind`, with `none` for `-1`. -/
def rfind (c : Char) : Text → Option Nat
  | [] => none
  | d :: rest => match rfind c rest with
    | some i => some (i + 1)
    | none => if d = c then some 0 else none

def natText (n : Nat) : Text := (toString n).toList

def intText (i : Int) : Text := (toString i).toList

/-- `_cut_lines_to_budget`; the tool schemas ask for a budget of at least 1. -/
def cutLinesToBudget (lines : List Text) (tokenBudget : Nat) (narrowHint : Text) : Text :=
  let output := joinLines lines
  let charBudget := tokenBudget * 3
  if lines = [] ∨ output.length ≤ charBudget then output
  else
    let cutAt := match rfind '\n' (output.take charBudget) with
      | some i => if 0 < i then i else charBudget
      | none => charBudget
    let kept := output.take cutAt
    let shown := kept.count '\n' + 1
    let cutCount : Int := (lines.length : Int) - shown
    if cutCount = 0 ∧ kept ≠ joinLines (lines.take shown) then
      "[!] TRUNCATED: this line exceeds the ~".toList ++ natText tokenBudget ++
        "-token budget on its own. ".toList ++ narrowHint ++ "\n\n".toList ++ kept
    else
      "[!] TRUNCATED: showing ".toList ++ natText shown ++ " of ".toList ++ natText lines.length ++
        " lines (~".toList ++ natText tokenBudget ++ "-token budget). ".toList ++ narrowHint ++
        "\n\n".toList ++ kept ++ "\n... (truncated — ".toList ++ intText cutCount ++
        " more lines cut by ~".toList ++ natText tokenBudget ++ "-token budget. ".toList ++ narrowHint ++
        ")".toList

/-- `_community_header` -/
def communityHeader (sanitizeLabel : String → String) (communityId : Int) (communityName : Option String) :
    Text :=
  let base := "Community ".toList ++ intText communityId
  match communityName with
  | none => base
  | some name =>
    let clean := (sanitizeLabel name).toList
    if name ≠ "" ∧ clean ≠ [] ∧ clean ≠ base then base ++ " — ".toList ++ clean else base

/-- `graph.nodes[n]` -/
def nodeView (G : Graphify ν γ τ) (graph : γ) (n : String) : Except PyError NodeAttributes :=
  match G.nodes graph n with
  | some attributes => .ok attributes
  | none => .error (.keyError n)

def nodeLine (G : Graphify ν γ τ) (n : String) (d : NodeAttributes) : Text :=
  "  ".toList ++ (G.sanitizeLabel (d.label.getD n)).toList ++ " [".toList ++
    (G.sanitizeLabel (d.sourceFile.getD "")).toList ++ "]".toList

/-- The line of one member. -/
def memberLine (G : Graphify ν γ τ) (graph : γ) (n : String) : Except PyError Text :=
  (nodeView G graph n).map (nodeLine G n)

def communityHint : Text := "Raise token_budget or use get_node for specific members".toList

/-- The first line of a listing. -/
def listingHeader (G : Graphify ν γ τ) (communityId : Int) (communityName : Option String) (count : Nat) :
    Text :=
  communityHeader G.sanitizeLabel communityId communityName ++ " (".toList ++ natText count ++
    " nodes):".toList

/-- `_tool_get_community` -/
def toolGetCommunity (G : Graphify ν γ τ) (communityId : Int) (tokenBudget : Nat)
    (snapshot : GraphSnapshot γ τ) : Except PyError Text :=
  match (snapshot.communityMap.get communityId).getD [] with
  | [] => .ok ("Community ".toList ++ intText communityId ++ " not found.".toList)
  | first :: rest => do
    let d ← nodeView G snapshot.graph first
    let header := listingHeader G communityId d.communityName (rest.length + 1)
    let lines ← (first :: rest).mapM (memberLine G snapshot.graph)
    pure (cutLinesToBudget (header :: lines) tokenBudget communityHint)

private theorem nodeView_of_mem {G : Graphify ν γ τ} {graph : γ} {n : String} (h : (G.nodes graph n).isSome) :
    ∃ attributes, nodeView G graph n = .ok attributes := by
  obtain ⟨attributes, hn⟩ := Option.isSome_iff_exists.mp h
  exact ⟨attributes, by rw [nodeView, hn]⟩

private theorem memberLines_of_mem {G : Graphify ν γ τ} {graph : γ} {members : List String}
    (h : ∀ n ∈ members, (G.nodes graph n).isSome) :
    ∃ lines, members.mapM (memberLine G graph) = .ok lines := by
  induction members with
  | nil => exact ⟨[], rfl⟩
  | cons n rest ih =>
    obtain ⟨d, hd⟩ := nodeView_of_mem (h n (by simp))
    obtain ⟨lines, hlines⟩ := ih (fun m hm => h m (by simp [hm]))
    refine ⟨nodeLine G n d :: lines, ?_⟩
    rw [List.mapM_cons, memberLine, hd, hlines]
    rfl

/-- Where every member is a node of the graph, the tool lists the members. -/
theorem toolGetCommunity_of_mem {G : Graphify ν γ τ} {snapshot : GraphSnapshot γ τ} {communityId : Int}
    {first : String} {rest : List String}
    (hget : snapshot.communityMap.get communityId = some (first :: rest))
    (h : ∀ n ∈ first :: rest, (G.nodes snapshot.graph n).isSome) (tokenBudget : Nat) :
    ∃ header lines, (first :: rest).mapM (memberLine G snapshot.graph) = .ok lines ∧
      toolGetCommunity G communityId tokenBudget snapshot =
        .ok (cutLinesToBudget (header :: lines) tokenBudget communityHint) := by
  obtain ⟨d, hd⟩ := nodeView_of_mem (h first (by simp))
  obtain ⟨lines, hlines⟩ := memberLines_of_mem h
  refine ⟨listingHeader G communityId d.communityName (rest.length + 1), lines, hlines, ?_⟩
  simp only [toolGetCommunity, hget, Option.getD_some, hd, hlines]
  rfl

example : cutLinesToBudget ["ab".toList, "cd".toList] 2 [] = "ab\ncd".toList := by decide

end GraphifyDaemon
