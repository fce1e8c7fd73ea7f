import Mathlib.Data.List.Basic
import Mathlib.Tactic.Common

/-! The API-key gate of the HTTP transport. Headers arrive as raw bytes under lower-case
names, in any order and any number. -/
namespace GraphifyDaemon

abbrev Bytes := List UInt8

/-- The bytes of an ASCII literal. -/
def ascii (s : String) : Bytes := s.toList.map fun c => UInt8.ofNat c.toNat

/-- `s.encode("utf-8")` -/
def encodeUtf8 (s : String) : Bytes := s.toList.flatMap String.utf8EncodeChar

/-- `value.lower()` -/
def lowerBytes (value : Bytes) : Bytes := value.map fun b => if 65 ≤ b ∧ b ≤ 90 then b + 32 else b

def isAsciiSpace (b : UInt8) : Bool := b = 32 ∨ (9 ≤ b ∧ b ≤ 13)

/-- `value.strip()` -/
def stripBytes (value : Bytes) : Bytes :=
  ((value.dropWhile isAsciiSpace).reverse.dropWhile isAsciiSpace).reverse

/-- `value.partition(b" ")`, without the separator. -/
def partitionSpace (value : Bytes) : Bytes × Bytes :=
  (value.takeWhile (· ≠ 32), (value.dropWhile (· ≠ 32)).tail)

abbrev RawHeaders := List (Bytes × Bytes)

/-- `_single_header`: a header that is missing and one that is duplicated are both absent. -/
def singleHeader (rawHeaders : RawHeaders) (name : Bytes) : Option Bytes :=
  match (rawHeaders.filter fun header => header.1 = name).map Prod.snd with
  | [value] => some value
  | _ => none

/-- What the middleware reads of an ASGI scope. -/
structure Scope where
  type : String
  headers : Option RawHeaders

/-- What is handed to `send`. -/
inductive Message where
  | responseStart (status : Nat) (headers : RawHeaders)
  | responseBody (body : Bytes)
  deriving DecidableEq

/-- What becomes of a request. -/
inductive Handling where
  | app
  | answered (messages : List Message)
  deriving DecidableEq

def unauthorizedBody : Bytes := ascii "\x7b\"error\": \"unauthorized\"\x7d"

def unauthorized : Handling :=
  .answered [.responseStart 401 [(ascii "content-type", ascii "application/json"),
    (ascii "content-length", ascii (toString unauthorizedBody.length))], .responseBody unauthorizedBody]

/-- The token of a bearer authorization that is not empty. -/
def bearerToken (rawHeaders : RawHeaders) : Option Bytes :=
  let authorization := (singleHeader rawHeaders (ascii "authorization")).getD []
  let parts := partitionSpace authorization
  if lowerBytes parts.1 = ascii "bearer" ∧ parts.2 ≠ [] then some (stripBytes parts.2) else none

/-- `_ApiKeyMiddleware.__call__` -/
def apiKeyMiddleware (apiKey : String) (scope : Scope) : Handling :=
  if scope.type ≠ "http" then .app
  else
    let rawHeaders := scope.headers.getD []
    let provided := match singleHeader rawHeaders (ascii "x-api-key") with
      | some value => some value
      | none => bearerToken rawHeaders
    match provided with
    | none => unauthorized
    | some value => if value = encodeUtf8 apiKey then .app else unauthorized

/-- The header occurs exactly once, with this value. -/
def OnlyValue (rawHeaders : RawHeaders) (name value : Bytes) : Prop :=
  ∃ before after, rawHeaders = before ++ (name, value) :: after ∧ ∀ header ∈ before ++ after, header.1 ≠ name

/-- The credential a request presents: the one value of its API-key header or, where that
header has not exactly one, the stripped bearer token of its one authorization. -/
inductive Credential (rawHeaders : RawHeaders) : Bytes → Prop where
  | apiKey {value : Bytes} : OnlyValue rawHeaders (ascii "x-api-key") value → Credential rawHeaders value
  | bearer {scheme token : Bytes} : (∀ value, ¬ OnlyValue rawHeaders (ascii "x-api-key") value) →
      OnlyValue rawHeaders (ascii "authorization") (scheme ++ 32 :: token) → lowerBytes scheme = ascii "bearer" →
      token ≠ [] → Credential rawHeaders (stripBytes token)

private theorem singleHeader_eq_some {rawHeaders : RawHeaders} {name value : Bytes} :
    singleHeader rawHeaders name = some value ↔ OnlyValue rawHeaders name value := by
  have hfilter : singleHeader rawHeaders name = some value ↔
      rawHeaders.filter (fun header => header.1 = name) = [(name, value)] := by
    unfold singleHeader
    constructor
    · intro h
      split at h
      · rename_i only honly
        cases h
        obtain ⟨header, hheader, rfl⟩ := List.map_eq_singleton_iff.mp honly
        have hname : header ∈ rawHeaders.filter fun header => header.1 = name := by simp [hheader]
        have hsame : header.1 = name := by simpa using (List.mem_filter.mp hname).2
        rw [hheader, ← hsame]
      · cases h
    · intro h
      rw [h]
      rfl
  rw [hfilter]
  constructor
  · intro h
    obtain ⟨before, after, hsplit, hbefore, -, hafter⟩ := List.filter_eq_cons_iff.mp h
    refine ⟨before, after, hsplit, fun header hheader => ?_⟩
    rcases List.mem_append.mp hheader with hmem | hmem
    · simpa using hbefore header hmem
    · simpa using List.filter_eq_nil_iff.mp hafter header hmem
  · rintro ⟨before, after, rfl, hothers⟩
    have hbefore : before.filter (fun header => header.1 = name) = [] :=
      List.filter_eq_nil_iff.mpr fun header hheader => by simpa using hothers header (by simp [hheader])
    have hafter : after.filter (fun header => header.1 = name) = [] :=
      List.filter_eq_nil_iff.mpr fun header hheader => by simpa using hothers header (by simp [hheader])
    simp [hbefore, hafter]

private theorem singleHeader_eq_none {rawHeaders : RawHeaders} {name : Bytes} :
    singleHeader rawHeaders name = none ↔ ∀ value, ¬ OnlyValue rawHeaders name value := by
  rw [Option.eq_none_iff_forall_ne_some]
  exact forall_congr' fun value => not_congr singleHeader_eq_some

/-- A value is cut at its first space. -/
theorem partitionSpace_append {scheme : Bytes} (h : 32 ∉ scheme) (token : Bytes) :
    partitionSpace (scheme ++ 32 :: token) = (scheme, token) := by
  have hall : ∀ b ∈ scheme, decide (b ≠ 32) = true := by
    intro b hb
    simpa using fun hspace : b = 32 => h (hspace ▸ hb)
  unfold partitionSpace
  rw [List.takeWhile_append_of_pos hall, List.dropWhile_append_of_pos hall]
  simp

private theorem partitionSpace_of_token {value : Bytes} (h : (partitionSpace value).2 ≠ []) :
    value = (partitionSpace value).1 ++ 32 :: (partitionSpace value).2 := by
  have hwhole : value.takeWhile (· ≠ 32) ++ value.dropWhile (· ≠ 32) = value := List.takeWhile_append_dropWhile
  have hnot := List.head?_dropWhile_not (fun b : UInt8 => decide (b ≠ 32)) value
  unfold partitionSpace at h ⊢
  cases hrest : value.dropWhile (· ≠ 32) with
  | nil =>
    rw [hrest] at h
    exact absurd rfl h
  | cons b rest =>
    rw [hrest] at hnot hwhole
    have hspace : b = 32 := by simpa using hnot
    rw [hspace] at hwhole
    exact hwhole.symm

private theorem not_mem_of_lower_bearer {scheme : Bytes} (h : lowerBytes scheme = ascii "bearer") : 32 ∉ scheme := by
  intro hspace
  have hmem : (32 : UInt8) ∈ lowerBytes scheme := List.mem_map.mpr ⟨32, hspace, by decide⟩
  rw [h] at hmem
  exact absurd hmem (by decide)

private theorem bearerToken_eq_some {rawHeaders : RawHeaders} {credential : Bytes} :
    bearerToken rawHeaders = some credential ↔ ∃ scheme token,
      OnlyValue rawHeaders (ascii "authorization") (scheme ++ 32 :: token) ∧ lowerBytes scheme = ascii "bearer" ∧
        token ≠ [] ∧ credential = stripBytes token := by
  constructor
  · intro h
    unfold bearerToken at h
    cases hheader : singleHeader rawHeaders (ascii "authorization") with
    | none => simp [hheader, partitionSpace] at h
    | some value =>
      simp only [hheader, Option.getD_some] at h
      split_ifs at h with hbearer
      cases h
      refine ⟨_, _, ?_, hbearer.1, hbearer.2, rfl⟩
      rw [← partitionSpace_of_token hbearer.2]
      exact singleHeader_eq_some.mp hheader
  · rintro ⟨scheme, token, hvalue, hscheme, htoken, rfl⟩
    unfold bearerToken
    rw [singleHeader_eq_some.mpr hvalue]
    simp only [Option.getD_some, partitionSpace_append (not_mem_of_lower_bearer hscheme)]
    rw [if_pos ⟨hscheme, htoken⟩]

/-- A request reaches the app exactly when its credential is the key, and any other is
answered with 401. -/
theorem apiKeyMiddleware_gate (apiKey : String) (scope : Scope) (hhttp : scope.type = "http") :
    (apiKeyMiddleware apiKey scope = .app ↔ Credential (scope.headers.getD []) (encodeUtf8 apiKey)) ∧
      (apiKeyMiddleware apiKey scope ≠ .app → apiKeyMiddleware apiKey scope = unauthorized) := by
  have hprovided : ∀ credential, Credential (scope.headers.getD []) credential ↔
      (match singleHeader (scope.headers.getD []) (ascii "x-api-key") with
        | some value => some value
        | none => bearerToken (scope.headers.getD [])) = some credential := by
    intro credential
    constructor
    · rintro (hkey | ⟨habsent, hvalue, hscheme, htoken⟩)
      · rw [singleHeader_eq_some.mpr hkey]
      · rw [singleHeader_eq_none.mpr habsent]
        exact bearerToken_eq_some.mpr ⟨_, _, hvalue, hscheme, htoken, rfl⟩
    · intro h
      cases hkey : singleHeader (scope.headers.getD []) (ascii "x-api-key") with
      | some value =>
        rw [hkey] at h
        cases h
        exact .apiKey (singleHeader_eq_some.mp hkey)
      | none =>
        rw [hkey] at h
        obtain ⟨scheme, token, hvalue, hscheme, htoken, rfl⟩ := bearerToken_eq_some.mp h
        exact .bearer (singleHeader_eq_none.mp hkey) hvalue hscheme htoken
  have hpass : unauthorized ≠ .app := by simp [unauthorized]
  rw [hprovided]
  unfold apiKeyMiddleware
  rw [if_neg (by simp [hhttp])]
  dsimp only
  split
  · rename_i hnone
    exact ⟨by simp [hnone, hpass], fun _ => rfl⟩
  · rename_i value hvalue
    rw [hvalue]
    split_ifs with hsame
    · exact ⟨by simp [hsame], fun h => absurd rfl h⟩
    · exact ⟨by simp [hsame, hpass], fun _ => rfl⟩

/-- A request with its API-key header twice and one good bearer token. -/
def duplicatedKeyScope : Scope :=
  ⟨"http", some [(ascii "x-api-key", ascii "wrong"), (ascii "x-api-key", ascii "key"),
    (ascii "authorization", ascii "Bearer key")]⟩

theorem apiKeyMiddleware_gate_duplicatedKey :
    Credential (duplicatedKeyScope.headers.getD []) (encodeUtf8 "key") :=
  (apiKeyMiddleware_gate "key" duplicatedKeyScope rfl).1.mp (by decide)

theorem duplicated_header_authenticated :
    ¬ ∀ (apiKey : String) (scope : Scope), apiKey ≠ "" → scope.type = "http" → apiKeyMiddleware apiKey scope = .app →
      ∀ name ∈ [ascii "x-api-key", ascii "authorization"],
        ((scope.headers.getD []).filter fun header => header.1 = name).length ≤ 1 := by
  intro h
  exact absurd (h "key" duplicatedKeyScope (by decide) rfl (by decide) (ascii "x-api-key") (by simp)) (by decide)

end GraphifyDaemon
