import GraphifyDaemon.Library.JsonText
import Mathlib.Tactic.IntervalCases

/-! Reading what was written gives the value back, and no proper prefix of a written
dictionary can be read. -/
namespace Library
namespace JsonText

theorem hexValue_hexDigit {n : Nat} (h : n < 16) : hexValue (hexDigit n) = some n := by
  interval_cases n <;> rfl

theorem hexValue4_hexDigits {n : Nat} (h : n < 65536) :
    hexValue4 (hexDigit (n / 4096)) (hexDigit (n / 256 % 16)) (hexDigit (n / 16 % 16)) (hexDigit (n % 16)) = some n := by
  have hhigh : n / 4096 < 16 := by omega
  rw [hexValue4, hexValue_hexDigit hhigh, hexValue_hexDigit (Nat.mod_lt _ (by decide)),
    hexValue_hexDigit (Nat.mod_lt _ (by decide)), hexValue_hexDigit (Nat.mod_lt _ (by decide))]
  simp only [Option.some.injEq]
  omega

theorem scanPieces_unicodeEscape {n : Nat} (h : n < 65536) (rest : List Char) :
    scanPieces (unicodeEscape n ++ rest) = (scanPieces rest).map fun scanned => (.unit n :: scanned.1, scanned.2) := by
  simp only [unicodeEscape, List.cons_append, List.nil_append, scanPieces, hexValue4_hexDigits h]

/-- What reading one escaped character gives. -/
def piecesOf (c : Char) : List Piece :=
  match escapeLetter c with
  | some _ => [.char c]
  | none =>
    if ' ' ≤ c ∧ c ≤ '~' then [.char c]
    else if c.toNat < 65536 then [.unit c.toNat]
    else [.unit (55296 + (c.toNat - 65536) / 1024), .unit (56320 + (c.toNat - 65536) % 1024)]

theorem unescapeLetter_of_escapeLetter {c letter : Char} (h : escapeLetter c = some letter) :
    letter ≠ 'u' ∧ unescapeLetter letter = some c := by
  unfold escapeLetter at h
  split_ifs at h with hc hc hc hc hc hc hc <;> cases h <;> subst hc <;> exact ⟨by decide, rfl⟩

theorem toNat_lt (c : Char) : c.toNat < 1114112 ∧ (c.toNat < 55296 ∨ 57343 < c.toNat) := by
  rcases c.valid with h | ⟨hlow, hhigh⟩
  · have hsmall : c.toNat < 55296 := h
    omega
  · have hlow' : 57343 < c.toNat := hlow
    have hhigh' : c.toNat < 1114112 := hhigh
    omega

theorem scanPieces_escapeChar (c : Char) (rest : List Char) :
    scanPieces (escapeChar c ++ rest) =
      (scanPieces rest).map fun scanned => (piecesOf c ++ scanned.1, scanned.2) := by
  unfold escapeChar piecesOf
  cases hletter : escapeLetter c with
  | some letter =>
    obtain ⟨hu, hback⟩ := unescapeLetter_of_escapeLetter hletter
    simp [scanPieces, hu, hback]
  | none =>
    have hquote : c ≠ '"' := by
      rintro rfl
      cases hletter
    have hslash : c ≠ '\\' := by
      rintro rfl
      cases hletter
    have hrange := toNat_lt c
    dsimp only
    split_ifs with hprintable hsmall
    · have hcontrol : ¬ c.toNat < 32 := by
        have hspace : ' '.toNat ≤ c.toNat := hprintable.1
        have hvalue : ' '.toNat = 32 := rfl
        omega
      simp [scanPieces, hslash, hcontrol]
    · rw [scanPieces_unicodeEscape hsmall]
      rfl
    · rw [List.append_assoc, scanPieces_unicodeEscape (by omega), scanPieces_unicodeEscape (by omega), Option.map_map]
      rfl

theorem joinHalves_piecesOf (c : Char) (pieces : List Piece) :
    joinHalves (piecesOf c ++ pieces) = c :: joinHalves pieces := by
  have hrange := toNat_lt c
  unfold piecesOf
  cases escapeLetter c with
  | some letter => rfl
  | none =>
    dsimp only
    split_ifs with hprintable hsmall
    · rfl
    · have hhigh : isHigh c.toNat = false := by
        simp only [isHigh, Bool.and_eq_false_iff, decide_eq_false_iff_not]
        omega
      have hlow : isLow c.toNat = false := by
        simp only [isLow, Bool.and_eq_false_iff, decide_eq_false_iff_not]
        omega
      cases pieces with
      | nil => simp [joinHalves, hhigh, hlow]
      | cons piece rest => cases piece <;> simp [joinHalves, hhigh, hlow]
    · have hhigh : isHigh (55296 + (c.toNat - 65536) / 1024) = true := by
        simp only [isHigh, Bool.and_eq_true, decide_eq_true_eq]
        omega
      have hlow : isLow (56320 + (c.toNat - 65536) % 1024) = true := by
        simp only [isLow, Bool.and_eq_true, decide_eq_true_eq]
        omega
      have hvalue : 65536 + (55296 + (c.toNat - 65536) / 1024 - 55296) * 1024 +
          (56320 + (c.toNat - 65536) % 1024 - 56320) = c.toNat := by
        omega
      rw [List.cons_append, List.cons_append, List.nil_append, joinHalves, if_pos ⟨hhigh, hlow⟩, hvalue, Char.ofNat_toNat]

theorem scanPieces_escaped (cs rest : List Char) :
    scanPieces (cs.flatMap escapeChar ++ '"' :: rest) = some (cs.flatMap piecesOf, rest) := by
  induction cs with
  | nil => simp [scanPieces]
  | cons c cs ih =>
    rw [List.flatMap_cons, List.append_assoc, scanPieces_escapeChar, ih]
    rfl

theorem joinHalves_flatMap (cs : List Char) : joinHalves (cs.flatMap piecesOf) = cs := by
  induction cs with
  | nil => rfl
  | cons c cs ih => rw [List.flatMap_cons, joinHalves_piecesOf, ih]

theorem scanString_dumpString (s : String) (rest : List Char) :
    ∃ body, dumpString s ++ rest = '"' :: body ∧ scanString body = some (s, rest) := by
  refine ⟨s.toList.flatMap escapeChar ++ '"' :: rest, by simp [dumpString], ?_⟩
  rw [scanString, scanPieces_escaped, Option.map_some, joinHalves_flatMap, String.ofList_toList]

/-- A text that a scanner stops at the end of. -/
def Ends (rest : List Char) : Prop := ∀ c ∈ rest.head?, isTokenChar c = false

/-- A text that begins a value or a key: no space, no closing bracket. -/
def Begins (text : List Char) : Prop := ∃ c rest, text = c :: rest ∧ isSpace c = false ∧ c ≠ ']' ∧ c ≠ '\x7d'

theorem Begins.skipSpaces {text : List Char} (h : Begins text) (rest : List Char) :
    skipSpaces (text ++ rest) = text ++ rest := by
  obtain ⟨c, body, rfl, hspace, -⟩ := h
  simp [JsonText.skipSpaces, hspace]

theorem Begins.intercalate {text : List Char} (h : Begins text) (texts : List (List Char)) :
    Begins ([',', ' '].intercalate (text :: texts)) := by
  obtain ⟨c, body, rfl, hc⟩ := h
  cases texts with
  | nil => exact ⟨c, body, by simp [List.intercalate], hc⟩
  | cons next texts =>
    exact ⟨c, body ++ [',', ' '] ++ [',', ' '].intercalate (next :: texts), by simp [List.intercalate], hc⟩

theorem length_lt_intercalate (text : List Char) (texts : List (List Char)) :
    texts.length ≤ ([',', ' '].intercalate (text :: texts)).length := by
  induction texts generalizing text with
  | nil => simp
  | cons next texts ih =>
    have hrest := ih next
    have hjoin : [',', ' '].intercalate (text :: next :: texts) =
        text ++ [',', ' '] ++ [',', ' '].intercalate (next :: texts) := by
      simp [List.intercalate]
    simp only [hjoin, List.length_append, List.length_cons, List.length_nil]
    omega

theorem length_le_intercalate {text : List Char} {texts : List (List Char)} (h : text ∈ texts) :
    text.length ≤ ([',', ' '].intercalate texts).length := by
  have hsub : text.Sublist ([',', ' '].intercalate texts) := by
    apply List.sublist_flatten_of_mem
    induction texts with
    | nil => cases h
    | cons next texts ih =>
      cases texts with
      | nil => simpa using h
      | cons other texts =>
        rw [List.intersperse_cons_cons]
        rcases List.mem_cons.mp h with rfl | hrest
        · exact List.mem_cons_self
        · exact List.mem_cons_of_mem _ (List.mem_cons_of_mem _ (ih hrest))
  exact hsub.length_le

section Scanners
variable {ν β : Type} {format : NumberFormat ν}

theorem span_token {token rest : List Char} (htoken : ∀ c ∈ token, isTokenChar c = true) (hrest : Ends rest) :
    (token ++ rest).takeWhile isTokenChar = token ∧ (token ++ rest).dropWhile isTokenChar = rest := by
  rw [List.takeWhile_append_of_pos htoken, List.dropWhile_append_of_pos htoken]
  cases rest with
  | nil => simp
  | cons c rest =>
    have hc : isTokenChar c = false := hrest c rfl
    simp [hc]

theorem scanToken_append {token rest : List Char} {v : Json ν} (htoken : ∀ c ∈ token, isTokenChar c = true)
    (hread : readToken format token = some v) (hrest : Ends rest) :
    scanToken format (token ++ rest) = some (v, rest) := by
  obtain ⟨htake, hdrop⟩ := span_token htoken hrest
  rw [scanToken, htake, hdrop, hread]
  rfl

theorem readToken_print (n : ν) : readToken format (format.print n) = some (.num n) := by
  have hword := format.print_word n
  simp only [List.mem_cons, List.not_mem_nil, or_false, not_or] at hword
  rw [readToken, if_neg hword.1, if_neg hword.2.1, if_neg hword.2.2, format.read_print]
  rfl

/-- A scanner that reads a text, whatever comes after it. -/
def Scans (item : List Char → Option (β × List Char)) (text : List Char) (b : β) : Prop :=
  Begins text ∧ ∀ rest, Ends rest → item (text ++ rest) = some (b, rest)

/-- Items that are scanned one by one are scanned when they are joined. -/
theorem scanItems_intercalate {item : List Char → Option (β × List Char)} {close : Char}
    (hclose : close = ']' ∨ close = '\x7d') (rest : List Char) :
    ∀ (fuel : Nat) (text : List Char) (texts : List (List Char)) (b : β) (bs : List β), texts.length < fuel →
      Scans item text b → List.Forall₂ (Scans item) texts bs →
      scanItems item close fuel ([',', ' '].intercalate (text :: texts) ++ close :: rest) = some (b :: bs, rest) := by
  have hspace : isSpace close = false := by rcases hclose with rfl | rfl <;> rfl
  have hends : isTokenChar close = false := by rcases hclose with rfl | rfl <;> rfl
  have hcomma : ',' ≠ close := by rcases hclose with rfl | rfl <;> decide
  intro fuel
  induction fuel with
  | zero => intro _ texts _ _ hfuel; exact absurd hfuel (Nat.not_lt_zero _)
  | succ fuel ih =>
    intro text texts b bs hfuel htext htexts
    cases htexts with
    | nil =>
      have hscan : item (text ++ close :: rest) = some (b, close :: rest) := by
        apply htext.2
        intro c hc
        cases hc
        exact hends
      simp [scanItems, List.intercalate, hscan, skipSpaces, hspace]
    | @cons next b' texts bs' hnext htexts =>
      have hjoin : [',', ' '].intercalate (text :: next :: texts) ++ close :: rest =
          text ++ ',' :: ' ' :: ([',', ' '].intercalate (next :: texts) ++ close :: rest) := by
        simp [List.intercalate]
      have hscan : item (text ++ ',' :: ' ' :: ([',', ' '].intercalate (next :: texts) ++ close :: rest)) =
          some (b, ',' :: ' ' :: ([',', ' '].intercalate (next :: texts) ++ close :: rest)) := by
        apply htext.2
        intro c hc
        cases hc
        rfl
      have hskip : skipSpaces (' ' :: ([',', ' '].intercalate (next :: texts) ++ close :: rest)) =
          [',', ' '].intercalate (next :: texts) ++ close :: rest :=
        (hnext.1.intercalate texts).skipSpaces (close :: rest)
      have hcommaSpace : skipSpaces (',' :: ' ' :: ([',', ' '].intercalate (next :: texts) ++ close :: rest)) =
          ',' :: ' ' :: ([',', ' '].intercalate (next :: texts) ++ close :: rest) := rfl
      have hlength : texts.length < fuel := by
        simp only [List.length_cons] at hfuel
        omega
      rw [hjoin, scanItems, hscan]
      dsimp only
      rw [hcommaSpace]
      dsimp only
      rw [if_neg hcomma, if_pos rfl, hskip, ih next texts b' bs' hlength hnext htexts]
      rfl

/-- A bracket around joined items. -/
theorem scanBracket_intercalate {item : List Char → Option (β × List Char)} {close : Char}
    (hclose : close = ']' ∨ close = '\x7d') (rest : List Char) {texts : List (List Char)} {bs : List β}
    (htexts : List.Forall₂ (Scans item) texts bs) :
    scanBracket item close ([',', ' '].intercalate texts ++ close :: rest) = some (bs, rest) := by
  have hspace : isSpace close = false := by rcases hclose with rfl | rfl <;> rfl
  cases htexts with
  | nil => simp [scanBracket, List.intercalate, skipSpaces, hspace]
  | @cons text b texts bs htext htexts =>
    have hbegins := htext.1.intercalate texts
    have hlength : texts.length < ([',', ' '].intercalate (text :: texts) ++ close :: rest).length := by
      have hcount := length_lt_intercalate text texts
      simp only [List.length_append, List.length_cons]
      omega
    rw [scanBracket, hbegins.skipSpaces]
    obtain ⟨c, body, hbody, -, hbracket, hbrace⟩ := hbegins
    have hc : c ≠ close := by rcases hclose with rfl | rfl <;> assumption
    have hscan := scanItems_intercalate hclose rest _ text texts b bs hlength htext htexts
    rw [hbody, List.cons_append] at hscan ⊢
    dsimp only
    rw [if_neg hc]
    exact hscan

theorem scanMember_append {value : List Char → Option (β × List Char)} {key : String} {text : List Char} {b : β}
    (hvalue : Scans value text b) : Scans (scanMember value) (dumpString key ++ [':', ' '] ++ text) (key, b) := by
  refine ⟨⟨'"', key.toList.flatMap escapeChar ++ ['"'] ++ [':', ' '] ++ text, by simp [dumpString], rfl, by decide,
      by decide⟩,
    fun rest hrest => ?_⟩
  obtain ⟨body, hbody, hscan⟩ := scanString_dumpString key ([':', ' '] ++ (text ++ rest))
  have hjoin : dumpString key ++ [':', ' '] ++ text ++ rest = '"' :: body := by
    rw [← hbody]
    simp
  have hskip : skipSpaces (' ' :: (text ++ rest)) = text ++ rest := hvalue.1.skipSpaces rest
  have hcolon : skipSpaces ([':', ' '] ++ (text ++ rest)) = ':' :: ' ' :: (text ++ rest) := rfl
  rw [hjoin, scanMember, hscan]
  simp only [hcolon, hskip, hvalue.2 rest hrest, Option.map_some]

end Scanners

section RoundTrip
variable {ν : Type} (format : NumberFormat ν)

theorem begins_of_token {token : List Char} (hne : token ≠ []) (htoken : ∀ c ∈ token, isTokenChar c = true) :
    Begins token := by
  cases token with
  | nil => exact absurd rfl hne
  | cons c rest =>
    have hc := htoken c List.mem_cons_self
    refine ⟨c, rest, rfl, ?_, ?_, ?_⟩
    · cases hs : isSpace c with
      | false => rfl
      | true => simp [isTokenChar, hs] at hc
    · rintro rfl
      revert hc
      decide
    · rintro rfl
      revert hc
      decide

/-- Where no string or bracket begins, a value is a token. -/
theorem scans_token {n : Nat} (token : List Char) {v : Json ν} (hne : token ≠ [])
    (htoken : ∀ c ∈ token, isTokenChar c = true) (hread : readToken format token = some v) (hn : token.length ≤ n) :
    Scans (scanValue format n) token v := by
  refine ⟨begins_of_token hne htoken, fun rest hrest => ?_⟩
  have hscan := scanToken_append htoken hread hrest
  cases token with
  | nil => exact absurd rfl hne
  | cons c body => cases n with
    | zero => simp at hn
    | succ n =>
      have hc := htoken c List.mem_cons_self
      rw [List.cons_append] at hscan ⊢
      unfold scanValue
      split
      · rename_i heq
        cases heq
        exact absurd hc (by decide)
      · rename_i heq
        cases heq
        exact absurd hc (by decide)
      · rename_i heq
        cases heq
        exact absurd hc (by decide)
      · exact hscan

mutual
theorem scans_dumps : ∀ (v : Json ν) (n : Nat), (dumps format v).length ≤ n →
    Scans (scanValue format n) (dumps format v) (deduped v)
  | .null, _, hn => scans_token format nullWord (by decide) (List.all_eq_true.mp rfl) rfl hn
  | .bool true, _, hn => scans_token format trueWord (by decide) (List.all_eq_true.mp rfl) rfl hn
  | .bool false, _, hn => scans_token format falseWord (by decide) (List.all_eq_true.mp rfl) rfl hn
  | .num x, _, hn =>
    scans_token format (format.print x) (format.print_token x).1 (format.print_token x).2 (readToken_print x) hn
  | .str s, n + 1, _ => by
    refine ⟨⟨'"', s.toList.flatMap escapeChar ++ ['"'], rfl, by decide⟩, fun rest _ => ?_⟩
    obtain ⟨body, hbody, hscan⟩ := scanString_dumpString s rest
    simp [dumps, hbody, scanValue, hscan, deduped]
  | .arr xs, n + 1, hn => by
    have hall := scans_dumpsAll xs n (fun text htext => by
      have hle := length_le_intercalate htext
      simp only [dumps, List.length_cons, List.length_append] at hn
      omega)
    refine ⟨⟨'[', _, rfl, by decide⟩, fun rest _ => ?_⟩
    have hscan := scanBracket_intercalate (.inl rfl) rest hall
    simp [dumps, scanValue, hscan, deduped]
  | .obj members, n + 1, hn => by
    have hall := scans_dumpsMembers members n (fun text htext => by
      have hle := length_le_intercalate htext
      simp only [dumps, List.length_cons, List.length_append] at hn
      omega)
    refine ⟨⟨'\x7b', _, rfl, by decide⟩, fun rest _ => ?_⟩
    have hscan := scanBracket_intercalate (.inr rfl) rest hall
    simp [dumps, scanValue, hscan, deduped]

theorem scans_dumpsAll : ∀ (xs : List (Json ν)) (n : Nat), (∀ text ∈ dumpsAll format xs, text.length ≤ n) →
    List.Forall₂ (Scans (scanValue format n)) (dumpsAll format xs) (dedupedAll xs)
  | [], _, _ => .nil
  | x :: xs, n, hn => .cons (scans_dumps x n (hn _ List.mem_cons_self))
      (scans_dumpsAll xs n fun text htext => hn text (List.mem_cons_of_mem _ htext))

theorem scans_dumpsMembers : ∀ (members : List (String × Json ν)) (n : Nat),
    (∀ text ∈ dumpsMembers format members, text.length ≤ n) →
    List.Forall₂ (Scans (scanMember (scanValue format n))) (dumpsMembers format members) (dedupedMembers members)
  | [], _, _ => .nil
  | (key, value) :: rest, n, hn => by
    have hvalue : (dumps format value).length ≤ n := by
      have hle := hn _ List.mem_cons_self
      simp only [List.length_append] at hle
      omega
    exact .cons (scanMember_append (scans_dumps value n hvalue))
      (scans_dumpsMembers rest n fun text htext => hn text (List.mem_cons_of_mem _ htext))
end

/-- `json.loads(json.dumps(v))` -/
theorem loads_dumps (v : Json ν) : loads format (dumps format v) = some (deduped v) := by
  obtain ⟨hbegins, hscan⟩ := scans_dumps format v ((dumps format v).length + 1) (Nat.le_succ _)
  have hskip := hbegins.skipSpaces []
  have hall := hscan [] (by simp [Ends])
  rw [List.append_nil] at hskip hall
  rw [loads, hskip, hall]
  rfl

end RoundTrip

/-- A dictionary that has no key twice, at any depth, is read back as it was. -/
theorem deduped_obj {ν : Type} {members : List (String × Json ν)} (hkeys : (members.map Prod.fst).Nodup)
    (hvalues : ∀ member ∈ members, deduped member.2 = member.2) : deduped (.obj members) = .obj members := by
  have hall : dedupedMembers members = members := by
    clear hkeys
    induction members with
    | nil => rfl
    | cons member rest ih =>
      rw [dedupedMembers, hvalues member List.mem_cons_self, ih fun m hm => hvalues m (List.mem_cons_of_mem _ hm)]
  rw [deduped, hall, dictOf, OrderedDict.foldl_setItem_of_nodup hkeys]

/-- More text changes nothing of what was scanned. -/
def Closed {β : Type} (item item' : List Char → Option (β × List Char)) : Prop :=
  ∀ s t b r, item s = some (b, r) → item' (s ++ t) = some (b, r ++ t)

/-- The same where the scanner, which reads nothing from nothing, stopped before the end. -/
structure Stable {β : Type} (item item' : List Char → Option (β × List Char)) : Prop where
  nil : item [] = none
  append : ∀ s t b r, item s = some (b, r) → r ≠ [] → item' (s ++ t) = some (b, r ++ t)

theorem skipSpaces_append {s rest : List Char} {c : Char} (h : skipSpaces s = c :: rest) (t : List Char) :
    skipSpaces (s ++ t) = c :: (rest ++ t) := by
  rw [skipSpaces] at h ⊢
  rw [List.dropWhile_append, h]
  rfl

theorem scanPieces_closed : Closed scanPieces scanPieces := by
  intro s t
  fun_induction scanPieces s with
  | case1 => intro b r h; cases h
  | case2 rest =>
    intro b r h
    cases h
    rfl
  | case3 a b c d rest n hn ih =>
    intro pieces r h
    obtain ⟨scanned, hscanned, heq⟩ := Option.map_eq_some_iff.mp h
    cases heq
    simp [scanPieces, hn, ih scanned.1 scanned.2 hscanned]
  | case4 a b c d rest hn => intro b r h; cases h
  | case5 letter rest hletter c hc ih =>
    intro pieces r h
    obtain ⟨scanned, hscanned, heq⟩ := Option.map_eq_some_iff.mp h
    cases heq
    have hu : letter ≠ 'u' := by
      rintro rfl
      cases hc
    simp [scanPieces, hu, hc, ih scanned.1 scanned.2 hscanned]
  | case6 letter rest hletter hc => intro b r h; cases h
  | case7 c rest hquote hunit hletter hcontrol => intro b r h; cases h
  | case8 c rest hquote hunit hletter hcontrol ih =>
    intro pieces r h
    obtain ⟨scanned, hscanned, heq⟩ := Option.map_eq_some_iff.mp h
    cases heq
    have hslash : c ≠ '\\' := fun hc => hcontrol (.inr hc)
    have hspace : ¬ c.toNat < 32 := fun hc => hcontrol (.inl hc)
    simp [scanPieces, hslash, hspace, ih scanned.1 scanned.2 hscanned]

theorem scanString_closed : Closed scanString scanString := by
  intro s t b r h
  obtain ⟨scanned, hscanned, heq⟩ := Option.map_eq_some_iff.mp h
  cases heq
  rw [scanString, scanPieces_closed s t scanned.1 scanned.2 hscanned]
  rfl

section Extension
variable {ν β : Type} {format : NumberFormat ν} {item item' : List Char → Option (β × List Char)}

theorem scanToken_nil : scanToken format [] = none := by
  simp [scanToken, readToken, format.read_nil, nullWord, trueWord, falseWord]

theorem scanToken_append_of_ne {s r : List Char} {v : Json ν} (t : List Char) (h : scanToken format s = some (v, r))
    (hr : r ≠ []) : scanToken format (s ++ t) = some (v, r ++ t) := by
  obtain ⟨w, hw, heq⟩ := Option.map_eq_some_iff.mp h
  cases heq
  have hends : Ends (s.dropWhile isTokenChar ++ t) := by
    intro c hc
    cases hrest : s.dropWhile isTokenChar with
    | nil => exact absurd hrest hr
    | cons d rest =>
      rw [hrest] at hc
      cases hc
      have hhead := List.head_dropWhile_not isTokenChar hr
      simpa [hrest] using hhead
  have hscan := scanToken_append (List.all_eq_true.mp List.all_takeWhile) hw hends
  rwa [← List.append_assoc, List.takeWhile_append_dropWhile] at hscan

theorem scanItems_closed (hitem : Stable item item') {close : Char} :
    ∀ n m, n ≤ m → Closed (scanItems item close n) (scanItems item' close m) := by
  intro n
  induction n with
  | zero => intro m _ s t b r h; cases h
  | succ n ih =>
    intro m hm s t b r h
    obtain ⟨m, rfl⟩ := Nat.exists_eq_succ_of_ne_zero (Nat.ne_of_gt (Nat.lt_of_lt_of_le (Nat.succ_pos n) hm))
    rw [scanItems] at h ⊢
    cases hfirst : item s with
    | none => simp [hfirst] at h
    | some first =>
      obtain ⟨x, rest⟩ := first
      simp only [hfirst] at h
      cases hskip : skipSpaces rest with
      | nil => simp [hskip] at h
      | cons c rest' =>
        have hrest : rest ≠ [] := by
          rintro rfl
          cases hskip
        simp only [hskip] at h
        simp only [hitem.append s t x rest hfirst hrest, skipSpaces_append hskip t]
        split_ifs at h ⊢ with hclose hcomma
        · cases h
          rfl
        · obtain ⟨scanned, hscanned, heq⟩ := Option.map_eq_some_iff.mp h
          cases heq
          cases hnext : skipSpaces rest' with
          | nil =>
            rw [hnext] at hscanned
            cases n with
            | zero => cases hscanned
            | succ n => simp [scanItems, hitem.nil] at hscanned
          | cons d after =>
            rw [hnext] at hscanned
            have hlater := ih m (Nat.le_of_succ_le_succ hm) (d :: after) t scanned.1 scanned.2 hscanned
            rw [skipSpaces_append hnext t, ← List.cons_append, hlater]
            rfl

theorem scanBracket_closed (hitem : Stable item item') {close : Char} :
    Closed (scanBracket item close) (scanBracket item' close) := by
  intro s t b r h
  rw [scanBracket] at h ⊢
  cases hskip : skipSpaces s with
  | nil => simp [hskip] at h
  | cons c rest =>
    simp only [hskip] at h
    simp only [skipSpaces_append hskip t]
    split_ifs at h ⊢ with hclose
    · cases h
      rfl
    · have hfuel : rest.length + 1 ≤ (rest ++ t).length + 1 := by
        rw [List.length_append]
        omega
      exact scanItems_closed hitem _ _ hfuel (c :: rest) t b r h

theorem scanMember_stable (hvalue : Stable item item') : Stable (scanMember item) (scanMember item') := by
  refine ⟨rfl, fun s t b r h hr => ?_⟩
  unfold scanMember at h
  split at h
  · rename_i body
    split at h
    · cases h
    · rename_i key rest hkey
      split at h
      · rename_i after hcolon
        obtain ⟨scanned, hscanned, heq⟩ := Option.map_eq_some_iff.mp h
        cases heq
        cases hskip : skipSpaces after with
        | nil => simp [hskip, hvalue.nil] at hscanned
        | cons c text =>
          rw [hskip] at hscanned
          have hlater := hvalue.append (c :: text) t scanned.1 scanned.2 hscanned hr
          rw [List.cons_append] at hlater ⊢
          simp only [scanMember, scanString_closed body t key rest hkey, skipSpaces_append hcolon t,
            skipSpaces_append hskip t, hlater, Option.map_some]
      · cases h
  · cases h

/-- With more text and more depth a value is read as before. -/
theorem scanValue_stable : ∀ n m, n ≤ m → Stable (scanValue format n) (scanValue format m) := by
  intro n
  induction n with
  | zero => exact fun m _ => ⟨rfl, fun s t v r h => by cases h⟩
  | succ n ih =>
    intro m hm
    obtain ⟨m, rfl⟩ := Nat.exists_eq_succ_of_ne_zero (Nat.ne_of_gt (Nat.lt_of_lt_of_le (Nat.succ_pos n) hm))
    have hvalue := ih m (Nat.le_of_succ_le_succ hm)
    refine ⟨scanToken_nil, fun s t v r h hr => ?_⟩
    unfold scanValue at h
    split at h
    · rename_i body
      obtain ⟨scanned, hscanned, heq⟩ := Option.map_eq_some_iff.mp h
      cases heq
      rw [List.cons_append, scanValue, scanString_closed body t scanned.1 scanned.2 hscanned]
      rfl
    · rename_i body
      obtain ⟨scanned, hscanned, heq⟩ := Option.map_eq_some_iff.mp h
      cases heq
      rw [List.cons_append, scanValue, scanBracket_closed hvalue body t scanned.1 scanned.2 hscanned]
      rfl
    · rename_i body
      obtain ⟨scanned, hscanned, heq⟩ := Option.map_eq_some_iff.mp h
      cases heq
      rw [List.cons_append, scanValue, scanBracket_closed (scanMember_stable hvalue) body t scanned.1 scanned.2 hscanned]
      rfl
    · rename_i hquote harray hobject
      cases s with
      | nil => rw [scanToken_nil] at h; cases h
      | cons c body =>
        have hlater := scanToken_append_of_ne t h hr
        rw [List.cons_append] at hlater ⊢
        unfold scanValue
        split
        · rename_i heq
          cases heq
          exact absurd rfl (hquote body)
        · rename_i heq
          cases heq
          exact absurd rfl (harray body)
        · rename_i heq
          cases heq
          exact absurd rfl (hobject body)
        · exact hlater

end Extension

/-- A dictionary that was cut off cannot be read. -/
theorem loads_cut {ν : Type} {format : NumberFormat ν} {members : List (String × Json ν)} {kept lost : List Char}
    (hcut : kept ++ lost = dumps format (.obj members)) (hlost : lost ≠ []) : loads format kept = none := by
  cases kept with
  | nil => simp [loads, skipSpaces, scanValue, scanToken_nil]
  | cons c body =>
    obtain rfl : c = '\x7b' := by
      rw [dumps, List.cons_append] at hcut
      exact (List.cons.inj hcut).1
    cases hscan : scanBracket (scanMember (scanValue format ('\x7b' :: body).length)) '\x7d' body with
    | none =>
      have hvalue : scanValue format (('\x7b' :: body).length + 1) ('\x7b' :: body) = none := by
        rw [scanValue, hscan]
        rfl
      have hskip : skipSpaces ('\x7b' :: body) = '\x7b' :: body := rfl
      rw [loads, hskip, hvalue]
    | some scanned =>
      -- the whole text, read with more depth, would end where the cut one does
      have hdepth : ('\x7b' :: body).length ≤ (dumps format (.obj members)).length := by
        rw [← hcut, List.length_append]
        omega
      have hmore := scanBracket_closed (scanMember_stable (scanValue_stable _ _ hdepth)) body lost scanned.1 scanned.2 hscan
      have hwhole := (scans_dumps format (.obj members) ((dumps format (.obj members)).length + 1) (Nat.le_succ _)).2 []
        (by simp [Ends])
      rw [← hcut, List.cons_append] at hmore
      rw [List.append_nil, ← hcut, List.cons_append, scanValue, hmore] at hwhole
      have hnone : scanned.2 ++ lost = [] := congrArg Prod.snd (Option.some.inj hwhole)
      exact absurd (List.append_eq_nil_iff.mp hnone).2 hlost

end JsonText
end Library
