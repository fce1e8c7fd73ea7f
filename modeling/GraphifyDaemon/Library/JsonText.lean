import GraphifyDaemon.Library.PyValue

/-! JSON texts, as `json.dumps` writes and `json.loads` reads them. Numbers are written and
read by a format that is a parameter. -/
namespace Library
namespace JsonText

def isSpace (c : Char) : Bool := c = ' ' || c = '\t' || c = '\n' || c = '\r'

/-- A character of a number or of a word such as `null`: nothing else ends before a space or
a delimiter. -/
def isTokenChar (c : Char) : Bool := !isSpace c && c ∉ [',', ':', '[', ']', '\x7b', '\x7d', '"']

def nullWord : List Char := ['n', 'u', 'l', 'l']
def trueWord : List Char := ['t', 'r', 'u', 'e']
def falseWord : List Char := ['f', 'a', 'l', 's', 'e']

/-- How numbers are written and read: a number is written as a token, and read back. -/
structure NumberFormat (ν : Type) where
  print : ν → List Char
  read : List Char → Option ν
  read_print : ∀ n, read (print n) = some n
  print_token : ∀ n, print n ≠ [] ∧ ∀ c ∈ print n, isTokenChar c = true
  print_word : ∀ n, print n ∉ [nullWord, trueWord, falseWord]
  read_nil : read [] = none

def hexDigit (n : Nat) : Char := if n < 10 then Char.ofNat (48 + n) else Char.ofNat (87 + n)

def hexValue (c : Char) : Option Nat :=
  if '0' ≤ c ∧ c ≤ '9' then some (c.toNat - 48)
  else if 'a' ≤ c ∧ c ≤ 'f' then some (c.toNat - 87)
  else if 'A' ≤ c ∧ c ≤ 'F' then some (c.toNat - 55)
  else none

/-- `\u` and four digits. -/
def unicodeEscape (n : Nat) : List Char :=
  ['\\', 'u', hexDigit (n / 4096), hexDigit (n / 256 % 16), hexDigit (n / 16 % 16), hexDigit (n % 16)]

def hexValue4 (a b c d : Char) : Option Nat :=
  match hexValue a, hexValue b, hexValue c, hexValue d with
  | some w, some x, some y, some z => some (4096 * w + 256 * x + 16 * y + z)
  | _, _, _, _ => none

/-- The escapes of one letter. -/
def escapeLetter (c : Char) : Option Char :=
  if c = '"' then some '"' else if c = '\\' then some '\\' else if c = '\n' then some 'n'
  else if c = '\r' then some 'r' else if c = '\t' then some 't' else if c = '\x0c' then some 'f'
  else if c = '\x08' then some 'b' else none

def unescapeLetter (c : Char) : Option Char :=
  if c = '"' then some '"' else if c = '\\' then some '\\' else if c = 'n' then some '\n'
  else if c = 'r' then some '\r' else if c = 't' then some '\t' else if c = 'f' then some '\x0c'
  else if c = 'b' then some '\x08' else if c = '/' then some '/' else none

/-- `ensure_ascii`: what is not printable ASCII is escaped, in two halves from U+10000 on. -/
def escapeChar (c : Char) : List Char :=
  match escapeLetter c with
  | some letter => ['\\', letter]
  | none =>
    if ' ' ≤ c ∧ c ≤ '~' then [c]
    else if c.toNat < 65536 then unicodeEscape c.toNat
    else unicodeEscape (55296 + (c.toNat - 65536) / 1024) ++ unicodeEscape (56320 + (c.toNat - 65536) % 1024)

def dumpString (s : String) : List Char := '"' :: s.toList.flatMap escapeChar ++ ['"']

/-- What a string is made of before its halves are joined. -/
inductive Piece where
  | char (c : Char)
  | unit (n : Nat)

/-- The body of a string, up to the quote that ends it. -/
def scanPieces : List Char → Option (List Piece × List Char)
  | [] => none
  | '"' :: rest => some ([], rest)
  | '\\' :: 'u' :: a :: b :: c :: d :: rest =>
    match hexValue4 a b c d with
    | some n => (scanPieces rest).map fun scanned => (.unit n :: scanned.1, scanned.2)
    | none => none
  | '\\' :: letter :: rest =>
    match unescapeLetter letter with
    | some c => (scanPieces rest).map fun scanned => (.char c :: scanned.1, scanned.2)
    | none => none
  | c :: rest =>
    if c.toNat < 32 ∨ c = '\\' then none
    else (scanPieces rest).map fun scanned => (.char c :: scanned.1, scanned.2)

def isHigh (n : Nat) : Bool := 55296 ≤ n && n < 56320
def isLow (n : Nat) : Bool := 56320 ≤ n && n < 57344

/-- Two halves in a row are one character. A half that stands alone, which a Lean string
cannot hold, becomes the replacement character. -/
def joinHalves : List Piece → List Char
  | [] => []
  | .char c :: rest => c :: joinHalves rest
  | .unit n :: .unit m :: rest =>
    if isHigh n ∧ isLow m then Char.ofNat (65536 + (n - 55296) * 1024 + (m - 56320)) :: joinHalves rest
    else (if isHigh n ∨ isLow n then '\ufffd' else Char.ofNat n) :: joinHalves (.unit m :: rest)
  | .unit n :: rest => (if isHigh n ∨ isLow n then '\ufffd' else Char.ofNat n) :: joinHalves rest

def scanString (s : List Char) : Option (String × List Char) :=
  (scanPieces s).map fun scanned => (String.ofList (joinHalves scanned.1), scanned.2)

def skipSpaces (s : List Char) : List Char := s.dropWhile isSpace

variable {ν : Type} (format : NumberFormat ν)

def readToken (token : List Char) : Option (Json ν) :=
  if token = nullWord then some .null
  else if token = trueWord then some (.bool true)
  else if token = falseWord then some (.bool false)
  else (format.read token).map .num

def scanToken (s : List Char) : Option (Json ν × List Char) :=
  (readToken format (s.takeWhile isTokenChar)).map fun v => (v, s.dropWhile isTokenChar)

/-- Items separated by commas, up to the closing character. -/
def scanItems {β : Type} (item : List Char → Option (β × List Char)) (close : Char) :
    Nat → List Char → Option (List β × List Char)
  | 0, _ => none
  | n + 1, s => match item s with
    | none => none
    | some (x, rest) => match skipSpaces rest with
      | [] => none
      | c :: rest =>
        if c = close then some ([x], rest)
        else if c = ',' then (scanItems item close n (skipSpaces rest)).map fun scanned => (x :: scanned.1, scanned.2)
        else none

/-- What follows an opening bracket. -/
def scanBracket {β : Type} (item : List Char → Option (β × List Char)) (close : Char) (s : List Char) :
    Option (List β × List Char) :=
  match skipSpaces s with
  | [] => none
  | c :: rest => if c = close then some ([], rest) else scanItems item close (rest.length + 1) (c :: rest)

def scanMember {β : Type} (value : List Char → Option (β × List Char)) (s : List Char) :
    Option ((String × β) × List Char) :=
  match s with
  | '"' :: rest => match scanString rest with
    | none => none
    | some (key, rest) => match skipSpaces rest with
      | ':' :: rest => (value (skipSpaces rest)).map fun scanned => ((key, scanned.1), scanned.2)
      | _ => none
  | _ => none

/-- `dict(pairs)`: the last value of a key, at the place of its first. -/
def dictOf (pairs : List (String × Json ν)) : PyDict ν :=
  pairs.foldl (fun d pair => OrderedDict.setItem pair.1 pair.2 d) []

/-- A value nested at most so deep. -/
def scanValue : Nat → List Char → Option (Json ν × List Char)
  | 0, _ => none
  | n + 1, s => match s with
    | '"' :: rest => (scanString rest).map fun scanned => (.str scanned.1, scanned.2)
    | '[' :: rest => (scanBracket (scanValue n) ']' rest).map fun scanned => (.arr scanned.1, scanned.2)
    | '\x7b' :: rest =>
      (scanBracket (scanMember (scanValue n)) '\x7d' rest).map fun scanned => (.obj (dictOf scanned.1), scanned.2)
    | s => scanToken format s

/-- `json.loads`: one value with spaces around it. Its length bounds its depth. -/
def loads (s : List Char) : Option (Json ν) :=
  match scanValue format (s.length + 1) (skipSpaces s) with
  | some (v, rest) => if skipSpaces rest = [] then some v else none
  | none => none

mutual
/-- `json.dumps` -/
def dumps : Json ν → List Char
  | .null => nullWord
  | .bool true => trueWord
  | .bool false => falseWord
  | .num n => format.print n
  | .str s => dumpString s
  | .arr xs => '[' :: ([',', ' '].intercalate (dumpsAll xs) ++ [']'])
  | .obj members => '\x7b' :: ([',', ' '].intercalate (dumpsMembers members) ++ ['\x7d'])

def dumpsAll : List (Json ν) → List (List Char)
  | [] => []
  | x :: xs => dumps x :: dumpsAll xs

def dumpsMembers : List (String × Json ν) → List (List Char)
  | [] => []
  | (key, value) :: rest => (dumpString key ++ [':', ' '] ++ dumps value) :: dumpsMembers rest
end

mutual
/-- The value with each key of its dictionaries kept once, as reading leaves it. -/
def deduped : Json ν → Json ν
  | .arr xs => .arr (dedupedAll xs)
  | .obj members => .obj (dictOf (dedupedMembers members))
  | v => v

def dedupedAll : List (Json ν) → List (Json ν)
  | [] => []
  | x :: xs => deduped x :: dedupedAll xs

def dedupedMembers : List (String × Json ν) → List (String × Json ν)
  | [] => []
  | (key, value) :: rest => (key, deduped value) :: dedupedMembers rest
end

end JsonText
end Library
