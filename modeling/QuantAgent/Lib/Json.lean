import QuantAgent.Lib.PyList
import QuantAgent.Lib.PyText

namespace QuantAgent.Json
set_option autoImplicit true

/-- A Python text that was read: its code points, lone surrogates among them. -/
abbrev CodePoints := List ℕ

def codePoints (s : String) : CodePoints := s.toList.map Char.toNat

theorem codePoints_injective : Function.Injective codePoints := by
  intro s t h
  have hlist : s.toList = t.toList := List.map_injective_iff.mpr (fun _ _ h => Char.toNat_inj.mp h) h
  exact String.toList_injective hlist

end Json

/-- What `json.loads` makes of a text; a float keeps its digits. -/
inductive Json where
  | null
  | bool (b : Bool)
  | int (n : ℤ)
  | float (text : List Char)
  | str (s : Json.CodePoints)
  | arr (items : List Json)
  | obj (members : List (Json.CodePoints × Json))

namespace Json

/-- `value.get(key)` on an object: the last member of that name counts. -/
def get? (members : List (CodePoints × Json)) (key : String) : Option Json :=
  (members.reverse.find? fun m => m.1 == codePoints key).map Prod.snd

/-- How deep a scan went into arrays and objects, and what it found if nothing was wrong. -/
structure Scanned (α : Type) where
  depth : ℕ
  found : Option α

namespace Scanned

def fail : Scanned α := ⟨0, none⟩

def ofOption (found : Option α) : Scanned α := ⟨0, found⟩

def andThen (x : Scanned α) (f : α → Scanned β) : Scanned β :=
  match x.found with
  | none => ⟨x.depth, none⟩
  | some a => ⟨max x.depth (f a).depth, (f a).found⟩

/-- A scan inside an array or an object. -/
def nested (x : Scanned α) : Scanned α := ⟨x.depth + 1, x.found⟩

@[simp] theorem andThen_ofOption_some (a : α) (f : α → Scanned β) : (ofOption (some a)).andThen f = f a := by
  simp [andThen, ofOption]

@[simp] theorem andThen_ofOption_none (f : α → Scanned β) : (ofOption none).andThen f = fail := rfl

end Scanned

section Scanner

def skipSpace (text : List Char) : List Char :=
  text.dropWhile fun c => c == ' ' || c == '\t' || c == '\n' || c == '\r'

def hexValue? (c : Char) : Option ℕ :=
  if c.isDigit then some (c.toNat - 48)
  else if 'a' ≤ c ∧ c ≤ 'f' then some (c.toNat - 87)
  else if 'A' ≤ c ∧ c ≤ 'F' then some (c.toNat - 55)
  else none

def hexFour? (a b c d : Char) : Option ℕ := do
  let a ← hexValue? a
  let b ← hexValue? b
  let c ← hexValue? c
  let d ← hexValue? d
  pure (((a * 16 + b) * 16 + c) * 16 + d)

/-- The one-letter escapes. -/
def escaped? : Char → Option ℕ
  | '"' => some 34
  | '\\' => some 92
  | '/' => some 47
  | 'b' => some 8
  | 'f' => some 12
  | 'n' => some 10
  | 'r' => some 13
  | 't' => some 9
  | _ => none

/-- The rest of a string after its opening quote, as code units: a `\u` escape may be a surrogate. -/
def scanUnits : List Char → Option (List ℕ × List Char)
  | [] => none
  | '"' :: rest => some ([], rest)
  | '\\' :: 'u' :: a :: b :: c :: d :: rest => do
    let unit ← hexFour? a b c d
    let (units, rest) ← scanUnits rest
    pure (unit :: units, rest)
  | '\\' :: c :: rest => do
    let unit ← escaped? c
    let (units, rest) ← scanUnits rest
    pure (unit :: units, rest)
  | c :: rest =>
    if c = '\\' ∨ c.toNat < 32 then none
    else do
      let (units, rest) ← scanUnits rest
      pure (c.toNat :: units, rest)

def isHigh (unit : ℕ) : Bool := 0xD800 ≤ unit && unit < 0xDC00

def isLow (unit : ℕ) : Bool := 0xDC00 ≤ unit && unit < 0xE000

/-- A high surrogate and the low one after it are one code point. -/
def joinSurrogates : List ℕ → CodePoints
  | high :: low :: rest =>
    if isHigh high && isLow low then
      (0x10000 + (high - 0xD800) * 0x400 + (low - 0xDC00)) :: joinSurrogates rest
    else high :: joinSurrogates (low :: rest)
  | units => units

def scanString (text : List Char) : Option (CodePoints × List Char) :=
  (scanUnits text).map fun r => (joinSurrogates r.1, r.2)

/-- A fraction: a point and the digits after it, if there are any. -/
def scanFraction : List Char → List Char × List Char
  | '.' :: c :: rest =>
    if c.isDigit then (('.' :: c :: rest.takeWhile Char.isDigit), rest.dropWhile Char.isDigit)
    else ([], '.' :: c :: rest)
  | text => ([], text)

def scanExponentDigits (mark : List Char) (text rest : List Char) : List Char × List Char :=
  if (rest.takeWhile Char.isDigit) = [] then ([], text)
  else (mark ++ rest.takeWhile Char.isDigit, rest.dropWhile Char.isDigit)

def scanExponent : List Char → List Char × List Char
  | e :: sign :: rest =>
    if e = 'e' ∨ e = 'E' then
      if sign = '+' ∨ sign = '-' then scanExponentDigits [e, sign] (e :: sign :: rest) rest
      else scanExponentDigits [e] (e :: sign :: rest) (sign :: rest)
    else ([], e :: sign :: rest)
  | text => ([], text)

/-- The digits of an integer part: no zero leads. -/
def scanDigits : List Char → Option (List Char × List Char)
  | c :: rest =>
    if c = '0' then some (['0'], rest)
    else if c.isDigit then some (c :: rest.takeWhile Char.isDigit, rest.dropWhile Char.isDigit)
    else none
  | [] => none

/-- The default of `sys.get_int_max_str_digits()`. -/
def intMaxStrDigits : ℕ := 4300

/-- `int(digits)` with a sign, which raises for too many of them. -/
def readInt (negative : Bool) (digits : List Char) : Option Json :=
  if digits.length ≤ intMaxStrDigits then
    (digits? digits).map fun n => .int (if negative then -(n : ℤ) else n)
  else none

def scanUnsigned (negative : Bool) (text : List Char) : Option (Json × List Char) :=
  match scanDigits text with
  | none => none
  | some (digits, rest) =>
    let fraction := scanFraction rest
    let exponent := scanExponent fraction.2
    if fraction.1 = [] ∧ exponent.1 = [] then (readInt negative digits).map (·, rest)
    else some (.float ((if negative then ['-'] else []) ++ digits ++ fraction.1 ++ exponent.1), exponent.2)

/-- A literal or a number. -/
def scanAtom (text : List Char) : Option (Json × List Char) :=
  match text with
  | 'n' :: 'u' :: 'l' :: 'l' :: rest => some (.null, rest)
  | 't' :: 'r' :: 'u' :: 'e' :: rest => some (.bool true, rest)
  | 'f' :: 'a' :: 'l' :: 's' :: 'e' :: rest => some (.bool false, rest)
  | 'N' :: 'a' :: 'N' :: rest => some (.float ['N', 'a', 'N'], rest)
  | 'I' :: 'n' :: 'f' :: 'i' :: 'n' :: 'i' :: 't' :: 'y' :: rest => some (.float ['i', 'n', 'f'], rest)
  | '-' :: 'I' :: 'n' :: 'f' :: 'i' :: 'n' :: 'i' :: 't' :: 'y' :: rest =>
    some (.float ['-', 'i', 'n', 'f'], rest)
  | '-' :: rest => scanUnsigned true rest
  | text => scanUnsigned false text

mutual

/-- `scan_once`; every call reads a character, so that a text's length is fuel enough. -/
def scanOnce : ℕ → List Char → Scanned (Json × List Char)
  | 0, _ => .fail
  | fuel + 1, text =>
    match text with
    | '"' :: rest => .ofOption ((scanString rest).map fun r => (.str r.1, r.2))
    | '{' :: rest =>
      match skipSpace rest with
      | '}' :: rest => .nested (.ofOption (some (.obj [], rest)))
      | rest => .nested (scanMembers fuel [] rest)
    | '[' :: rest =>
      match skipSpace rest with
      | ']' :: rest => .nested (.ofOption (some (.arr [], rest)))
      | rest => .nested (scanItems fuel [] rest)
    | text => .ofOption (scanAtom text)

def scanMembers : ℕ → List (CodePoints × Json) → List Char → Scanned (Json × List Char)
  | 0, _, _ => .fail
  | fuel + 1, members, text =>
    match text with
    | '"' :: rest =>
      (Scanned.ofOption (scanString rest)).andThen fun (key, rest) =>
        match skipSpace rest with
        | ':' :: rest =>
          (scanOnce fuel (skipSpace rest)).andThen fun (value, rest) =>
            match skipSpace rest with
            | '}' :: rest => .ofOption (some (.obj (members ++ [(key, value)]), rest))
            | ',' :: rest => scanMembers fuel (members ++ [(key, value)]) (skipSpace rest)
            | _ => .fail
        | _ => .fail
    | _ => .fail

def scanItems : ℕ → List Json → List Char → Scanned (Json × List Char)
  | 0, _, _ => .fail
  | fuel + 1, items, text =>
    (scanOnce fuel text).andThen fun (value, rest) =>
      match skipSpace rest with
      | ']' :: rest => .ofOption (some (.arr (items ++ [value]), rest))
      | ',' :: rest => scanItems fuel (items ++ [value]) (skipSpace rest)
      | _ => .fail

end

/-- The scan of a whole text. -/
def scan (text : List Char) : Scanned (Json × List Char) :=
  scanOnce (2 * text.length + 1) (skipSpace text)

end Scanner

inductive LoadError where
  | valueError
  | recursionError
deriving DecidableEq

/-- `json.loads(text)` in an interpreter that lets arrays and objects nest to `limit`. -/
def loads (limit : ℕ) (text : List Char) : Except LoadError Json :=
  if text.head? = some '\ufeff' then .error .valueError
  else if limit < (scan text).depth then .error .recursionError
  else
    match (scan text).found with
    | some (value, rest) => if skipSpace rest = [] then .ok value else .error .valueError
    | none => .error .valueError

section Dumps

def hexDigit (n : ℕ) : Char := if n < 10 then Char.ofNat (48 + n) else Char.ofNat (87 + n)

def escapeUnit (unit : ℕ) : List Char :=
  ['\\', 'u', hexDigit (unit / 4096 % 16), hexDigit (unit / 256 % 16), hexDigit (unit / 16 % 16),
    hexDigit (unit % 16)]

/-- A code point in UTF-16. -/
def unitsOf (n : ℕ) : List ℕ :=
  if n < 0x10000 then [n]
  else [0xD800 + (n - 0x10000) / 0x400, 0xDC00 + (n - 0x10000) % 0x400]

/-- How a code point of a string is written. -/
def escape (ensureAscii : Bool) (n : ℕ) : List Char :=
  if n = 34 then ['\\', '"']
  else if n = 92 then ['\\', '\\']
  else if n = 8 then ['\\', 'b']
  else if n = 12 then ['\\', 'f']
  else if n = 10 then ['\\', 'n']
  else if n = 13 then ['\\', 'r']
  else if n = 9 then ['\\', 't']
  else if 32 ≤ n ∧ (n ≤ 126 ∨ !ensureAscii) then [Char.ofNat n]
  else (unitsOf n).flatMap escapeUnit

def dumpString (ensureAscii : Bool) (s : CodePoints) : List Char :=
  '"' :: s.flatMap (escape ensureAscii) ++ ['"']

def dumpInt (n : ℤ) : List Char :=
  if n < 0 then '-' :: Nat.toDigits 10 n.natAbs else Nat.toDigits 10 n.natAbs

/-- Texts with commas between them. -/
def commas : List (List Char) → List Char
  | [] => []
  | [text] => text
  | text :: rest => text ++ ',' :: commas rest

mutual

/-- `json.dumps(value, separators=(",", ":"), sort_keys=True)` -/
def dumps (ensureAscii : Bool) : Json → List Char
  | .null => ['n', 'u', 'l', 'l']
  | .bool true => ['t', 'r', 'u', 'e']
  | .bool false => ['f', 'a', 'l', 's', 'e']
  | .int n => dumpInt n
  | .float text => text
  | .str s => dumpString ensureAscii s
  | .arr items => '[' :: commas (dumpItems ensureAscii items) ++ [']']
  | .obj members =>
    '{' :: commas ((pySorted (fun a b => decide (a.1 < b.1)) (dumpMembers ensureAscii members)).map
      Prod.snd) ++ ['}']

def dumpItems (ensureAscii : Bool) : List Json → List (List Char)
  | [] => []
  | item :: rest => dumps ensureAscii item :: dumpItems ensureAscii rest

/-- The members, each under its key. -/
def dumpMembers (ensureAscii : Bool) : List (CodePoints × Json) → List (CodePoints × List Char)
  | [] => []
  | (key, value) :: rest =>
    (key, dumpString ensureAscii key ++ ':' :: dumps ensureAscii value) :: dumpMembers ensureAscii rest

end

end Dumps

end Json
end QuantAgent
