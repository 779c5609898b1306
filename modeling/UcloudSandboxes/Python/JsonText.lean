import UcloudSandboxes.Lib.Bracketed
import UcloudSandboxes.Python.Encode
import UcloudSandboxes.Python.Utf8

/-!
# JSON texts

`json.dumps(value, ensure_ascii=False, separators=(",", ":"))` and `json.loads`, on the objects of
the interpreter and down to the characters. A text of the interpreter may hold surrogates, which no
encoding to UTF-8 can carry. A list, a tuple or a `dict` takes up one level of the recursion limit
while it is written or read.

What is left to the interpreter is the literal of a `float` and its value: `Floats`.

## Main definitions

* `Value`, `Key`: an object as `json.dumps` tells it apart.
* `write`, `dumpsBytes`: the text of an object and its bytes.
* `scanOnce`, `loadsBytes`: the object of a text, and of bytes.
-/
namespace UcloudSandboxes.Python.JsonText
open Lib

/-- A code point of a text: a character, or a surrogate that stands alone. -/
inductive CodePoint
  | scalar (c : Char)
  | surrogate (n : Fin 2048)
  deriving DecidableEq, Repr

/-- A text. -/
abbrev Text := List CodePoint

/-- A text without surrogates. -/
def chars (cs : List Char) : Text := cs.map .scalar

/-- A literal text. -/
def lit (s : String) : Text := chars s.toList

/-- `ord`. -/
def CodePoint.toNat : CodePoint → ℕ
  | .scalar c => c.toNat
  | .surrogate n => 55296 + n

/-- `chr`. -/
def CodePoint.ofNat (n : ℕ) : CodePoint :=
  if h : 55296 ≤ n ∧ n < 57344 then .surrogate ⟨n - 55296, by omega⟩ else .scalar (Char.ofNat n)

/-- A digit of a JSON number. -/
def CodePoint.isDigit : CodePoint → Bool
  | .scalar c => c.isDigit
  | .surrogate _ => false

/-- The character, if it is one. -/
def CodePoint.char? : CodePoint → Option Char
  | .scalar c => some c
  | .surrogate _ => none

/-- The parts of a number. -/
structure Literal where
  negative : Bool
  whole : Text
  /-- The digits behind the point. -/
  fraction : Option Text
  /-- `e` or `E`, the sign and the digits. -/
  exponent : Option (CodePoint × Text × Text)
  deriving DecidableEq, Repr

/-- The point and the digits behind it. -/
def fractionText : Option Text → Text
  | some ds => .scalar '.' :: ds
  | none => []

/-- The exponent. -/
def exponentText : Option (CodePoint × Text × Text) → Text
  | some (mark, sign, ds) => mark :: (sign ++ ds)
  | none => []

/-- The minus sign. -/
def signText (negative : Bool) : Text := if negative then [.scalar '-'] else []

def Literal.text (l : Literal) : Text :=
  signText l.negative ++ (l.whole ++ (fractionText l.fraction ++ exponentText l.exponent))

/-- The number has a fraction or an exponent. -/
def Literal.isFloat (l : Literal) : Bool := l.fraction.isSome || l.exponent.isSome

/-- Digits, one at least. -/
def Digits (ds : Text) : Prop := ds ≠ [] ∧ ∀ d ∈ ds, d.isDigit = true

/-- The grammar of a number: no zero in front of other digits, and a digit behind a point and in
an exponent. -/
structure Literal.WellFormed (l : Literal) : Prop where
  whole : l.whole = [.scalar '0'] ∨ Digits l.whole ∧ l.whole.head? ≠ some (.scalar '0')
  fraction : ∀ ds ∈ l.fraction, Digits ds
  exponent : ∀ mark sign ds, l.exponent = some (mark, sign, ds) →
    (mark = .scalar 'e' ∨ mark = .scalar 'E') ∧
      (sign = [] ∨ sign = [.scalar '+'] ∨ sign = [.scalar '-']) ∧ Digits ds

/-- A `float`, with the finite ones in `F`. -/
inductive Number (F : Type)
  | finite (x : F)
  | posInf
  | negInf
  | nan
  deriving DecidableEq, Repr

/-- The finite floats of the interpreter: `float.__repr__` writes a number of the grammar that
`float` reads back. -/
structure Floats (F : Type) where
  repr : F → Literal
  ofText : Text → Number F
  wellFormed : ∀ x, (repr x).WellFormed
  isFloat : ∀ x, (repr x).isFloat = true
  reads : ∀ x, ofText (repr x).text = .finite x

/-- A key of a `dict`. `other` is a key that `json.dumps` refuses. -/
inductive Key (F : Type)
  | null
  | bool (b : Bool)
  | int (n : ℤ)
  | float (f : Number F)
  | str (s : Text)
  | other
  deriving DecidableEq, Repr

/-- An object. `other` is one that `json.dumps` does not know. -/
inductive Value (F : Type)
  | null
  | bool (b : Bool)
  | int (n : ℤ)
  | float (f : Number F)
  | str (s : Text)
  | list (items : List (Value F))
  | tuple (items : List (Value F))
  | dict (items : List (Key F × Value F))
  | other
  deriving Repr, Inhabited

/-- A character within quotes. -/
def escape (c : Char) : List Char :=
  if c = '"' then ['\\', '"']
  else if c = '\\' then ['\\', '\\']
  else if c = '\n' then ['\\', 'n']
  else if c = '\r' then ['\\', 'r']
  else if c = '\t' then ['\\', 't']
  else if c.toNat = 12 then ['\\', 'f']
  else if c.toNat = 8 then ['\\', 'b']
  else if c.toNat < 32 then unicodeEscape c.toNat
  else [c]

/-- A code point within quotes. -/
def CodePoint.escape : CodePoint → Text
  | .scalar c => chars (JsonText.escape c)
  | .surrogate n => [.surrogate n]

/-- A text in quotes. -/
def quote (s : Text) : Text := .scalar '"' :: (s.flatMap CodePoint.escape ++ [.scalar '"'])

/-- The literal of an `int`. -/
def intLiteral (n : ℤ) : Literal := {
  negative := decide (n < 0)
  whole := chars (Nat.toDigits 10 n.natAbs)
  fraction := none
  exponent := none }

/-- `int.__repr__`. -/
def intText (n : ℤ) : Except Builtin Text :=
  if maxStrDigits < (Nat.toDigits 10 n.natAbs).length then .error .valueError
  else .ok (intLiteral n).text

/-- `true` and `false`. -/
def boolText (b : Bool) : Text := if b then lit "true" else lit "false"

/-- An opening symbol in front, and a closing one behind the items. -/
def bracket (opening close : Char) (texts : List Text) : Text :=
  .scalar opening :: (joinItems (.scalar ',') texts ++ [.scalar close])

section
variable {F : Type} (floats : Floats F)

/-- The text of a `float`. -/
def floatText : Number F → Text
  | .finite x => (floats.repr x).text
  | .posInf => lit "Infinity"
  | .negInf => lit "-Infinity"
  | .nan => lit "NaN"

/-- The text a key is written as. -/
def keyText : Key F → Except Builtin Text
  | .null => .ok (lit "null")
  | .bool b => .ok (boolText b)
  | .int n => intText n
  | .float f => .ok (floatText floats f)
  | .str s => .ok s
  | .other => .error .typeError

mutual

/-- `json.dumps`, `n` levels below the recursion limit. -/
def write : ℕ → Value F → Except Builtin Text
  | _, .null => .ok (lit "null")
  | _, .bool b => .ok (boolText b)
  | _, .int n => intText n
  | _, .float f => .ok (floatText floats f)
  | _, .str s => .ok (quote s)
  | 0, .list _ => .error .recursionError
  | n + 1, .list items => (writeItems n items).map (bracket '[' ']')
  | 0, .tuple _ => .error .recursionError
  | n + 1, .tuple items => (writeItems n items).map (bracket '[' ']')
  | 0, .dict _ => .error .recursionError
  | n + 1, .dict items => (writeEntries n items).map (bracket '\x7b' '\x7d')
  | _, .other => .error .typeError

/-- The texts of the items. -/
def writeItems : ℕ → List (Value F) → Except Builtin (List Text)
  | _, [] => .ok []
  | n, v :: rest =>
      match write n v with
      | .error e => .error e
      | .ok t => (writeItems n rest).map (t :: ·)

/-- The texts of the entries. -/
def writeEntries : ℕ → List (Key F × Value F) → Except Builtin (List Text)
  | _, [] => .ok []
  | n, (k, v) :: rest =>
      match keyText floats k with
      | .error e => .error e
      | .ok key =>
          match write n v with
          | .error e => .error e
          | .ok t => (writeEntries n rest).map ((quote key ++ .scalar ':' :: t) :: ·)

end

/-- `text.encode("utf-8")`; a surrogate is a `UnicodeEncodeError`. -/
def encode (text : Text) : Except Builtin Bytes :=
  match text.mapM CodePoint.char? with
  | some cs => .ok (utf8Encode cs)
  | none => .error .valueError

/-- `json.dumps(value, ensure_ascii=False, separators=(",", ":")).encode("utf-8")`. -/
def dumpsBytes (limit : ℕ) (v : Value F) : Except Builtin Bytes := write floats limit v >>= encode

end
end UcloudSandboxes.Python.JsonText
