import UcloudSandboxes.Python.JsonText

/-!
# Reading JSON texts

`json.loads` of a text and of bytes. The scanner of a number takes the longest one, and leaves a
point or an exponent mark alone that no digit follows. Within quotes a control character is
refused; an escaped surrogate pair is one character, and an escaped surrogate without its partner
is kept.
-/
namespace UcloudSandboxes.Python.JsonText
open Lib

/-- Give a key its value; a key that is there keeps its place. -/
def setItem {κ ω : Type} [DecidableEq κ] (items : List (κ × ω)) (key : κ) (value : ω) :
    List (κ × ω) :=
  match items with
  | [] => [(key, value)]
  | item :: rest =>
      if item.1 = key then (key, value) :: rest else item :: setItem rest key value

/-- `dict(pairs)`. -/
def dictOf {κ ω : Type} [DecidableEq κ] (pairs : List (κ × ω)) : List (κ × ω) :=
  pairs.foldl (fun items pair => setItem items pair.1 pair.2) []

/-- Drop the white space in front. -/
def skip (text : Text) : Text := text.dropWhile fun c => (lit " \t\n\r").contains c

/-- The value of a hexadecimal digit. -/
def hexValue : CodePoint → Option ℕ
  | .scalar c =>
      if '0' ≤ c ∧ c ≤ '9' then some (c.toNat - '0'.toNat)
      else if 'a' ≤ c ∧ c ≤ 'f' then some (c.toNat - 'a'.toNat + 10)
      else if 'A' ≤ c ∧ c ≤ 'F' then some (c.toNat - 'A'.toNat + 10)
      else none
  | .surrogate _ => none

/-- Four hexadecimal digits. -/
def readHex : Text → Option (ℕ × Text)
  | a :: b :: c :: d :: rest => do
      let a ← hexValue a
      let b ← hexValue b
      let c ← hexValue c
      let d ← hexValue d
      return (((a * 16 + b) * 16 + c) * 16 + d, rest)
  | _ => none

/-- What an escape of one character stands for. -/
def unescape (c : Char) : Option Char :=
  if c = '"' then some '"'
  else if c = '\\' then some '\\'
  else if c = '/' then some '/'
  else if c = 'b' then some (Char.ofNat 8)
  else if c = 'f' then some (Char.ofNat 12)
  else if c = 'n' then some '\n'
  else if c = 'r' then some '\r'
  else if c = 't' then some '\t'
  else none

/-- The code point behind a backslash. -/
def readEscape : Text → Option (CodePoint × Text)
  | .scalar 'u' :: rest =>
      match readHex rest with
      | none => none
      | some (high, rest) =>
          if 55296 ≤ high ∧ high < 56320 then
            match rest with
            | .scalar '\\' :: .scalar 'u' :: rest' =>
                match readHex rest' with
                | none => none
                | some (low, rest'') =>
                    if 56320 ≤ low ∧ low < 57344 then
                      some (.ofNat (65536 + (high - 55296) * 1024 + (low - 56320)), rest'')
                    else some (.ofNat high, rest)
            | _ => some (.ofNat high, rest)
          else some (.ofNat high, rest)
  | .scalar c :: rest => (unescape c).map fun d => (.scalar d, rest)
  | _ => none

/-- The text up to the closing quote; `n` bounds its length. -/
def readQuoted : ℕ → Text → Option (Text × Text)
  | 0, _ => none
  | _ + 1, [] => none
  | n + 1, c :: rest =>
      if c = .scalar '"' then some ([], rest)
      else if c = .scalar '\\' then
        match readEscape rest with
        | none => none
        | some (d, rest) => (readQuoted n rest).map fun r => (d :: r.1, r.2)
      else if c.toNat < 32 then none
      else (readQuoted n rest).map fun r => (c :: r.1, r.2)

/-- The digits in front. -/
def digits (text : Text) : Text × Text :=
  (text.takeWhile CodePoint.isDigit, text.dropWhile CodePoint.isDigit)

/-- The whole part of a number. -/
def readWhole : Text → Option (Text × Text)
  | [] => none
  | c :: rest =>
      if c = .scalar '0' then some ([c], rest)
      else if (digits (c :: rest)).1 = [] then none
      else some (digits (c :: rest))

/-- A point, if a digit follows it. -/
def readFraction : Text → Option Text × Text
  | [] => (none, [])
  | c :: rest =>
      if c = .scalar '.' ∧ (digits rest).1 ≠ [] then (some (digits rest).1, (digits rest).2)
      else (none, c :: rest)

/-- The sign of an exponent. -/
def readSign : Text → Text × Text
  | [] => ([], [])
  | c :: rest => if c = .scalar '+' ∨ c = .scalar '-' then ([c], rest) else ([], c :: rest)

/-- An exponent, if it has a digit. -/
def readExponent : Text → Option (CodePoint × Text × Text) × Text
  | [] => (none, [])
  | mark :: rest =>
      if (mark = .scalar 'e' ∨ mark = .scalar 'E') ∧ (digits (readSign rest).2).1 ≠ [] then
        (some (mark, (readSign rest).1, (digits (readSign rest).2).1),
          (digits (readSign rest).2).2)
      else (none, mark :: rest)

/-- The minus sign in front. -/
def readNegative : Text → Bool × Text
  | [] => (false, [])
  | c :: rest => if c = .scalar '-' then (true, rest) else (false, c :: rest)

/-- A number. -/
def readLiteral (text : Text) : Option (Literal × Text) :=
  let (negative, rest) := readNegative text
  match readWhole rest with
  | none => none
  | some (whole, rest) =>
      let (fraction, rest) := readFraction rest
      let (exponent, rest) := readExponent rest
      some ({ negative, whole, fraction, exponent }, rest)

/-- The natural number that digits denote. -/
def natOf (ds : Text) : ℕ := Nat.ofDigitChars 10 (ds.filterMap CodePoint.char?) 0

section
variable {F : Type} (floats : Floats F)

/-- `float` or `int` of a number. -/
def Literal.value (l : Literal) : Except Builtin (Value F) :=
  if l.isFloat then .ok (.float (floats.ofText l.text))
  else if maxStrDigits < l.whole.length then .error .valueError
  else .ok (.int (if l.negative then -(natOf l.whole : ℤ) else natOf l.whole))

/-- The values with a name. -/
def constants : List (Text × Value F) :=
  [(lit "null", .null), (lit "true", .bool true), (lit "false", .bool false),
    (lit "NaN", .float .nan), (lit "Infinity", .float .posInf),
    (lit "-Infinity", .float .negInf)]

/-- A value without brackets or quotes. -/
def scanScalar (text : Text) : Except Builtin (Value F × Text) :=
  match constants.find? fun constant => constant.1.isPrefixOf text with
  | some (name, v) => .ok (v, text.drop name.length)
  | none =>
      match readLiteral text with
      | none => .error .valueError
      | some (l, rest) => (l.value floats).map (·, rest)

/-- The items up to a closing symbol, which may follow at once. -/
def readMany {β : Type} (close : CodePoint) (item : Text → Except Builtin (β × Text))
    (text : Text) : Except Builtin (List β × Text) :=
  match skip text with
  | [] => .error .valueError
  | c :: rest =>
      if c = close then .ok ([], rest)
      else readItems (.scalar ',') close .valueError skip item text.length (c :: rest)

/-- A key, a colon and a value. -/
def readEntry (scan : Text → Except Builtin (Value F × Text)) :
    Text → Except Builtin ((Text × Value F) × Text)
  | [] => .error .valueError
  | c :: rest =>
      if c = .scalar '"' then
        match readQuoted rest.length rest with
        | none => .error .valueError
        | some (key, rest) =>
            match skip rest with
            | [] => .error .valueError
            | d :: rest =>
                if d = .scalar ':' then (scan (skip rest)).map fun r => ((key, r.1), r.2)
                else .error .valueError
      else .error .valueError

/-- The value in front, given the reader of what stands in brackets. -/
def scanValue (list dict : Text → Except Builtin (Value F × Text)) :
    Text → Except Builtin (Value F × Text)
  | [] => .error .valueError
  | c :: rest =>
      if c = .scalar '"' then
        match readQuoted rest.length rest with
        | none => .error .valueError
        | some (s, rest) => .ok (.str s, rest)
      else if c = .scalar '[' then list rest
      else if c = .scalar '\x7b' then dict rest
      else scanScalar floats (c :: rest)

/-- The `dict` of the entries that were read. -/
def dictValue (entries : List (Text × Value F)) : Value F :=
  .dict ((dictOf entries).map fun entry => (.str entry.1, entry.2))

/-- `scan_once`, `n` levels below the recursion limit. -/
def scanOnce : ℕ → Text → Except Builtin (Value F × Text)
  | 0 => scanValue floats (fun _ => .error .recursionError) fun _ => .error .recursionError
  | n + 1 =>
      scanValue floats
        (fun text => (readMany (.scalar ']') (scanOnce n) text).map fun r => (.list r.1, r.2))
        fun text =>
          (readMany (.scalar '\x7d') (readEntry (scanOnce n)) text).map fun r =>
            (dictValue r.1, r.2)

/-- `JSONDecoder.decode`. -/
def loads (limit : ℕ) (text : Text) : Except Builtin (Value F) :=
  match scanOnce floats limit (skip text) with
  | .error e => .error e
  | .ok (v, rest) => if skip rest = [] then .ok v else .error .valueError

/-- The encodings `json.loads` tells apart by the first bytes. -/
inductive Encoding
  | utf8
  | utf8Sig
  | utf16
  | utf16be
  | utf16le
  | utf32
  | utf32be
  | utf32le
  deriving DecidableEq, Repr

/-- `detect_encoding`. -/
def detectEncoding (b : Bytes) : Encoding :=
  if [0, 0, 254, 255].isPrefixOf b ∨ [255, 254, 0, 0].isPrefixOf b then .utf32
  else if [254, 255].isPrefixOf b ∨ [255, 254].isPrefixOf b then .utf16
  else if [239, 187, 191].isPrefixOf b then .utf8Sig
  else match b with
    | b₀ :: b₁ :: b₂ :: b₃ :: _ =>
        if b₀ = 0 then if b₁ = 0 then .utf32be else .utf16be
        else if b₁ = 0 then if b₂ = 0 ∧ b₃ = 0 then .utf32le else .utf16le
        else .utf8
    | [b₀, b₁] => if b₀ = 0 then .utf16be else if b₁ = 0 then .utf16le else .utf8
    | _ => .utf8

/-- `json.loads` of bytes. `decode` is `bytes.decode` for an encoding other than UTF-8; what no
strict encoder writes is not UTF-8 here. -/
def loadsBytes (decode : Encoding → Bytes → Option Text) (limit : ℕ) (encoded : Bytes) :
    Except Builtin (Value F) :=
  let text := match detectEncoding encoded with
    | .utf8 => (utf8Decode encoded).map chars
    | encoding => decode encoding encoded
  match text with
  | none => .error .valueError
  | some text => loads floats limit text

end
end UcloudSandboxes.Python.JsonText
