import Mathlib.Algebra.Order.Ring.Unbundled.Rat

/-!
# Python values

The SDK decodes what the gateway and the relay send with `json.loads`, and then coerces the
fields it needs with `int`, `str`, `bool` and `or`. This module has the values `json.loads`
yields, the exceptions the SDK's functions raise and catch, and those coercions.

What the coercions need from the interpreter's own tables and codecs is an `Interpreter`, a
parameter of every definition that depends on it: the results hold for every one.

## Main definitions

* `Json`: a decoded value; `Dict` is a `dict` with string keys.
* `Raised`: an exception in flight.
* `Interpreter`: the tables and codecs.
* `Json.truthy`, `Json.toStr`, `Json.toInt`: the coercions.
-/
namespace UcloudSandboxes.Python

/-- A Python `float`. -/
inductive PyFloat
  | finite (q : ℚ)
  | posInf
  | negInf
  | nan
  deriving DecidableEq, Repr

/-- A value as `json.loads` yields it. -/
inductive Json
  | null
  | bool (b : Bool)
  | int (n : ℤ)
  | float (f : PyFloat)
  | str (s : String)
  | list (items : List Json)
  | dict (items : List (String × Json))
  deriving Repr, Inhabited

/-- A `dict` with string keys. -/
abbrev Dict := List (String × Json)

/-- The bytes of a body. -/
abbrev Bytes := List UInt8

/-- Header names and values, in the order they were received. -/
abbrev Headers := List (String × String)

/-- Which member of the `OSError` family was raised, as far as the SDK tells them apart.
`reset` is `ConnectionResetError` (`RemoteDisconnected` included) or `BrokenPipeError`. -/
inductive OsKind
  | gaierror
  | reset
  | timeout
  | other
  deriving DecidableEq, Repr

/-- An `OSError`: its place in the family, `errno`, `str(exc)` and the name of its class. -/
structure OsError where
  kind : OsKind
  errno : Option ℤ := none
  text : String := ""
  name : String := "OSError"
  deriving DecidableEq, Repr

/-- The subclasses of `SandboxApiError` that the client tells apart. -/
inductive ApiKind
  | plain
  | historyLost
  | outputTruncated
  deriving DecidableEq, Repr

/-- A `SandboxApiError` or a `RelayApiError`: both carry the same fields. -/
structure ApiError where
  kind : ApiKind := .plain
  message : String
  statusCode : Option ℤ := none
  body : Json := .null
  headers : Headers := []
  deriving Repr

/-- Built-in exception classes that a coercion or a codec raises. -/
inductive Builtin
  | keyError
  | typeError
  | valueError
  | overflowError
  | recursionError
  | other
  deriving DecidableEq, Repr

/-- An exception in flight. -/
inductive Raised
  /-- The API error of the client at hand. -/
  | api (e : ApiError)
  /-- `ResponseTooLargeError`. -/
  | tooLarge (text : String)
  /-- An `OSError` that is not a `URLError`. -/
  | os (e : OsError)
  /-- `URLError(reason)`, itself an `OSError`. -/
  | url (reason : OsError)
  /-- An `http.client.HTTPException` outside the `OSError` family. -/
  | protocol (text : String)
  /-- Any further subclass of `Exception`. -/
  | builtin (cls : Builtin) (text : String)
  /-- A `BaseException` outside `Exception`: cancellation, interrupt or exit. -/
  | base (name : String)
  deriving Repr

/-- `except OSError`. -/
def Raised.isOsError : Raised → Bool
  | .os _ | .url _ => true
  | _ => false

/-- `except Exception`. -/
def Raised.isException : Raised → Bool
  | .base _ => false
  | _ => true

/-- `str(exc)`. -/
def Raised.text : Raised → String
  | .api e => e.message
  | .tooLarge t | .protocol t | .builtin _ t => t
  | .os e => e.text
  | .url reason => "<urlopen error " ++ reason.text ++ ">"
  | .base name => name

/-- A computation that succeeds succeeds in its first part. -/
theorem bind_eq_ok {ε α β : Type} {x : Except ε α} {f : α → Except ε β} {b : β}
    (h : (x >>= f) = .ok b) : ∃ a, x = .ok a ∧ f a = .ok b := by
  cases x with
  | error e => cases h
  | ok a => exact ⟨a, rfl, h⟩

theorem exists_of_isOk {ε α : Type} {x : Except ε α} (h : x.isOk = true) : ∃ a, x = .ok a := by
  cases x with
  | error e => cases h
  | ok a => exact ⟨a, rfl⟩

/-- An error behind `mapError` is one before it. -/
theorem mapError_eq_error {ε ε' α : Type} {x : Except ε α} {f : ε → ε'} {e : ε'}
    (h : x.mapError f = .error e) : ∃ e₀, x = .error e₀ ∧ f e₀ = e := by
  cases x with
  | error e₀ => exact ⟨e₀, rfl, Except.error.inj h⟩
  | ok a => cases h

/-- What `json.loads` does with a text. -/
inductive Loaded
  | value (v : Json)
  /-- `json.JSONDecodeError`. -/
  | decodeError (text : String)
  /-- Another exception: nesting beyond the recursion limit, or an integer literal beyond
  the conversion limit. -/
  | raised (cls : Builtin) (text : String)

/-- The tables and codecs of the interpreter that the SDK calls and that are not restated. -/
structure Interpreter where
  /-- `str.isspace` of one character. -/
  isSpace : Char → Bool
  /-- The value of a decimal digit, in any script. -/
  decimal : Char → Option ℕ
  /-- `str` of a float, a list or a dict, taken as total: the `RecursionError` of a deep nesting is
  left out. -/
  repr : Json → String
  /-- `json.loads` of a text. -/
  loads : String → Loaded
  /-- `bytes.decode("utf-8")`; `none` is `UnicodeDecodeError`. -/
  utf8 : Bytes → Option String
  /-- `bytes.decode("utf-8", errors="replace")`. -/
  utf8Replace : Bytes → String
  /-- `float` of a text; `none` is `ValueError`. -/
  floatOf : String → Option PyFloat
  /-- Seconds from now until an HTTP date; `none` when the text is not one. -/
  dateDelay : String → Option ℚ
  /-- `base64.b64decode(text, validate=True)`; `none` is `ValueError`. -/
  b64decode : String → Option Bytes

/-- An interpreter for texts in ASCII that knows no JSON beyond the literals of `known`. -/
def Interpreter.ascii (known : List (String × Json)) : Interpreter where
  isSpace c := c.isWhitespace
  decimal c := if c.isDigit then some (c.toNat - '0'.toNat) else none
  repr _ := "..."
  loads text :=
    match known.lookup text with
    | some v => .value v
    | none => .decodeError "Expecting value"
  utf8 body :=
    if body.all (· < 128) then some (String.ofList (body.map fun b => Char.ofNat b.toNat)) else none
  utf8Replace body :=
    String.ofList (body.map fun b => if b < 128 then Char.ofNat b.toNat else Char.ofNat 65533)
  floatOf text := (text.toNat?).map fun n => .finite n
  dateDelay _ := none
  b64decode _ := none

namespace Dict

/-- `d.get(key)`, with `None` for a missing key. -/
def get (d : Dict) (key : String) : Json := (d.lookup key).getD .null

/-- `key in d`. -/
def has (d : Dict) (key : String) : Bool := (d.lookup key).isSome

/-- `d[key]`. -/
def item (d : Dict) (key : String) : Except Raised Json :=
  match d.lookup key with
  | some v => .ok v
  | none => .error (.builtin .keyError key)

end Dict

namespace Json

/-- `bool(v)`. -/
def truthy : Json → Bool
  | .null => false
  | .bool b => b
  | .int n => n != 0
  | .float (.finite q) => q != 0
  | .float _ => true
  | .str s => s != ""
  | .list items => !items.isEmpty
  | .dict items => !items.isEmpty

/-- `v or w`. -/
def orElse (v w : Json) : Json := if v.truthy then v else w

/-- `v is True`. -/
def isTrue : Json → Bool
  | .bool b => b
  | _ => false

/-- `v is None`. -/
def isNone : Json → Bool
  | .null => true
  | _ => false

/-- `isinstance(v, dict)`. -/
def asDict : Json → Option Dict
  | .dict items => some items
  | _ => none

/-- `v == text` for a text. -/
def eqStr (v : Json) (text : String) : Bool :=
  match v with
  | .str s => s == text
  | _ => false

/-- `v in {..}` for a set of texts: an unhashable value raises `TypeError`. -/
def memberOf (v : Json) (texts : List String) : Except Raised Bool :=
  match v with
  | .str s => .ok (texts.contains s)
  | .list _ => .error (.builtin .typeError "unhashable type: 'list'")
  | .dict _ => .error (.builtin .typeError "unhashable type: 'dict'")
  | _ => .ok false

/-- `str(v)`. -/
def toStr (py : Interpreter) : Json → String
  | .null => "None"
  | .bool true => "True"
  | .bool false => "False"
  | .int n => toString n
  | .str s => s
  | v => py.repr v

end Json

/-- Decimal digits with single underscores between them, most significant first. -/
def parseDigits (py : Interpreter) (acc : ℕ) (afterDigit : Bool) : List Char → Option ℕ
  | [] => if afterDigit then some acc else none
  | '_' :: rest => if afterDigit then parseDigits py acc false rest else none
  | c :: rest =>
      match py.decimal c with
      | some d => parseDigits py (acc * 10 + d) true rest
      | none => none

/-- The most digits `int` converts from a text. -/
def maxStrDigits : ℕ := 4300

/-- `int(text)`; `none` is `ValueError`. -/
def parseInt (py : Interpreter) (text : String) : Option ℤ :=
  let body := ((text.toList.dropWhile py.isSpace).reverse.dropWhile py.isSpace).reverse
  if maxStrDigits < body.countP (fun c => (py.decimal c).isSome) then none
  else match body with
    | '-' :: digits => (parseDigits py 0 false digits).map fun n => -(n : ℤ)
    | '+' :: digits => (parseDigits py 0 false digits).map fun n => (n : ℤ)
    | digits => (parseDigits py 0 false digits).map fun n => (n : ℤ)

/-- `int(v)`. -/
def Json.toInt (py : Interpreter) : Json → Except Raised ℤ
  | .int n => .ok n
  | .bool b => .ok (if b then 1 else 0)
  | .float (.finite q) => .ok (q.num.tdiv q.den)
  | .float .nan => .error (.builtin .valueError "cannot convert float NaN to integer")
  | .float _ => .error (.builtin .overflowError "cannot convert float infinity to integer")
  | .str s =>
      match parseInt py s with
      | some n => .ok n
      | none => .error (.builtin .valueError "invalid literal for int() with base 10")
  | _ => .error (.builtin .typeError "int() argument must be a string or a real number")

/-- `max(low, min(high, f))`, with Python's order of comparisons: a NaN ends at `high`. -/
def PyFloat.clamp (low high : ℚ) : PyFloat → ℚ
  | .finite q => max low (min high q)
  | .posInf | .nan => max low high
  | .negInf => low

end UcloudSandboxes.Python
