import UcloudSandboxes.Python.Value

/-!
# Texts the SDK writes

`json.dumps` of a text, and `base64.b64encode`. Both write ASCII only.
-/
namespace UcloudSandboxes.Python

/-- A hexadecimal digit, in lower case. -/
def hexDigit (n : ℕ) : Char :=
  Char.ofNat (if n < 10 then '0'.toNat + n else 'a'.toNat + (n - 10))

/-- `\uXXXX`. -/
def unicodeEscape (n : ℕ) : List Char :=
  ['\\', 'u', hexDigit (n / 4096 % 16), hexDigit (n / 256 % 16), hexDigit (n / 16 % 16),
    hexDigit (n % 16)]

/-- A character of a JSON text; one beyond the Basic Multilingual Plane is a surrogate pair. -/
def jsonChar (c : Char) : List Char :=
  if c = '"' then ['\\', '"']
  else if c = '\\' then ['\\', '\\']
  else if c = '\n' then ['\\', 'n']
  else if c = '\r' then ['\\', 'r']
  else if c = '\t' then ['\\', 't']
  else if c.toNat = 12 then ['\\', 'f']
  else if c.toNat = 8 then ['\\', 'b']
  else if 32 ≤ c.toNat ∧ c.toNat < 127 then [c]
  else if c.toNat < 65536 then unicodeEscape c.toNat
  else
    unicodeEscape (55296 + (c.toNat - 65536) / 1024 % 1024) ++
      unicodeEscape (56320 + (c.toNat - 65536) % 1024)

/-- `json.dumps` of a text. -/
def dumpsText (text : String) : String :=
  String.ofList ('"' :: (text.toList.flatMap jsonChar) ++ ['"'])

/-- `json.dumps` of a `dict`, given the texts of its values. -/
def dumpsDict (items : List (String × String)) : String :=
  "\x7b" ++ ", ".intercalate (items.map fun kv => dumpsText kv.1 ++ ": " ++ kv.2) ++ "\x7d"

/-- A digit of base 64. -/
def base64Digit (n : ℕ) : Char :=
  if n < 26 then Char.ofNat ('A'.toNat + n)
  else if n < 52 then Char.ofNat ('a'.toNat + (n - 26))
  else if n < 62 then Char.ofNat ('0'.toNat + (n - 52))
  else if n = 62 then '+'
  else '/'

/-- `base64.b64encode`. -/
def b64encode : Bytes → List Char
  | [] => []
  | [a] => [base64Digit (a.toNat / 4), base64Digit (a.toNat % 4 * 16), '=', '=']
  | [a, b] =>
      [base64Digit (a.toNat / 4), base64Digit (a.toNat % 4 * 16 + b.toNat / 16),
        base64Digit (b.toNat % 16 * 4), '=']
  | a :: b :: c :: rest =>
      base64Digit (a.toNat / 4) :: base64Digit (a.toNat % 4 * 16 + b.toNat / 16) ::
        base64Digit (b.toNat % 16 * 4 + c.toNat / 64) :: base64Digit (c.toNat % 64) ::
          b64encode rest

end UcloudSandboxes.Python
