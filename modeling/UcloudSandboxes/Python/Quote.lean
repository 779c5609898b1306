import UcloudSandboxes.Lib.Url
import UcloudSandboxes.Python.Utf8

/-!
# Texts in URLs

`urllib.parse.quote`, `quote_plus`, `urlencode` and `unquote`, and the `strip` of slashes.
-/
namespace UcloudSandboxes.Python
open Lib

/-- `quote(text, safe="")`. -/
def quote (text : String) : String :=
  String.ofList (Url.percentEncode (utf8Encode text.toList))

/-- `unquote`, where it meets no malformed sequence. -/
def unquote (text : Url.Text) : Option String :=
  ((Url.percentDecode text).bind utf8Decode).map String.ofList

/-- `quote_plus`. -/
def quotePlus (text : String) : String :=
  String.ofList (text.toList.flatMap fun c =>
    if c = ' ' then ['+'] else Url.percentEncode (utf8Encode [c]))

/-- `urlencode`. -/
def urlencode (items : List (String × String)) : String :=
  "&".intercalate (items.map fun kv => quotePlus kv.1 ++ "=" ++ quotePlus kv.2)

/-- `text.rstrip("/")`. -/
def rstripSlash (text : String) : String :=
  String.ofList (text.toList.reverse.dropWhile (· = '/')).reverse

/-- `text.lstrip("/")`. -/
def lstripSlash (text : String) : String := String.ofList (text.toList.dropWhile (· = '/'))

/-- **A quoted text** can be read back. -/
theorem unquote_quote (text : String) : unquote (quote text).toList = some text := by
  simp only [unquote, quote, String.toList_ofList, Url.percentDecode_percentEncode,
    Option.bind_some, utf8Decode_utf8Encode, Option.map_some, String.ofList_toList]

/-- Nothing in a quoted text ends a segment, or a path. -/
theorem not_mem_quote {text : String} {c : Char} (h : c = '/' ∨ c = '?' ∨ c = '#') :
    c ∉ (quote text).toList := by
  rw [quote, String.toList_ofList]
  rcases h with rfl | rfl | rfl
  · exact Url.not_mem_percentEncode (by decide) (by decide)
  · exact Url.not_mem_percentEncode (by decide) (by decide)
  · exact Url.not_mem_percentEncode (by decide) (by decide)

/-- Only `.` and `..` are quoted as dot segments. -/
theorem isDot_quote {text : String} :
    Url.IsDot (quote text).toList ↔ text = "." ∨ text = ".." := by
  have hone : unquote ['.'] = some "." := by decide +kernel
  have htwo : unquote ['.', '.'] = some ".." := by decide +kernel
  constructor
  · intro h
    have hback := unquote_quote text
    rcases h with h | h
    · rw [h, hone] at hback
      exact .inl (Option.some.inj hback).symm
    · rw [h, htwo] at hback
      exact .inr (Option.some.inj hback).symm
  · rintro (rfl | rfl)
    · exact .inl (by decide +kernel)
    · exact .inr (by decide +kernel)

end UcloudSandboxes.Python
