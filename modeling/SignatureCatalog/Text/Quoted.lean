import SignatureCatalog.Text.Hexadecimal
import SignatureCatalog.Text.Printable

/-!
# Quoted text

Names given by a user are shown between double quotes. The quote, the backslash, the line feed, the
carriage return, the tab and the null character have a two-character form; every other character
that is not printable is written by its code point, in lower-case hexadecimal between braces.

Nothing in the catalog reads quoted text back, so there is no inverse here; what matters
is that a printable character is left alone, which is `escape_of_isPrintable`.
-/

namespace SignatureCatalog.Text

/-- The written form of one character. -/
def escape (c : Char) : List Char :=
  if c = '"' then ['\\', '"']
  else if c = '\\' then ['\\', '\\']
  else if c = '\n' then ['\\', 'n']
  else if c = '\r' then ['\\', 'r']
  else if c = '\t' then ['\\', 't']
  else if c.toNat = 0 then ['\\', '0']
  else if isPrintable c then [c]
  else ['\\', 'u', '\x7b'] ++ hexDigits .lower (hexWidth c.toNat) c.toNat ++ ['\x7d']

/-- A text between double quotes, each character in its written form. -/
def quoted (s : String) : String :=
  String.ofList ('"' :: s.toList.flatMap escape ++ ['"'])

/-- A quote, a backslash, a line feed, an accent of its own, and a letter with an accent. -/
example : quoted "\"\\\n\u0301\u00e9" = "\"\\\"\\\\\\n\\u\x7b301\x7d\u00e9\"" := by
  decide +kernel

/-- A printable character other than the quote and the backslash stands for itself. -/
theorem escape_of_isPrintable {c : Char} (h : isPrintable c = true) (quote : c ≠ '"')
    (backslash : c ≠ '\\') : escape c = [c] := by
  -- The characters with a form of their own are unprintable, the quote and the backslash apart.
  have unprintable : ∀ d : Char, isPrintable d = false → c ≠ d := by
    rintro d hd rfl
    simp [h] at hd
  have zero : c.toNat ≠ 0 := by
    intro hc
    have : c = Char.ofNat 0 := by rw [← hc, Char.ofNat_toNat]
    exact unprintable (Char.ofNat 0) (by decide +kernel) this
  simp [escape, quote, backslash, zero, h, unprintable '\n' (by decide +kernel),
    unprintable '\r' (by decide +kernel), unprintable '\t' (by decide +kernel)]

end SignatureCatalog.Text
