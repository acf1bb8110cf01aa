/-!
# Hexadecimal text

Octets, code points and characters are shown to the user to the base 16, with a fixed least width
and in either case. `digits` is the one rule; `lower` and `upper` are its two spellings.
-/

namespace SignatureCatalog.Text

/-- The two alphabets for the digits ten to fifteen. -/
inductive LetterCase where
  | lower
  | upper
  deriving DecidableEq, Repr

/-- The character of one hexadecimal digit; only the last four bits of the number count. -/
def hexDigit (letters : LetterCase) (n : Nat) : Char :=
  let d := n % 16
  if d < 10 then Char.ofNat (0x30 + d)
  else match letters with
    | .lower => Char.ofNat (0x61 + (d - 10))
    | .upper => Char.ofNat (0x41 + (d - 10))

/-- The last `width` hexadecimal digits of a number. -/
def hexDigits (letters : LetterCase) : (width : Nat) → Nat → List Char
  | 0, _ => []
  | width + 1, n => hexDigits letters width (n / 16) ++ [hexDigit letters n]

/-- How many hexadecimal digits a number needs; zero needs one. -/
def hexWidth (n : Nat) : Nat :=
  Nat.log2 n / 4 + 1

/-- A number to the base 16, filled with zeros on the left up to `least` digits. -/
def hexadecimal (letters : LetterCase) (least n : Nat) : String :=
  String.ofList (hexDigits letters (max least (hexWidth n)) n)

end SignatureCatalog.Text
