/-!
# Octet strings

Keys, messages, signatures and encodings are finite lists of octets. Two orders on them are used:
the lexicographic one (`compare`, which core supplies on lists) and the length-first one
(`shortlex`), which is how object identifiers are ordered.

Numbers enter encodings in big-endian form. `bigEndian` writes a number in the fewest octets
(none for zero), `ofBigEndian` reads one back; `ofBigEndian_bigEndian` is the round trip and
`ofBigEndian_append_singleton` the one step by which both are reasoned about.
-/

namespace SignatureCatalog

/-- A finite string of octets. -/
abbrev Bytes := List UInt8

namespace Bytes

/-- Length first, octets second. -/
def shortlex (a b : Bytes) : Ordering :=
  (compare a.length b.length).then (compare a b)

/-! ### Big-endian numbers -/

/-- The number an octet string stands for, most significant octet first. -/
def ofBigEndian (b : Bytes) : Nat :=
  b.foldl (fun n octet => n * 256 + octet.toNat) 0

/-- The fewest octets that stand for a number, most significant first; none at all for zero. -/
def bigEndian (n : Nat) : Bytes :=
  if n = 0 then [] else bigEndian (n / 256) ++ [UInt8.ofNat n]
termination_by n

@[simp] theorem ofBigEndian_nil : ofBigEndian [] = 0 := rfl

/-- Each further octet is one more digit to the base 256. -/
theorem ofBigEndian_append_singleton (b : Bytes) (octet : UInt8) :
    ofBigEndian (b ++ [octet]) = ofBigEndian b * 256 + octet.toNat := by
  simp [ofBigEndian]

@[simp] theorem bigEndian_zero : bigEndian 0 = [] := by
  simp [bigEndian]

/-- Reading undoes writing. -/
@[simp] theorem ofBigEndian_bigEndian (n : Nat) : ofBigEndian (bigEndian n) = n := by
  induction n using Nat.strongRecOn with
  | ind n ih =>
    rw [bigEndian]
    split
    · next h => simp [h]
    · next h =>
      rw [ofBigEndian_append_singleton, ih (n / 256) (by omega)]
      have : (UInt8.ofNat n).toNat = n % 256 := by simp
      omega

end Bytes

end SignatureCatalog
