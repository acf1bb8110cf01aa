import SignatureCatalog.Der.Error

/-!
# Lengths

A length below 128 is its own octet. A longer one is written in big-endian octets, as few as
possible, after an octet that gives their count. `lengthOfOctets` is the check a reader makes once
it holds those octets: within the limit, and no shorter way of writing it.

The limit `maxLength` holds for writers as well. Here writing is total, and what is said about it
asks for an encoding within the limit; where octets of any number come in from outside, the makers
check them (`OctetString.make`, `SubjectPublicKeyInfo.ofOctets?`).
-/

namespace SignatureCatalog.Der

/-- The octets of a length. -/
def encodeLength (n : Nat) : Bytes :=
  if n < 0x80 then [UInt8.ofNat n]
  else
    let octets := Bytes.bigEndian n
    UInt8.ofNat (0x80 + octets.length) :: octets

/-- The length that the octets of the long form stand for, in a value with the given tag. -/
def lengthOfOctets (t : Tag) (octets : Bytes) : Except Fault Nat :=
  if maxLength < Bytes.ofBigEndian octets then .error .overflow
  else if (encodeLength (Bytes.ofBigEndian octets)).length = octets.length + 1 then
    .ok (Bytes.ofBigEndian octets)
  else .error (.wrongLength t)

/-- The short form ends below 128. -/
example : [0, 127, 128, 255, 256].map encodeLength =
    [[0], [127], [0x81, 128], [0x81, 255], [0x82, 1, 0]] := by
  decide +kernel

/-- A length in the short form takes one octet. -/
theorem encodeLength_of_lt {n : Nat} (h : n < 0x80) : encodeLength n = [UInt8.ofNat n] := by
  simp [encodeLength, h]

/-- No length is written in no octets. -/
theorem encodeLength_ne_nil (n : Nat) : encodeLength n ≠ [] := by
  unfold encodeLength
  split <;> simp

/-- A length that is read from the long form is within the limit. -/
theorem le_maxLength_of_lengthOfOctets {t : Tag} {octets : Bytes} {n : Nat}
    (h : lengthOfOctets t octets = .ok n) : n ≤ maxLength := by
  unfold lengthOfOctets at h
  split at h
  · cases h
  · split at h
    · cases h; omega
    · cases h

end SignatureCatalog.Der
