import SignatureCatalog.Der.Value

/-!
# Bit strings

A bit string is a string of octets of which the last may have up to seven bits that do not count.
Their value is free. Only a bit string without unused bits is a string of octets, which is
`BitString.octets?`.
-/

namespace SignatureCatalog.Der

/-- A string of bits, filled up to octets. -/
structure BitString where
  unused : Fin 8
  octets : Bytes
  unused_eq_zero : octets = [] → unused = 0
  deriving DecidableEq

namespace BitString

@[ext] theorem ext {a b : BitString} (unused : a.unused = b.unused) (octets : a.octets = b.octets) :
    a = b := by
  cases a; cases b; simp_all

/-- The bit string with all bits of the given octets. -/
def ofOctets (octets : Bytes) : BitString :=
  ⟨0, octets, fun _ => rfl⟩

/-- The bit string with so many unused bits, if there can be as many. -/
def make (unused : UInt8) (octets : Bytes) : Except Fault BitString :=
  if h : unused.toNat < 8 ∧ (octets = [] → unused.toNat = 0) then
    .ok ⟨⟨unused.toNat, h.1⟩, octets, fun empty => Fin.ext (h.2 empty)⟩
  else .error (.malformedValue .bitString)

/-- How many bits there are. -/
def bitLength (b : BitString) : Nat :=
  8 * b.octets.length - b.unused.val

/-- The octets, if all their bits count. -/
def octets? (b : BitString) : Except Error Bytes :=
  if b.unused = 0 then .ok b.octets else .error ⟨.malformedValue .bitString, none⟩

/-- The content of the encoding: the number of unused bits, then the octets. -/
def content (b : BitString) : Bytes :=
  UInt8.ofNat b.unused.val :: b.octets

/-- The octets of the encoding. -/
def encode (b : BitString) : Bytes :=
  encodeTyped .bitString b.content

/-- Reads the content of a bit string of the given length; without any octet there is no number of
unused bits, and the length of what follows it cannot be computed. -/
def contentDecoder (n : Nat) : Decoder BitString :=
  if n = 0 then Decoder.fail .overflow
  else do
    let unused ← Decoder.octet
    let octets ← Decoder.take (n - 1)
    Decoder.ofExcept (make unused octets)

/-- Reads a bit string. -/
def decoder : Decoder BitString :=
  Decoder.typed .bitString contentDecoder

/-- There are octets exactly when no bit is unused. -/
theorem octets?_eq_ok_iff {b : BitString} {octets : Bytes} :
    b.octets? = .ok octets ↔ b = ofOctets octets := by
  unfold octets?
  constructor
  · intro h
    split at h
    · next hu => cases h; exact ext hu rfl
    · cases h
  · rintro rfl; rfl

end BitString

end SignatureCatalog.Der
