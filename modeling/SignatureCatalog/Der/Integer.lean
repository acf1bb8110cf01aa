import SignatureCatalog.Der.Value

/-!
# Unsigned 64-bit integers

An INTEGER is written in two's complement, in the fewest octets: a zero octet stands in front only
where the number would otherwise look negative. Reading accepts that form alone.
-/

namespace SignatureCatalog.Der.Integer

/-- The content octets of a number. -/
def content (n : UInt64) : Bytes :=
  match Bytes.bigEndian n.toNat with
  | [] => [0]
  | first :: rest => if first.toNat < 0x80 then first :: rest else 0 :: first :: rest

/-- The octets of the encoding. -/
def encode (n : UInt64) : Bytes :=
  encodeTyped .integer (content n)

/-- The number that content octets stand for: not negative, in the fewest octets, and within 64
bits. -/
def ofContent (octets : Bytes) : Except Fault UInt64 :=
  match octets with
  | [] => .error (.nonCanonical .integer)
  | [first] =>
    if 0x80 ≤ first.toNat then .error (.malformedValue .integer) else .ok first.toUInt64
  | first :: second :: rest =>
    -- The zero in front is there for the sign of the next octet and for nothing else.
    if first = 0 ∧ second.toNat < 0x80 then .error (.nonCanonical .integer)
    else if 0x80 ≤ first.toNat then .error (.malformedValue .integer)
    -- Nine octets are 64 bits only where the first one is such a zero.
    else if octets.length = 9 ∧ first ≠ 0 then .error (.wrongLength .integer)
    else .ok (UInt64.ofNat (Bytes.ofBigEndian (first :: second :: rest)))

/-- Numbers are read back from the octets they are written in. -/
example :
    ([0, 127, 128, 255, 256, 0xFFFFFFFFFFFFFFFF].map fun n => (ofContent (content n)).toOption) =
    [some 0, some 127, some 128, some 255, some 256, some 0xFFFFFFFFFFFFFFFF] := by
  decide +kernel

/-- Reads the content of an INTEGER of the given length; nine octets are the most. -/
def contentDecoder (n : Nat) : Decoder UInt64 :=
  if 9 < n then Decoder.fail (.nonCanonical .integer)
  else do
    let octets ← Decoder.take n
    Decoder.ofExcept (ofContent octets)

/-- Reads a number. -/
def decoder : Decoder UInt64 :=
  Decoder.typed .integer contentDecoder

end SignatureCatalog.Der.Integer
