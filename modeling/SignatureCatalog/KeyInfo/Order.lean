import SignatureCatalog.KeyInfo.PublicKey

/-!
# Orders on key infos

Algorithm identifiers and public key infos can be compared in three ways.

* `compareFields` goes field by field, with absent parameters before present ones and tags by
  `Tag.compareRank`.
* `compareValue` is meant for two values of one type whose encodings have equal length. It compares
  the fields as DER does, but has no answer of its own for two algorithm identifiers that both lack
  parameters: the first then counts as the smaller one, as it does against any with parameters.
* `compareDer` looks at the length of the encoding first and falls back on `compareValue`.

The comparisons of DER values are written for values that DER can hold: with an encoding, or with a
bit string of a weight, above `maxLength` there is a length that cannot be stated, and such a
comparison fails. They are total here, and go on as if there were no limit.
-/

namespace SignatureCatalog

open Der

namespace AlgorithmIdentifier

/-- Absent parameters first, then by tag, length and content. -/
def compareParameters : Option Value → Option Value → Ordering
  | none, none => .eq
  | none, some _ => .lt
  | some _, none => .gt
  | some v, some w => (v.tag.compareRank w.tag).then (v.content.shortlex w.content)

/-- Compares by object identifier, then by parameters. -/
def compareFields (a b : AlgorithmIdentifier) : Ordering :=
  (compare a.oid b.oid).then (compareParameters a.parameters b.parameters)

/-- Compares the object identifiers, then the parameters as elements of a set. Absent parameters are
less than anything, absent ones included. -/
def compareValue (a b : AlgorithmIdentifier) : Ordering :=
  (compare a.oid b.oid).then <|
    match a.parameters, b.parameters with
    | none, _ => .lt
    | some _, none => .gt
    | some v, some w => v.compareDer w

/-- Compares the length of the encodings, then the values. -/
def compareDer (a b : AlgorithmIdentifier) : Ordering :=
  (compare a.encode.length b.encode.length).then (a.compareValue b)

end AlgorithmIdentifier

namespace SubjectPublicKeyInfo

/-- How many octets a string of octets would take as a list of INTEGERs: three for each, and one
more from 128 on, where an octet needs a zero in front of it. This is a sum of lengths, which DER
has only up to `maxLength`; from some 67 million octets on the number here may exceed it. -/
def weight (octets : Bytes) : Nat :=
  3 * octets.length + octets.countP fun octet => 0x80 ≤ octet.toNat

/-- Compares by algorithm, then by unused bits, number of bits, and octets. -/
def compareFields (a b : SubjectPublicKeyInfo) : Ordering :=
  (a.algorithm.compareFields b.algorithm).then <|
    (compare a.subjectPublicKey.unused b.subjectPublicKey.unused).then <|
      (compare a.subjectPublicKey.bitLength b.subjectPublicKey.bitLength).then <|
        compare a.subjectPublicKey.octets b.subjectPublicKey.octets

/-- Compares by algorithm, then by the number of octets, unused bits, weight, and octets. Where this
comes to a weight above `maxLength` the comparison of the bit strings fails in DER; there is an
answer here all the same. -/
def compareValue (a b : SubjectPublicKeyInfo) : Ordering :=
  (a.algorithm.compareDer b.algorithm).then <|
    (compare a.subjectPublicKey.octets.length b.subjectPublicKey.octets.length).then <|
      (compare a.subjectPublicKey.unused b.subjectPublicKey.unused).then <|
        (compare (weight a.subjectPublicKey.octets) (weight b.subjectPublicKey.octets)).then <|
          compare a.subjectPublicKey.octets b.subjectPublicKey.octets

/-- Compares the length of the encodings, then the values. -/
def compareDer (a b : SubjectPublicKeyInfo) : Ordering :=
  (compare a.encode.length b.encode.length).then (a.compareValue b)

end SubjectPublicKeyInfo

end SignatureCatalog
