import SignatureCatalog.Bytes

/-!
# Tags

The identifier octet of a DER value. The low five bits are a number, bit six says that the value is
constructed, the top two bits are the class. Numbers of 31 and above would need further octets and
are not supported. In the universal class only the types of the table `Tag.universal` exist, each
with one fixed setting of the constructed bit; in the other three classes every number does.

Two orders are in use and they differ: values in a set are compared by their identifier octet, while
`Tag.compareRank` follows the table, in which the two constructed types stand before the character
strings.
-/

namespace SignatureCatalog.Der

/-- The universal types by identifier octet, in the order of `Tag.compareRank`. -/
def Tag.universal : List (UInt8 × String) :=
  [(0x01, "BOOLEAN"), (0x02, "INTEGER"), (0x03, "BIT STRING"), (0x04, "OCTET STRING"),
   (0x05, "NULL"), (0x06, "OBJECT IDENTIFIER"), (0x09, "REAL"), (0x0A, "ENUMERATED"),
   (0x0C, "UTF8String"), (0x30, "SEQUENCE"), (0x31, "SET"), (0x12, "NumericString"),
   (0x13, "PrintableString"), (0x14, "TeletexString"), (0x15, "VideotexString"),
   (0x16, "IA5String"), (0x17, "UTCTime"), (0x18, "GeneralizedTime"), (0x1A, "VisibleString"),
   (0x1E, "BMPString")]

/-- The identifier octets of tags: a number below 31, and in the universal class a known type. -/
def Tag.IsIdentifier (octet : UInt8) : Prop :=
  octet.toNat % 32 ≠ 31 ∧ ((Tag.universal.lookup octet).isSome ∨ 0x40 ≤ octet.toNat)

instance (octet : UInt8) : Decidable (Tag.IsIdentifier octet) := by
  unfold Tag.IsIdentifier
  infer_instance

/-- A tag, as its identifier octet. -/
structure Tag where
  octet : UInt8
  isIdentifier : Tag.IsIdentifier octet
  deriving DecidableEq

namespace Tag

@[ext] theorem ext {s t : Tag} (h : s.octet = t.octet) : s = t := by
  cases s; cases t; simp_all

/-! ### The types that key infos are made of -/

/-- INTEGER -/
def integer : Tag := ⟨0x02, by decide⟩

/-- BIT STRING -/
def bitString : Tag := ⟨0x03, by decide⟩

/-- OCTET STRING -/
def octetString : Tag := ⟨0x04, by decide⟩

/-- OBJECT IDENTIFIER -/
def objectIdentifier : Tag := ⟨0x06, by decide⟩

/-- SEQUENCE -/
def sequence : Tag := ⟨0x30, by decide⟩

/-- SET -/
def set : Tag := ⟨0x31, by decide⟩

/-- The constructed context-specific tag with number zero. -/
def contextZero : Tag := ⟨0xA0, by decide⟩

/-! ### The parts of a tag -/

/-- The class, zero for universal. -/
def classNumber (t : Tag) : Nat :=
  t.octet.toNat / 64

/-- Whether the content is made of values itself. -/
def isConstructed (t : Tag) : Bool :=
  t.octet.toNat / 32 % 2 = 1

/-- The number within the class. -/
def number (t : Tag) : Nat :=
  t.octet.toNat % 32

/-- A universal type is shown by name, any other tag by class, number and form. -/
def name (t : Tag) : String :=
  match universal.lookup t.octet with
  | some name => name
  | none =>
    (match t.classNumber with
      | 1 => "APPLICATION"
      | 2 => "CONTEXT-SPECIFIC"
      | _ => "PRIVATE")
    ++ " [" ++ t.number.repr ++ "] (" ++
    (if t.isConstructed then "constructed" else "primitive") ++ ")"

/-- The place of a tag: universal types as in the table, then the other classes, in each of them
primitive before constructed and small numbers before large. -/
def rank (t : Tag) : Nat × Nat × Nat :=
  if t.octet.toNat < 0x40 then (universal.findIdx (·.1 = t.octet), 0, 0)
  else (universal.length + t.classNumber, if t.isConstructed then 1 else 0, t.number)

/-- Compares tags by place. -/
def compareRank (s t : Tag) : Ordering :=
  (compare s.rank.1 t.rank.1).then <|
    (compare s.rank.2.1 t.rank.2.1).then (compare s.rank.2.2 t.rank.2.2)

end Tag

end SignatureCatalog.Der
