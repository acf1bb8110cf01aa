import SignatureCatalog.Der.ObjectIdentifier
import SignatureCatalog.Der.SetOf

/-!
# Attributes

An attribute is an object identifier with a set of values, and attributes come in sets. Both sets
ascend: values in the order of their encodings, attributes by the length of their encoding, then by
object identifier (length first), then by the length of the encoded values, then value by value.

```text
Attributes ::= SET OF Attribute
Attribute ::= SEQUENCE {
    type    OBJECT IDENTIFIER,
    values  SET OF ANY }
```
-/

namespace SignatureCatalog

open Der

/-- An attribute with its values. -/
structure Attribute where
  oid : Oid
  values : List Value
  deriving DecidableEq

/-- A set of attributes, as the list of its elements. -/
abbrev Attributes := List Attribute

namespace Attribute

/-- The values, as a SET. -/
def encodeValues (a : Attribute) : Bytes :=
  encodeTyped .set (a.values.flatMap Value.encode)

/-- The content of the encoding: the object identifier, then the values. -/
def content (a : Attribute) : Bytes :=
  ObjectIdentifier.encode a.oid ++ a.encodeValues

/-- The octets of the encoding. -/
def encode (a : Attribute) : Bytes :=
  encodeTyped .sequence a.content

/-- The order of attributes in a set. -/
def compareDer (a b : Attribute) : Ordering :=
  (compare a.content.length b.content.length).then <|
    (compare a.oid b.oid).then <|
      (compare a.encodeValues.length b.encodeValues.length).then <|
        List.compareLex Value.compareDer a.values b.values

/-- Reads an attribute. -/
def decoder : Decoder Attribute :=
  Decoder.typed .sequence fun n =>
    Decoder.within n do
      let oid ← Decoder.field ObjectIdentifier.decoder
      let values ← Decoder.field
        (Decoder.typed .set (SetOf.contentDecoder Value.compareDer Value.decoder))
      pure ⟨oid, values⟩

/-- An attribute whose values ascend strictly. -/
def IsCanonical (a : Attribute) : Prop :=
  SetOf.Ascending Value.compareDer a.values

end Attribute

namespace Attributes

/-- The content of the encoding: the elements one after the other. -/
def content (attributes : Attributes) : Bytes :=
  attributes.flatMap Attribute.encode

/-- Reads the content of a set of attributes of the given length. -/
def contentDecoder : Nat → Decoder Attributes :=
  SetOf.contentDecoder Attribute.compareDer Attribute.decoder

/-- A set of attributes that ascends strictly, as do the values of each. -/
def IsCanonical (attributes : Attributes) : Prop :=
  SetOf.Ascending Attribute.compareDer attributes ∧ ∀ a ∈ attributes, a.IsCanonical

@[simp] theorem isCanonical_nil : IsCanonical [] :=
  ⟨SetOf.ascending_nil _, by simp⟩

end Attributes

end SignatureCatalog
