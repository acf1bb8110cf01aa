import SignatureCatalog.Der.ObjectIdentifier

/-!
# Algorithm identifiers

An algorithm identifier is an object identifier with parameters that may be absent. The parameters
are one value of any type; what they mean is the algorithm's business.

```text
AlgorithmIdentifier ::= SEQUENCE {
    algorithm   OBJECT IDENTIFIER,
    parameters  ANY OPTIONAL }
```
-/

namespace SignatureCatalog

open Der

/-- An algorithm, by object identifier and parameters. -/
structure AlgorithmIdentifier where
  oid : Oid
  parameters : Option Value
  deriving DecidableEq

namespace AlgorithmIdentifier

/-- The identifier with absent parameters. -/
def ofOid (oid : Oid) : AlgorithmIdentifier :=
  ⟨oid, none⟩

/-- The content of the encoding: the object identifier, then the parameters if there are any. -/
def content (a : AlgorithmIdentifier) : Bytes :=
  ObjectIdentifier.encode a.oid ++ match a.parameters with
    | none => []
    | some v => v.encode

/-- The octets of the encoding. -/
def encode (a : AlgorithmIdentifier) : Bytes :=
  encodeTyped .sequence a.content

/-- Reads an algorithm identifier. -/
def decoder : Decoder AlgorithmIdentifier :=
  Decoder.typed .sequence fun n =>
    Decoder.within n do
      let oid ← Decoder.field ObjectIdentifier.decoder
      let parameters ← Decoder.field Value.optionalDecoder
      pure ⟨oid, parameters⟩

/-- The algorithm identifier a whole input stands for. -/
def ofDer (input : Bytes) : Except Der.Error AlgorithmIdentifier :=
  Decoder.decode decoder input

end AlgorithmIdentifier

end SignatureCatalog
