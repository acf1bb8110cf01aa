import SignatureCatalog.Der.Integer
import SignatureCatalog.KeyInfo.Algorithm
import SignatureCatalog.KeyInfo.Attribute

/-!
# Private key infos

A private key info names an algorithm, carries the key as a string of octets, and may carry
attributes. Absent attributes and an empty set of them are different things and are written
differently.

```text
PrivateKeyInfo ::= SEQUENCE {
    version                   INTEGER,
    privateKeyAlgorithm       AlgorithmIdentifier,
    privateKey                OCTET STRING,
    attributes           [0]  IMPLICIT Attributes OPTIONAL }
```
-/

namespace SignatureCatalog

open Der

/-- A private key with the algorithm it belongs to. -/
structure PrivateKeyInfo where
  version : UInt64
  algorithm : AlgorithmIdentifier
  privateKey : Bytes
  attributes : Option Attributes
  deriving DecidableEq

namespace PrivateKeyInfo

/-- A key info of version zero without attributes. -/
def ofOctets (algorithm : AlgorithmIdentifier) (privateKey : Bytes) : PrivateKeyInfo :=
  ⟨0, algorithm, privateKey, none⟩

/-- A key info with the given key, which must be within the length limit. -/
def ofOctets? (algorithm : AlgorithmIdentifier) (privateKey : Bytes) :
    Except Der.Error PrivateKeyInfo :=
  (OctetString.make privateKey).map (ofOctets algorithm)

/-- The key info with these attributes in place of its own. -/
def withAttributes (k : PrivateKeyInfo) (attributes : Option Attributes) : PrivateKeyInfo :=
  ⟨k.version, k.algorithm, k.privateKey, attributes⟩

/-- The object identifier of the algorithm. -/
def oid (k : PrivateKeyInfo) : Oid :=
  k.algorithm.oid

/-- The attributes as they stand at the end of the encoding. -/
def encodeAttributes : Option Attributes → Bytes
  | none => []
  | some attributes => encodeTyped .contextZero attributes.content

/-- The content of the encoding: version, algorithm, key, and attributes if there are any. -/
def content (k : PrivateKeyInfo) : Bytes :=
  Integer.encode k.version ++ k.algorithm.encode ++ encodeTyped .octetString k.privateKey ++
    encodeAttributes k.attributes

/-- The octets of the encoding. -/
def encode (k : PrivateKeyInfo) : Bytes :=
  encodeTyped .sequence k.content

/-- Reads the attributes, if a context-specific tag with number zero follows. Whether it is marked
as constructed is looked at last. Any other value is left where it is. -/
def attributesDecoder : Decoder (Option Attributes) := do
  match ← Decoder.peek with
  | none => pure none
  | some octet =>
    let next ← Decoder.ofExcept (Tag.ofOctet octet)
    -- Class two is context-specific. What is left standing here is trailing data to the sequence.
    if next.classNumber = 2 ∧ next.number = 0 then
      let (tag, n) ← Decoder.header
      let attributes ← Attributes.contentDecoder n
      if tag.isConstructed then pure (some attributes) else Decoder.fail (.nonCanonical tag)
    else pure none

/-- Reads a key info. -/
def decoder : Decoder PrivateKeyInfo :=
  Decoder.typed .sequence fun n =>
    Decoder.within n do
      let version ← Decoder.field Integer.decoder
      let algorithm ← Decoder.field AlgorithmIdentifier.decoder
      let privateKey ← Decoder.field (Decoder.typed .octetString Decoder.take)
      let attributes ← attributesDecoder
      pure ⟨version, algorithm, privateKey, attributes⟩

/-- The key info a whole input stands for. -/
def ofDer (input : Bytes) : Except Der.Error PrivateKeyInfo :=
  Decoder.decode decoder input

end PrivateKeyInfo

end SignatureCatalog
