import SignatureCatalog.Der.Value
import SignatureCatalog.Oid.Basic

/-!
# Object identifiers in DER

The content of an OBJECT IDENTIFIER is the identifier's own octets. The length is checked before
they are read, the rest of `Oid.IsDecodable` afterwards.
-/

namespace SignatureCatalog.Der.ObjectIdentifier

/-- The octets of the encoding. -/
def encode (o : Oid) : Bytes :=
  encodeTyped .objectIdentifier o.content

/-- The identifier with these content octets. -/
def ofContent (octets : Bytes) : Except Fault Oid :=
  match Oid.ofContent? octets with
  | some o => .ok o
  | none => .error .malformedOid

/-- Reads the content of an OBJECT IDENTIFIER of the given length. -/
def contentDecoder (n : Nat) : Decoder Oid :=
  if Oid.maxLength < n then Decoder.fail (.wrongLength .objectIdentifier)
  else do
    let octets ← Decoder.take n
    Decoder.ofExcept (ofContent octets)

/-- Reads an object identifier. -/
def decoder : Decoder Oid :=
  Decoder.typed .objectIdentifier contentDecoder

end SignatureCatalog.Der.ObjectIdentifier
