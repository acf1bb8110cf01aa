import SignatureCatalog.Der.Decoder

/-!
# Values

A DER value is a tag and content octets; between them the encoding states the length. Values of any
type are kept in this form where their meaning is somebody else's business: algorithm parameters,
attribute values and key payloads. `Value.compareDer` is the order of such values in a set, which
looks at the identifier octet, then the length, then the content, as the encodings themselves do.
-/

namespace SignatureCatalog.Der

/-- A value of any type. -/
structure Value where
  tag : Tag
  content : Bytes
  deriving DecidableEq

/-- Identifier octet, length, content. -/
def encodeTyped (tag : Tag) (content : Bytes) : Bytes :=
  tag.octet :: (encodeLength content.length ++ content)

namespace Value

/-- The octets of a value. -/
def encode (v : Value) : Bytes :=
  encodeTyped v.tag v.content

/-- Reads a value of any type. -/
def decoder : Decoder Value := do
  let (tag, n) ← Decoder.header
  let content ← Decoder.take n
  pure ⟨tag, content⟩

/-- Reads a value of any type that may be left out at the end of a window. The identifier octet is
checked before it is read. -/
def optionalDecoder : Decoder (Option Value) := do
  match ← Decoder.peek with
  | none => pure none
  | some octet =>
    let _ ← Decoder.ofExcept (Tag.ofOctet octet)
    let v ← decoder
    pure (some v)

/-- The value a whole input stands for. -/
def ofDer (input : Bytes) : Except Error Value :=
  Decoder.decode decoder input

/-- The order of values in a set. -/
def compareDer (a b : Value) : Ordering :=
  (compare a.tag.octet b.tag.octet).then (a.content.shortlex b.content)

/-- The content of an OCTET STRING; another type is refused without saying what was wanted. -/
def octetString? (v : Value) : Except Error Bytes :=
  if v.tag = Tag.octetString then .ok v.content
  else .error ⟨.unexpectedTag none v.tag, none⟩

end Value

/-- The octets of an OCTET STRING, which must be within the length limit. -/
def OctetString.make (octets : Bytes) : Except Error Bytes :=
  if octets.length ≤ maxLength then .ok octets else .error ⟨.wrongLength .octetString, none⟩

/-- An OCTET STRING has the octets it is made of. -/
theorem OctetString.make_eq_ok_iff {octets made : Bytes} :
    make octets = .ok made ↔ octets.length ≤ maxLength ∧ octets = made := by
  unfold make
  split
  · next h => rw [Except.ok.injEq, and_iff_right h]
  · next h => exact iff_of_false nofun fun hle => h hle.1

/-- An encoding starts with the identifier octet. -/
@[simp] theorem head?_encodeTyped (tag : Tag) (content : Bytes) :
    (encodeTyped tag content).head? = some tag.octet := rfl

end SignatureCatalog.Der
