import SignatureCatalog.Der.Consumption
import SignatureCatalog.KeyInfo.Algorithm

/-!
# Public key infos

A public key info names an algorithm and carries the key as a bit string.

```text
SubjectPublicKeyInfo ::= SEQUENCE {
    algorithm         AlgorithmIdentifier,
    subjectPublicKey  BIT STRING }
```

The octets of the bit string, the payload, can be read in two ways, and nothing in the encoding says
which one applies. *Flat*: the payload is one complete DER value. *Nested*: the payload is another
complete public key info, which is how one scheme wraps the key format of another. A payload is
therefore only ever read with an `Interpretation`.

A nested key info is strictly smaller than the one it comes from
(`length_octets_lt_of_decodeNested`), so unwrapping ends; `nesting` is the whole chain.
-/

namespace SignatureCatalog

open Der

/-- A public key with the algorithm it belongs to. -/
structure SubjectPublicKeyInfo where
  algorithm : AlgorithmIdentifier
  subjectPublicKey : BitString
  deriving DecidableEq

/-- How to read a payload. -/
inductive Interpretation where
  /-- The payload is a single DER value. -/
  | flat
  /-- The payload is a complete public key info. -/
  | nested
  deriving DecidableEq, Repr

/-- The interpretation in a word. -/
def Interpretation.text : Interpretation → String
  | .flat => "flat"
  | .nested => "nested"

/-- A payload that has been read. -/
inductive PublicKeyPayload where
  | flat (value : Value)
  | nested (inner : SubjectPublicKeyInfo)
  deriving DecidableEq

/-- The interpretation a payload was read in. -/
def PublicKeyPayload.interpretation : PublicKeyPayload → Interpretation
  | .flat _ => .flat
  | .nested _ => .nested

namespace SubjectPublicKeyInfo

/-- A key info with the given payload, which is not looked at. -/
def ofOctets (algorithm : AlgorithmIdentifier) (payload : Bytes) : SubjectPublicKeyInfo :=
  ⟨algorithm, .ofOctets payload⟩

/-- The object identifier of the algorithm. -/
def oid (k : SubjectPublicKeyInfo) : Oid :=
  k.algorithm.oid

/-- The content of the encoding: the algorithm, then the bit string. -/
def content (k : SubjectPublicKeyInfo) : Bytes :=
  k.algorithm.encode ++ k.subjectPublicKey.encode

/-- The octets of the encoding. -/
def encode (k : SubjectPublicKeyInfo) : Bytes :=
  encodeTyped .sequence k.content

/-- Reads a key info. -/
def decoder : Decoder SubjectPublicKeyInfo :=
  Decoder.typed .sequence fun n =>
    Decoder.within n do
      let algorithm ← Decoder.field AlgorithmIdentifier.decoder
      let subjectPublicKey ← Decoder.field BitString.decoder
      pure ⟨algorithm, subjectPublicKey⟩

/-- The key info a whole input stands for. -/
def ofDer (input : Bytes) : Except Der.Error SubjectPublicKeyInfo :=
  Decoder.decode decoder input

/-! ### Payloads -/

/-- A key info whose payload is one value. -/
def ofValue (algorithm : AlgorithmIdentifier) (v : Value) : SubjectPublicKeyInfo :=
  ofOctets algorithm v.encode

/-- A key info whose payload is another key info. -/
def wrap (algorithm : AlgorithmIdentifier) (inner : SubjectPublicKeyInfo) : SubjectPublicKeyInfo :=
  ofOctets algorithm inner.encode

/-- A key info with the given payload, which must be within the length limit. -/
def ofOctets? (algorithm : AlgorithmIdentifier) (payload : Bytes) :
    Except Der.Error SubjectPublicKeyInfo :=
  if payload.length ≤ maxLength then .ok (ofOctets algorithm payload)
  else .error ⟨.wrongLength .bitString, none⟩

/-- A key info whose payload is an encoding. What is too long is not encoded in the first place. -/
def ofEncoding? (algorithm : AlgorithmIdentifier) (encoding : Bytes) :
    Except Der.Error SubjectPublicKeyInfo :=
  if encoding.length ≤ maxLength then ofOctets? algorithm encoding else .error ⟨.overflow, none⟩

/-- A key info whose payload is one value, if the value is within the limit. -/
def ofValue? (algorithm : AlgorithmIdentifier) (v : Value) :
    Except Der.Error SubjectPublicKeyInfo :=
  ofEncoding? algorithm v.encode

/-- A key info whose payload is another key info, if that one is within the limit. -/
def wrap? (algorithm : AlgorithmIdentifier) (inner : SubjectPublicKeyInfo) :
    Except Der.Error SubjectPublicKeyInfo :=
  ofEncoding? algorithm inner.encode

/-- The payload, if the bit string is one of octets. -/
def keyOctets (k : SubjectPublicKeyInfo) : Except Der.Error Bytes :=
  k.subjectPublicKey.octets?

/-- Reads the payload as a single value. -/
def decodeFlat (k : SubjectPublicKeyInfo) : Except Der.Error Value :=
  k.keyOctets.bind Value.ofDer

/-- Reads the payload as another key info. -/
def decodeNested (k : SubjectPublicKeyInfo) : Except Der.Error SubjectPublicKeyInfo :=
  k.keyOctets.bind ofDer

/-- Reads the payload in one of the two ways. -/
def decodePayload (k : SubjectPublicKeyInfo) : Interpretation → Except Der.Error PublicKeyPayload
  | .flat => k.decodeFlat.map .flat
  | .nested => k.decodeNested.map .nested

/-- Whether a payload that reads as a single SEQUENCE is a complete key info at the same time, so
that reading it flat may be a mistake. -/
def isAmbiguous (k : SubjectPublicKeyInfo) : Bool :=
  match k.decodeFlat with
  | .ok v => v.tag = Tag.sequence ∧ k.decodeNested.isOk
  | .error _ => false

/-- What can be made of an encoding is what is made of its octets. -/
theorem ofEncoding?_eq_ok_iff {algorithm : AlgorithmIdentifier} {encoding : Bytes}
    {k : SubjectPublicKeyInfo} :
    ofEncoding? algorithm encoding = .ok k ↔
      encoding.length ≤ maxLength ∧ ofOctets algorithm encoding = k := by
  unfold ofEncoding? ofOctets?
  split <;> simp [*]

/-! ### Nesting -/

/-- Reading an algorithm does not make the window longer. -/
theorem consumes_algorithm : Decoder.Consumes AlgorithmIdentifier.decoder fun _ => 0 := by
  -- part by part: nothing that is read along the way puts octets back
  have oid : Decoder.Consumes ObjectIdentifier.decoder fun _ => 0 := by
    refine .mono (.typed (fun _ => 0) fun n => ?_) fun _ => by omega
    unfold ObjectIdentifier.contentDecoder
    split
    · exact .fail _ _
    · exact .bind (.take _) fun _ => .mono (.ofExcept _) fun _ => by omega
  have value : Decoder.Consumes Value.decoder fun _ => 0 :=
    .bind .header fun _ => .bind (.take _) fun _ => .mono (.pure _) fun _ => by omega
  have parameters : Decoder.Consumes Value.optionalDecoder fun _ => 0 := by
    refine .bind .peek fun next => ?_
    cases next with
    | none => exact .pure _
    | some octet => exact .bind (.ofExcept _) fun _ => .bind value fun _ => .pure _
  refine .mono (.typed (fun _ => 0) fun n => ?_) fun _ => by omega
  exact .within n (.bind (.field oid) fun _ => .bind (.field parameters) fun _ => .pure _)

/-- A key info is larger than its payload. -/
theorem consumes_decoder :
    Decoder.Consumes decoder fun k => 5 + k.subjectPublicKey.octets.length := by
  refine .mono (.typed (fun k : SubjectPublicKeyInfo =>
    3 + k.subjectPublicKey.octets.length) fun n => ?_) fun _ => by omega
  refine .within n (.bind (.field consumes_algorithm) fun algorithm => ?_)
  intro c k c' h
  obtain ⟨b, c₁, hb, hk⟩ := Decoder.bind_eq_ok_iff.1 h
  obtain ⟨rfl, rfl⟩ := Decoder.pure_eq_ok_iff.1 hk
  simpa using Decoder.Consumes.field .bitString c b c' hb

/-- What is nested is strictly smaller: its payload is shorter than the payload it was read from. -/
theorem length_octets_lt_of_decodeNested {k inner : SubjectPublicKeyInfo}
    (h : k.decodeNested = .ok inner) :
    inner.subjectPublicKey.octets.length < k.subjectPublicKey.octets.length := by
  unfold decodeNested keyOctets at h
  cases ho : k.subjectPublicKey.octets? with
  | error e => rw [ho] at h; cases h
  | ok octets =>
    rw [ho] at h
    -- The payload is the whole input of the decoder, and the decoder pays for what it returns.
    have smaller := consumes_decoder.le_of_decode (h : Decoder.decode decoder octets = .ok inner)
    rw [BitString.octets?_eq_ok_iff.1 ho]
    simp only [BitString.ofOctets]
    omega

/-- A key info and all that is nested in it, outermost first, with the error that ends the chain. -/
structure Nesting where
  outer : List SubjectPublicKeyInfo
  innermost : SubjectPublicKeyInfo
  obstacle : Der.Error

/-- Unwraps a key info as far as it goes. -/
def nesting (k : SubjectPublicKeyInfo) : Nesting :=
  match _h : k.decodeNested with
  | .error e => ⟨[], k, e⟩
  | .ok inner =>
    let rest := nesting inner
    { rest with outer := k :: rest.outer }
termination_by k.subjectPublicKey.octets.length
decreasing_by exact length_octets_lt_of_decodeNested _h

/-- The chain ends where nested reading fails. -/
theorem nesting_of_error {k : SubjectPublicKeyInfo} {e : Der.Error}
    (h : k.decodeNested = .error e) : k.nesting = ⟨[], k, e⟩ := by
  rw [nesting]
  split <;> simp_all

/-- One more key info in front for every level. -/
theorem nesting_of_ok {k inner : SubjectPublicKeyInfo} (h : k.decodeNested = .ok inner) :
    k.nesting = { inner.nesting with outer := k :: inner.nesting.outer } := by
  rw [nesting]
  split
  · simp_all
  · next inner' h' =>
    rw [h] at h'
    cases h'
    rfl

end SubjectPublicKeyInfo

end SignatureCatalog
