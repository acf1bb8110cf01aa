import SignatureCatalog.KeyInfo.Payload
import SignatureCatalog.Proofs.KeyInfo.PublicKeyCodec

/-!
# Payloads are read as they were written

A payload can be read in two ways, and for each of them there is a writer. Reading and writing are
converse to each other: a value is read from the payload of a key info exactly if putting the value
into a key info for the same algorithm makes that very key info (`decodeFlat_eq_ok_iff`), and
likewise for a nested key info whose object identifier can be read (`decodeNested_eq_ok_iff`). Both
are instances of one statement about payloads and the bijections between values and their encodings
(`bind_keyOctets_eq_ok_iff`), and `payload_codec_exact` is what they come to.

The two readings are not apart. A key info is a SEQUENCE, so a payload that can be read nested can
be read flat as well (`decodeFlat_of_decodeNested`), and then nothing in the payload tells which
reading was meant. The warning that a flat reading leaves stands for exactly this:
`isAmbiguous_iff` says that the tag it looks at adds nothing to the second reading, and
`warns_exactly_if_nested` what follows for the log.
-/

namespace SignatureCatalog.SubjectPublicKeyInfo

open Der

variable {α : Type} {a : AlgorithmIdentifier} {k inner : SubjectPublicKeyInfo} {v : Value}
  {payload : Bytes}

/-! ### The octets of a payload -/

/-- What is wrong with the payload of a key info whose bit string has unused bits. The catalog
reports it as `Error.decode`. -/
def unaligned : Der.Error :=
  ⟨.malformedValue .bitString, none⟩

theorem keyOctets_of_aligned (aligned : k.subjectPublicKey.unused = 0) :
    k.keyOctets = .ok k.subjectPublicKey.octets := by
  rw [keyOctets, BitString.octets?, if_pos aligned]

theorem keyOctets_of_unused (unused : k.subjectPublicKey.unused ≠ 0) :
    k.keyOctets = .error unaligned := by
  rw [keyOctets, BitString.octets?, if_neg unused, unaligned]

/-- A key info has a payload exactly if it is the one that is made with this payload. -/
theorem keyOctets_eq_ok_iff : k.keyOctets = .ok payload ↔ ofOctets k.algorithm payload = k := by
  rw [keyOctets, BitString.octets?_eq_ok_iff]
  obtain ⟨algorithm, bits⟩ := k
  rw [ofOctets, mk.injEq, eq_self_iff_true, true_and, eq_comm]

theorem unused_eq_zero_of_keyOctets (h : k.keyOctets = .ok payload) :
    k.subjectPublicKey.unused = 0 := by
  by_contra unused
  rw [keyOctets_of_unused unused] at h
  cases h

/-! ### Reading against writing -/

/-- **A payload is read as it was written**, whatever it is read as: where encodings within the
limit stand for values, the value that is read from a key info is the one whose encoding makes the
key info up. -/
theorem bind_keyOctets_eq_ok_iff {valid : α → Prop} {encode : α → Bytes}
    {read : Bytes → Except Der.Error α} (codec : Decoder.Bijection valid encode read) {a : α}
    (limited : valid a → (encode a).length ≤ maxLength) :
    k.keyOctets.bind read = .ok a ↔ valid a ∧ ofEncoding? k.algorithm (encode a) = .ok k := by
  rw [ofEncoding?_eq_ok_iff, ← keyOctets_eq_ok_iff]
  cases hoctets : k.keyOctets with
  | error e =>
    -- nothing is read where there is no payload, and nothing that is written looks like that
    refine iff_of_false nofun ?_
    rintro ⟨-, -, h⟩
    cases h
  | ok payload =>
    change read payload = .ok a ↔ _
    -- reading the payload is undone by writing, and the octets written are the payload
    rw [codec.read_eq_ok_iff, Except.ok.injEq]
    constructor
    -- only what is written is held against the limit, but what is read is within it
    · rintro ⟨ha, rfl⟩
      exact ⟨ha, limited ha, rfl⟩
    · rintro ⟨ha, -, rfl⟩
      exact ⟨ha, rfl⟩

/-- Reading flat and writing a value are converse to each other. -/
theorem decodeFlat_eq_ok_iff : k.decodeFlat = .ok v ↔ ofValue? k.algorithm v = .ok k := by
  rw [decodeFlat, bind_keyOctets_eq_ok_iff Value.bijection id]
  -- a key info is only made from a value within the limit
  exact and_iff_right_of_imp fun h => (ofEncoding?_eq_ok_iff.mp h).1

/-- Reading nested and wrapping are converse to each other, for key infos whose object identifier
can be read. -/
theorem decodeNested_eq_ok_iff :
    k.decodeNested = .ok inner ↔ inner.oid.IsDecodable ∧ wrap? k.algorithm inner = .ok k := by
  rw [decodeNested, bind_keyOctets_eq_ok_iff bijection And.right, IsEncodable, and_assoc]
  exact and_congr_right fun _ => and_iff_right_of_imp fun h => (ofEncoding?_eq_ok_iff.mp h).1

/-- The payload of a key info that is made from octets is these octets. -/
theorem keyOctets_of_ofEncoding? (h : ofEncoding? k.algorithm payload = .ok k) :
    k.keyOctets = .ok payload :=
  keyOctets_eq_ok_iff.mpr (ofEncoding?_eq_ok_iff.mp h).2

/-- What has been put into a key info is read from it, whatever algorithm it was made for. -/
theorem decodeFlat_ofValue (hmax : v.encode.length ≤ maxLength) :
    (ofValue a v).decodeFlat = .ok v :=
  decodeFlat_eq_ok_iff.mpr (ofEncoding?_eq_ok_iff.mpr ⟨hmax, rfl⟩)

theorem decodeNested_wrap (hinner : inner.IsEncodable) : (wrap a inner).decodeNested = .ok inner :=
  decodeNested_eq_ok_iff.mpr ⟨hinner.1, ofEncoding?_eq_ok_iff.mpr ⟨hinner.2, rfl⟩⟩

theorem isEncodable_of_decodeNested (h : k.decodeNested = .ok inner) : inner.IsEncodable := by
  obtain ⟨hoid, hwrap⟩ := decodeNested_eq_ok_iff.mp h
  exact ⟨hoid, (ofEncoding?_eq_ok_iff.mp hwrap).1⟩

/-- Where there is a payload, it is read nested as a key info on its own is read. -/
theorem decodeNested_of_aligned (aligned : k.subjectPublicKey.unused = 0) :
    k.decodeNested = ofDer k.subjectPublicKey.octets := by
  rw [decodeNested, keyOctets_of_aligned aligned]
  rfl

/-! ### Unused bits -/

/-- **A payload that cannot be had** in any way: its octets are refused, and so is either reading,
which leaves nothing in the log. -/
structure HasNoPayload (k : SubjectPublicKeyInfo) : Prop where
  keyOctets : k.keyOctets = .error unaligned
  decodeFlat : k.decodeFlat = .error unaligned
  decodeNested : k.decodeNested = .error unaligned
  parsePayload : ∀ {ω : Type} (reading : Interpretation) (w : ω),
    (k.parsePayload reading).run w = ⟨.error unaligned, w, []⟩

theorem hasNoPayload_of_unused (unused : k.subjectPublicKey.unused ≠ 0) : k.HasNoPayload := by
  have hoctets := keyOctets_of_unused unused
  have hflat : k.decodeFlat = .error unaligned := by
    rw [decodeFlat, hoctets]
    rfl
  have hnested : k.decodeNested = .error unaligned := by
    rw [decodeNested, hoctets]
    rfl
  refine ⟨hoctets, hflat, hnested, fun reading w => ?_⟩
  rw [run_parsePayload]
  cases reading with
  | flat =>
    -- there is no value whose tag could be looked at, so nothing to warn of
    rw [decodePayload, payloadWarnings, isAmbiguous, hflat]
    rfl
  | nested =>
    rw [decodePayload, payloadWarnings, hnested]
    rfl

/-! ### Both readings are exact -/

/-- **A payload is read exactly, in either interpretation.** A value that is put into a key info is
read from it again, and so is a key info that is wrapped, whatever the algorithm around it. Whatever
is read from a key info has the payload for its encoding, and putting it in again makes the same key
info. Where bits are unused, nothing is read at all. -/
theorem payload_codec_exact :
    (∀ (a : AlgorithmIdentifier) (v : Value), v.encode.length ≤ maxLength →
      (ofValue? a v).bind decodeFlat = .ok v) ∧
    (∀ (a : AlgorithmIdentifier) (s : SubjectPublicKeyInfo), s.IsEncodable →
      (wrap? a s).bind decodeNested = .ok s) ∧
    (∀ (k : SubjectPublicKeyInfo) (v : Value), k.decodeFlat = .ok v →
      k.subjectPublicKey.unused = 0 ∧ k.keyOctets = .ok v.encode ∧
        ofValue? k.algorithm v = .ok k) ∧
    (∀ k s : SubjectPublicKeyInfo, k.decodeNested = .ok s →
      k.subjectPublicKey.unused = 0 ∧ k.keyOctets = .ok s.encode ∧ wrap? k.algorithm s = .ok k) ∧
    ∀ k : SubjectPublicKeyInfo, k.subjectPublicKey.unused ≠ 0 → k.HasNoPayload := by
  refine ⟨fun a v hmax => ?_, fun a s hs => ?_, fun k v h => ?_, fun k s h => ?_,
    fun k => hasNoPayload_of_unused⟩
  · -- the key info is made at all because the value is within the limit
    have hwritten : ofValue? a v = .ok (ofValue a v) := ofEncoding?_eq_ok_iff.mpr ⟨hmax, rfl⟩
    rw [hwritten, Except.bind]
    exact decodeFlat_ofValue hmax
  · have hwritten : wrap? a s = .ok (wrap a s) := ofEncoding?_eq_ok_iff.mpr ⟨hs.2, rfl⟩
    rw [hwritten, Except.bind]
    exact decodeNested_wrap hs
  · have hwritten := decodeFlat_eq_ok_iff.mp h
    -- what has been read could have been written, and then the octets are those written
    have hoctets := keyOctets_of_ofEncoding? hwritten
    exact ⟨unused_eq_zero_of_keyOctets hoctets, hoctets, hwritten⟩
  · obtain ⟨-, hwritten⟩ := decodeNested_eq_ok_iff.mp h
    have hoctets := keyOctets_of_ofEncoding? hwritten
    exact ⟨unused_eq_zero_of_keyOctets hoctets, hoctets, hwritten⟩

/-- A key info for 1.2.3.4, wrapped in one for 1.2.3.5: it is read nested as what was wrapped, flat
as the SEQUENCE that this is, and not at all if three bits of it are unused. -/
theorem payload_codec_exact_wrapped :
    let a : AlgorithmIdentifier := .ofOid ⟨[0x2a, 0x03, 0x05]⟩
    let s := ofOctets (.ofOid ⟨[0x2a, 0x03, 0x04]⟩) [0x05, 0x00]
    let v : Value := ⟨.sequence, s.content⟩
    let k := wrap a s
    let bits : BitString := ⟨3, s.encode, nofun⟩
    k.decodeNested = .ok s ∧ k.decodeFlat = .ok v ∧ k.keyOctets = .ok s.encode ∧
      wrap? k.algorithm s = .ok k ∧ ofValue? k.algorithm v = .ok k ∧ HasNoPayload ⟨a, bits⟩ := by
  intro a s v k bits
  obtain ⟨readsFlat, readsNested, ofFlat, ofNested, unused⟩ := payload_codec_exact
  have hs : s.IsEncodable := by decide +kernel
  have hwritten : ofEncoding? a s.encode = .ok k := ofEncoding?_eq_ok_iff.mpr ⟨hs.2, rfl⟩
  have hnested : (ofEncoding? a s.encode).bind decodeNested = .ok s := readsNested a s hs
  have hflat : (ofEncoding? a s.encode).bind decodeFlat = .ok v := readsFlat a v hs.2
  rw [hwritten, Except.bind] at hnested hflat
  obtain ⟨-, hoctets, hwrap⟩ := ofNested k s hnested
  obtain ⟨-, -, hvalue⟩ := ofFlat k v hflat
  exact ⟨hnested, hflat, hoctets, hwrap, hvalue, unused ⟨a, bits⟩ (by decide)⟩

/-! ### One payload, two readings -/

/-- **What can be read nested can be read flat**, as a SEQUENCE with the same encoding. -/
theorem decodeFlat_of_decodeNested (h : k.decodeNested = .ok inner) :
    k.decodeFlat = .ok ⟨.sequence, inner.content⟩ :=
  -- the value and the key info are written in the same octets, so one key info is made of both
  decodeFlat_eq_ok_iff.mpr (decodeNested_eq_ok_iff.mp h).2

/-- A payload is ambiguous exactly if it can be read nested. -/
theorem isAmbiguous_iff : k.isAmbiguous = true ↔ ∃ inner, k.decodeNested = .ok inner := by
  cases hnested : k.decodeNested with
  | ok inner =>
    refine iff_of_true ?_ ⟨inner, rfl⟩
    rw [isAmbiguous, decodeFlat_of_decodeNested hnested, hnested]
    rfl
  | error e =>
    refine iff_of_false ?_ nofun
    -- whatever the flat reading comes to, its second condition does not hold
    rw [isAmbiguous, hnested]
    cases k.decodeFlat with
    | ok v => exact fun h => absurd (of_decide_eq_true h).2 Bool.false_ne_true
    | error e => exact Bool.false_ne_true

theorem payloadWarnings_flat_of_nested (h : k.decodeNested = .ok inner) :
    k.payloadWarnings .flat = [.flatReadOfNested k.oid] := by
  rw [payloadWarnings, isAmbiguous_iff.mpr ⟨inner, h⟩, if_pos rfl]

theorem payloadWarnings_flat_of_not_nested (h : ¬ ∃ inner, k.decodeNested = .ok inner) :
    k.payloadWarnings .flat = [] := by
  rw [payloadWarnings, if_neg (mt isAmbiguous_iff.mp h)]

/-- A payload is read in the interpretation asked for. -/
theorem interpretation_of_decodePayload {reading : Interpretation} {p : PublicKeyPayload}
    (h : k.decodePayload reading = .ok p) : p.interpretation = reading := by
  cases reading with
  | flat =>
    cases hflat : k.decodeFlat with
    | error e => rw [decodePayload, hflat] at h; cases h
    | ok v => rw [decodePayload, hflat] at h; cases h; rfl
  | nested =>
    cases hnested : k.decodeNested with
    | error e => rw [decodePayload, hnested] at h; cases h
    | ok inner => rw [decodePayload, hnested] at h; cases h; rfl

/-- **A flat reading warns exactly of what can be read nested**, and once. Where a payload can be
read nested, the flat reading succeeds with a SEQUENCE in the same octets, so no reading that fails
warns; a nested reading never does. Apart from the warning, a reading is what its decoder says, in
the interpretation asked for. -/
theorem warns_exactly_if_nested {ω : Type} (k : SubjectPublicKeyInfo) (w : ω) :
    let read (reading : Interpretation) := (k.parsePayload reading).run w
    (∀ s, k.decodeNested = .ok s →
      ∃ v, k.decodeFlat = .ok v ∧ v.tag = .sequence ∧ v.encode = s.encode) ∧
    ((∃ s, k.decodeNested = .ok s) → (read .flat).marks = [.flatReadOfNested k.oid]) ∧
    ((¬ ∃ s, k.decodeNested = .ok s) → (read .flat).marks = []) ∧
    (∀ e, (read .flat).value = .error e → (read .flat).marks = []) ∧
    (read .nested).marks = [] ∧
    (read .flat).value = k.decodeFlat.map .flat ∧
    (read .nested).value = k.decodeNested.map .nested ∧
    ∀ reading p, (read reading).value = .ok p → p.interpretation = reading := by
  intro read
  -- a reading asks nobody and changes nothing
  have hread (reading : Interpretation) :
      read reading = ⟨k.decodePayload reading, w, k.payloadWarnings reading⟩ :=
    run_parsePayload k reading w
  have hnone : (¬ ∃ s, k.decodeNested = .ok s) → (read .flat).marks = [] := by
    rw [hread]
    exact payloadWarnings_flat_of_not_nested
  refine ⟨fun s h => ⟨_, decodeFlat_of_decodeNested h, rfl, rfl⟩, ?_, hnone, fun e h => ?_, ?_,
    ?_, ?_, fun reading p h => ?_⟩
  · rintro ⟨s, h⟩
    rw [hread]
    exact payloadWarnings_flat_of_nested h
  · -- a flat reading that fails rules out the nested one
    refine hnone ?_
    rintro ⟨s, hs⟩
    rw [hread] at h
    change k.decodeFlat.map PublicKeyPayload.flat = .error e at h
    rw [decodeFlat_of_decodeNested hs] at h
    cases h
  · rw [hread]
    rfl
  · rw [hread]
    rfl
  · rw [hread]
    rfl
  · rw [hread] at h
    exact interpretation_of_decodePayload h

/-- A flat reading of a NULL that is wrapped in a key info for 1.2.3.4, in one for 1.2.3.5, warns; a
flat reading of the inner one does not. -/
theorem warns_exactly_if_nested_null :
    let s := ofOctets (.ofOid ⟨[0x2a, 0x03, 0x04]⟩) [0x05, 0x00]
    let k := wrap (.ofOid ⟨[0x2a, 0x03, 0x05]⟩) s
    ((k.parsePayload .flat).run ()).marks = [.flatReadOfNested ⟨[0x2a, 0x03, 0x05]⟩] ∧
      ((s.parsePayload .flat).run ()).marks = [] := by
  intro s k
  have hk : ∃ s, k.decodeNested = .ok s := ⟨s, decodeNested_wrap (by decide +kernel)⟩
  have hs : ¬ ∃ t, s.decodeNested = .ok t := by
    rintro ⟨t, ht⟩
    have hrefused : s.decodeNested.isOk = false := by decide +kernel
    rw [ht] at hrefused
    cases hrefused
  obtain ⟨-, warns, -⟩ := warns_exactly_if_nested k ()
  obtain ⟨-, -, silent, -⟩ := warns_exactly_if_nested s ()
  exact ⟨warns hk, silent hs⟩

end SignatureCatalog.SubjectPublicKeyInfo
