import SignatureCatalog.Proofs.KeyInfo.PrivateKeyCodec
import SignatureCatalog.Proofs.KeyInfo.PublicKeyCodec
import SignatureCatalog.Proofs.Oid.Decodable
import SignatureCatalog.Proofs.Registry.Lookup
import SignatureCatalog.Proofs.Registry.Payload
import SignatureCatalog.Registry.Routing
import SignatureCatalog.Sample.HashScheme

/-!
# From the wire to a record

An algorithm is registered under an identifier that was named in a text, and its keys arrive in key
infos that are read from octets. Where the identifier can be read at all, this closes the circle:
a key info that was made for the identifier, whatever its payload, is read back as it was, and the
operations on it come to the record (`arrives_over_wire`).

Where it cannot be read, the algorithm registers like any other, but no key info for it ever comes
off the wire. Which identifiers these are is the matter of `Oid.isDecodable_iff_of_parse`; the
shortest ones, of two octets, are among them (`two_octets_never_arrive`).
-/

namespace SignatureCatalog

open Der

variable {ω β : Type}

/-! ### Key infos -/

/-- Without attributes there is no other way to write a private key info. -/
theorem PrivateKeyInfo.ofDer_encode_ofOctets_iff {o : Oid} {payload : Bytes} {l : PrivateKeyInfo} :
    ofDer (ofOctets (.ofOid o) payload).encode = .ok l ↔
      (o.IsDecodable ∧ (ofOctets (.ofOid o) payload).encode.length ≤ maxLength) ∧
        l = ofOctets (.ofOid o) payload := by
  have hdecodable : (ofOctets (.ofOid o) payload).HasDecodableOids ↔ o.IsDecodable :=
    and_iff_left nofun
  rw [ofDer_encode_eq_ok_iff, IsEncodable, hdecodable]
  refine and_congr_right fun hvalid => ?_
  constructor
  · rintro ⟨-, hreorders⟩
    -- a reordering of no attributes is no attributes
    obtain ⟨version, algorithm, privateKey, attributes⟩ := l
    obtain rfl : attributes = none := hreorders.attributes_eq_none rfl
    obtain rfl := hreorders.version
    obtain rfl := hreorders.algorithm
    obtain rfl := hreorders.privateKey
    rfl
  · rintro rfl
    exact ⟨⟨⟨hdecodable.mpr hvalid.1, hvalid.2⟩, nofun⟩, .refl _⟩

/-- A failure in other words is no success. -/
theorem mapError_eq_ok_iff {ε ε' α : Type} {f : ε → ε'} {x : Except ε α} {a : α} :
    x.mapError f = .ok a ↔ x = .ok a := by
  cases x with
  | ok a' =>
    show (Except.ok a' : Except ε' α) = .ok a ↔ _
    rw [Except.ok.injEq, Except.ok.injEq]
  | error e => exact iff_of_false nofun nofun

namespace Registry

variable {r : Registry ω β} {record : Record ω β} {info : SubjectPublicKeyInfo}

/-! ### Operations on key infos -/

/-- **A public key info reaches a record.** The record's adapter makes a key from it, and its
payload is read as the record declares; where it cannot be read, that is not for want of a
record. -/
structure Reaches (r : Registry ω β) (record : Record ω β) (info : SubjectPublicKeyInfo) :
    Prop where
  readPublicKey : ∀ parameters, r.readPublicKey info parameters =
    record.adapter.attempt (.readPublicKey parameters)
      (record.adapter.readPublicKey info parameters)
  parsePublicKey : ∀ w payload, ((r.parsePublicKey info).run w).value = .ok payload ↔
    info.decodePayload record.publicKeyEncoding = .ok payload
  found : ∀ w e, ((r.parsePublicKey info).run w).value = .error e → e.isNotFound = false

/-- Reporting a failure as malformed makes no success of it, and does not say that nothing was
found. -/
theorem mapError_decode {α : Type} (x : Except Der.Error α) :
    (∀ a, x.mapError Error.decode = .ok a ↔ x = .ok a) ∧
      ∀ e, x.mapError Error.decode = .error e → e.isNotFound = false := by
  refine ⟨fun a => mapError_eq_ok_iff, fun e' h => ?_⟩
  cases x with
  | ok a => cases h
  | error e =>
    rw [← Except.error.inj h]
    rfl

/-- A payload is read as the record under its identifier declares. -/
theorem value_parsePublicKey (found : r.lookupOid info.oid = .ok record) (w : ω) :
    (∀ payload, ((r.parsePublicKey info).run w).value = .ok payload ↔
        info.decodePayload record.publicKeyEncoding = .ok payload) ∧
      ∀ e, ((r.parsePublicKey info).run w).value = .error e → e.isNotFound = false := by
  cases declared : record.publicKeyEncoding with
  | flat =>
    rw [run_parsePublicKey_of_flat found declared, Outcome.passedOn,
      SubjectPublicKeyInfo.run_parsePayload]
    exact mapError_decode (info.decodePayload .flat)
  | nested =>
    -- nested payloads are read in two stages: the octets, and the key info they should be
    by_cases aligned : info.subjectPublicKey.unused = 0
    · rw [run_parsePublicKey_of_aligned found declared aligned, SubjectPublicKeyInfo.decodePayload]
      cases info.decodeNested with
      | ok inner => exact mapError_decode (.ok (PublicKeyPayload.nested inner))
      | error e =>
        -- that it is no key info is reported as a mismatch
        refine ⟨fun payload => ⟨fun h => ?_, fun h => ?_⟩, fun e' h => ?_⟩
        · cases h
        · cases h
        · rw [← Except.error.inj h]
          rfl
    · rw [run_parsePublicKey_of_unused found declared aligned, SubjectPublicKeyInfo.decodePayload,
        (SubjectPublicKeyInfo.hasNoPayload_of_unused aligned).decodeNested]
      exact mapError_decode (.error SubjectPublicKeyInfo.unaligned)

/-- A public key info reaches the record under its identifier. -/
theorem reaches_of_lookupOid (found : r.lookupOid info.oid = .ok record) :
    r.Reaches record info := by
  refine ⟨fun parameters => ?_, fun w => (value_parsePublicKey found w).1,
    fun w => (value_parsePublicKey found w).2⟩
  rw [Registry.readPublicKey, found]

/-- So does a private key info. -/
theorem readPrivateKey_of_lookupOid {info : PrivateKeyInfo}
    (found : r.lookupOid info.oid = .ok record) :
    r.readPrivateKey info =
      record.adapter.attempt .readPrivateKey (record.adapter.readPrivateKey info) := by
  rw [Registry.readPrivateKey, found]

/-! ### The whole way -/

/-- **A payload arrives at a record.** Key infos that carry it for the record's identifier are read
back as they were written, unless they exceed the limit, and reach the record. -/
structure Arrives (r : Registry ω β) (record : Record ω β) (payload : Bytes) : Prop where
  publicKey : let info := SubjectPublicKeyInfo.ofOctets (.ofOid record.oid) payload
    info.encode.length ≤ maxLength →
      SubjectPublicKeyInfo.ofDer info.encode = .ok info ∧ r.Reaches record info
  privateKey : let info := PrivateKeyInfo.ofOctets (.ofOid record.oid) payload
    info.encode.length ≤ maxLength →
      PrivateKeyInfo.ofDer info.encode = .ok info ∧
        r.readPrivateKey info =
          record.adapter.attempt .readPrivateKey (record.adapter.readPrivateKey info)

/-- Where the identifier of a record can be read, every payload arrives. -/
theorem Reachable.arrives (h : r.Reachable) (hrecord : record ∈ r.records)
    (decodable : record.oid.IsDecodable) (payload : Bytes) : r.Arrives record payload := by
  have found : r.lookupOid record.oid = .ok record :=
    (h.exactLookup_oid.found_iff record.oid record).mpr ⟨hrecord, rfl⟩
  constructor
  · intro info hmax
    -- within the limit what is decodable is read back, and its identifier leads to the record
    have hread : SubjectPublicKeyInfo.ofDer info.encode = .ok info :=
      SubjectPublicKeyInfo.ofDer_encode_eq_ok_iff.mpr ⟨⟨decodable, hmax⟩, rfl⟩
    exact ⟨hread, reaches_of_lookupOid found⟩
  · intro info hmax
    have hread : PrivateKeyInfo.ofDer info.encode = .ok info :=
      PrivateKeyInfo.ofDer_encode_ofOctets_iff.mpr ⟨⟨decodable, hmax⟩, rfl⟩
    exact ⟨hread, readPrivateKey_of_lookupOid found⟩

/-- **From the wire to a record.** Take an identifier that can be named. It can be read exactly if
it has three octets or more and its arcs after the second fit. Then every payload arrives at the
record, in any registry that has one. Otherwise no key info for the identifier is ever read back. -/
theorem arrives_over_wire {text : String} {o : Oid} (named : Oid.parse text = .ok o) :
    (o.IsDecodable ↔
      3 ≤ o.content.length ∧ ∀ arc ∈ (Oid.arcsOfText text).drop 2, Oid.Fits arc) ∧
    (o.IsDecodable → ∀ (history : List (Change ω β × ω)), ∀ record ∈ (ofHistory history).records,
      record.oid = o → ∀ payload, (ofHistory history).Arrives record payload) ∧
    (¬o.IsDecodable → ∀ payload,
      (∀ info, SubjectPublicKeyInfo.ofDer
        (SubjectPublicKeyInfo.ofOctets (.ofOid o) payload).encode ≠ .ok info) ∧
      ∀ info, PrivateKeyInfo.ofDer (PrivateKeyInfo.ofOctets (.ofOid o) payload).encode ≠
        .ok info) := by
  refine ⟨Oid.isDecodable_iff_of_parse named, ?_, ?_⟩
  · intro decodable history record hrecord hoid
    rw [← hoid] at decodable
    exact (reachable_ofHistory history).arrives hrecord decodable
  · intro hrefused payload
    constructor
    -- what is read back has a decodable identifier, and it is the one that was written
    · intro info h
      exact hrefused (SubjectPublicKeyInfo.ofDer_encode_eq_ok_iff.mp h).1.1
    · intro info h
      exact hrefused (PrivateKeyInfo.ofDer_encode_ofOctets_iff.mp h).1.1

/-- Key infos for 1.2.3.4 arrive. -/
theorem four_arcs_arrive :
    let identity : Identity := ⟨"XYZ-SIG", ⟨[0x2a, 0x03, 0x04]⟩, ⟨0xfeb3⟩⟩
    let adapter : Adapter Unit Sample.KeyBody :=
      Sample.HashScheme.adapter id ⟨identity.oid, .flat⟩ "xyz"
    let r := ofHistory [(.register identity adapter, ())]
    let info := SubjectPublicKeyInfo.ofOctets (.ofOid identity.oid) [0x05, 0x00]
    Oid.parse "1.2.3.4" = .ok identity.oid ∧ identity.oid.IsDecodable ∧
      SubjectPublicKeyInfo.ofDer info.encode = .ok info ∧
      r.Reaches ⟨identity, adapter, .flat⟩ info := by
  intro identity adapter r info
  have named : Oid.parse "1.2.3.4" = .ok identity.oid := by decide +kernel
  obtain ⟨-, arrives, -⟩ := arrives_over_wire (ω := Unit) (β := Sample.KeyBody) named
  have decodable : identity.oid.IsDecodable := by decide
  have hpayload := arrives decodable [(.register identity adapter, ())]
    ⟨identity, adapter, .flat⟩ List.mem_cons_self rfl [0x05, 0x00]
  obtain ⟨hread, hreaches⟩ := hpayload.publicKey (by decide)
  exact ⟨named, decodable, hread, hreaches⟩

/-- **Identifiers of two octets never arrive.** An algorithm can be registered under 2.5.29, but a
key info for it is not read back, however small it is. -/
theorem two_octets_never_arrive :
    let identity : Identity := ⟨"XYZ-SIG", ⟨[0x55, 0x1d]⟩, ⟨0xfeb3⟩⟩
    let adapter : Adapter Unit Sample.KeyBody :=
      Sample.HashScheme.adapter id ⟨identity.oid, .flat⟩ "xyz"
    let r := ofHistory [(.register identity adapter, ())]
    let info := SubjectPublicKeyInfo.ofOctets (.ofOid identity.oid) [0x05, 0x00]
    Oid.parse "2.5.29" = .ok identity.oid ∧
      r.lookupOid identity.oid = .ok ⟨identity, adapter, .flat⟩ ∧
      info.encode.length ≤ maxLength ∧
      ∀ read, SubjectPublicKeyInfo.ofDer info.encode ≠ .ok read := by
  intro identity adapter r info
  refine ⟨by decide +kernel, rfl, by decide, fun read h => ?_⟩
  obtain ⟨⟨hdecodable, -⟩, -⟩ := SubjectPublicKeyInfo.ofDer_encode_eq_ok_iff.mp h
  exact absurd hdecodable (by decide)

end Registry

end SignatureCatalog
