import SignatureCatalog.Proofs.KeyInfo.Payload
import SignatureCatalog.Proofs.Registry.Identifiers
import SignatureCatalog.Registry.Routing
import SignatureCatalog.Sample.HashScheme

/-!
# What reading a payload through the registry comes to

The registry reads the payload of a public key info as the algorithm declares. What a caller is told
is one of five things (`Registry.Parses`): that the algorithm is not registered; what a flat reading
comes to, if flat is declared; and if nested is declared, that the bit string has no payload, that
the payload is not a key info, or the key info that it is. The relation speaks of the records, the
declaration and the octets alone, not of the indexes or the order in which things are tried.

Exactly one of the five holds, and it is what the registry answers (`Reachable.parses_iff`). For a
nested payload this takes some care, since it is parsed twice: once to find out whether it is a key
info, and then to read it. Both parsings are of the same octets, so what passes the first is read by
the second, and no fault of the payload is reported as a malformed key info.
-/

namespace SignatureCatalog

variable {ω β : Type}

/-- A reading on its own, as the catalog passes it on: a failure is a malformed key info, and what
was logged stays logged. -/
def Outcome.passedOn {α : Type} (read : Outcome Event ω (Except Der.Error α)) :
    Outcome Mark ω (Except Error α) :=
  ⟨read.value.mapError .decode, read.world, read.marks.map .event⟩

namespace Registry

variable {r : Registry ω β} {record : Record ω β} {k inner : SubjectPublicKeyInfo} {w : ω}

/-! ### The five answers -/

/-- **What reading the payload of a key info comes to**, by what is registered and what the payload
is. -/
inductive Parses (r : Registry ω β) (k : SubjectPublicKeyInfo) (w : ω) :
    Outcome Mark ω (Except Error PublicKeyPayload) → Prop where
  /-- No record has the identifier. -/
  | unregistered (missing : ∀ record ∈ r.records, record.oid ≠ k.oid) :
    Parses r k w ⟨.error (.notFound (.oid k.oid)), w, []⟩
  /-- The payload is declared to be flat, and read so, with the warning if there is one. -/
  | flat {record : Record ω β} (hrecord : record ∈ r.records) (hoid : record.oid = k.oid)
    (declared : record.publicKeyEncoding = .flat) :
    Parses r k w ((k.parsePayload .flat).run w).passedOn
  /-- The payload is declared to be nested, but there is none. -/
  | unaligned {record : Record ω β} (hrecord : record ∈ r.records) (hoid : record.oid = k.oid)
    (declared : record.publicKeyEncoding = .nested) (unused : k.subjectPublicKey.unused ≠ 0) :
    Parses r k w ⟨.error (.decode SubjectPublicKeyInfo.unaligned), w, []⟩
  /-- The payload is declared to be nested, but its octets are not those of a key info. -/
  | mismatch {record : Record ω β} (hrecord : record ∈ r.records) (hoid : record.oid = k.oid)
    (declared : record.publicKeyEncoding = .nested) (aligned : k.subjectPublicKey.unused = 0)
    (incomplete : ∀ inner : SubjectPublicKeyInfo, inner.IsEncodable →
      inner.encode ≠ k.subjectPublicKey.octets) :
    Parses r k w ⟨.error (.interpretationMismatch k.oid .nested), w, []⟩
  /-- The payload is declared to be nested, and is a key info. -/
  | nested {record : Record ω β} (hrecord : record ∈ r.records) (hoid : record.oid = k.oid)
    (declared : record.publicKeyEncoding = .nested) {inner : SubjectPublicKeyInfo}
    (read : k.decodeNested = .ok inner) :
    Parses r k w ⟨.ok (.nested inner), w, []⟩

/-- No adapter is asked, whatever the answer is. -/
theorem Parses.adapterCalls_eq_nil {outcome : Outcome Mark ω (Except Error PublicKeyPayload)}
    (h : r.Parses k w outcome) : adapterCalls outcome.marks = [] := by
  cases h with
  | flat => exact adapterCalls_map_event _
  | unregistered => rfl
  | unaligned => rfl
  | mismatch => rfl
  | nested => rfl

/-! ### Reading as declared -/

theorem run_parsePublicKey_of_flat (found : r.lookupOid k.oid = .ok record)
    (declared : record.publicKeyEncoding = .flat) (w : ω) :
    (r.parsePublicKey k).run w = ((k.parsePayload .flat).run w).passedOn := by
  unfold parsePublicKey
  rw [found]
  dsimp only
  rw [declared]
  dsimp only
  -- the reading is done as it stands, and only its marks and its error are passed on in other words
  rw [Act.run_bind, Act.run_relabel]
  dsimp only
  rw [Act.run_pure, List.append_nil, Outcome.passedOn]

/-- A bit string with unused bits is refused before its octets are looked at. -/
theorem run_parsePublicKey_of_unused (found : r.lookupOid k.oid = .ok record)
    (declared : record.publicKeyEncoding = .nested) (unused : k.subjectPublicKey.unused ≠ 0)
    (w : ω) :
    (r.parsePublicKey k).run w = ⟨.error (.decode SubjectPublicKeyInfo.unaligned), w, []⟩ := by
  unfold parsePublicKey
  rw [found]
  dsimp only
  rw [declared, SubjectPublicKeyInfo.keyOctets_of_unused unused]
  rfl

/-- **Two parsings agree.** What is found to be a key info is then read as one, so the answer is the
key info or the mismatch, and nothing else. -/
theorem run_parsePublicKey_of_aligned (found : r.lookupOid k.oid = .ok record)
    (declared : record.publicKeyEncoding = .nested) (aligned : k.subjectPublicKey.unused = 0)
    (w : ω) :
    (r.parsePublicKey k).run w =
      ⟨match k.decodeNested with
        | .ok inner => .ok (.nested inner)
        | .error _ => .error (.interpretationMismatch k.oid .nested), w, []⟩ := by
  unfold parsePublicKey
  rw [found]
  dsimp only
  rw [declared, SubjectPublicKeyInfo.keyOctets_of_aligned aligned]
  dsimp only
  -- the first parsing is the nested reading itself
  rw [← SubjectPublicKeyInfo.decodeNested_of_aligned aligned]
  cases hnested : k.decodeNested with
  | error e => rfl
  | ok inner =>
    have hread : k.decodePayload .nested = .ok (.nested inner) := by
      rw [SubjectPublicKeyInfo.decodePayload, hnested]
      rfl
    -- so the second one succeeds too, and a nested reading leaves no warning
    change Act.run (if true = true then _ else _) w = _
    rw [if_pos rfl, Act.run_bind, Act.run_relabel, SubjectPublicKeyInfo.run_parsePayload]
    dsimp only
    rw [hread]
    rfl

/-! ### The classification -/

/-- Every answer is the one that the registry gives. -/
theorem Reachable.run_of_parses (h : r.Reachable)
    {outcome : Outcome Mark ω (Except Error PublicKeyPayload)} (hparses : r.Parses k w outcome) :
    (r.parsePublicKey k).run w = outcome := by
  have found {record : Record ω β} (hrecord : record ∈ r.records) (hoid : record.oid = k.oid) :
      r.lookupOid k.oid = .ok record :=
    (h.exactLookup_oid.found_iff k.oid record).mpr ⟨hrecord, hoid⟩
  cases hparses with
  | unregistered missing =>
    have hmissed := (h.exactLookup_oid.notFound_iff k.oid _).mpr ⟨rfl, missing⟩
    rw [parsePublicKey, hmissed]
    rfl
  | flat hrecord hoid declared =>
    exact run_parsePublicKey_of_flat (found hrecord hoid) declared w
  | unaligned hrecord hoid declared unused =>
    exact run_parsePublicKey_of_unused (found hrecord hoid) declared unused w
  | mismatch hrecord hoid declared aligned incomplete =>
    rw [run_parsePublicKey_of_aligned (found hrecord hoid) declared aligned]
    cases hnested : k.decodeNested with
    | error e => rfl
    | ok inner =>
      -- what is read is encodable, and has the payload for its encoding
      rw [SubjectPublicKeyInfo.decodeNested_of_aligned aligned] at hnested
      obtain ⟨hvalid, hencode⟩ := SubjectPublicKeyInfo.bijection.read_eq_ok_iff.mp hnested
      exact absurd hencode (incomplete inner hvalid)
  | nested hrecord hoid declared hread =>
    -- what has been read as nested had whole octets, or it would not have been read
    have hoctets := SubjectPublicKeyInfo.keyOctets_of_ofEncoding?
      (SubjectPublicKeyInfo.decodeNested_eq_ok_iff.mp hread).2
    have aligned := SubjectPublicKeyInfo.unused_eq_zero_of_keyOctets hoctets
    rw [run_parsePublicKey_of_aligned (found hrecord hoid) declared aligned, hread]

/-- For every key info there is an answer. -/
theorem exists_parses (r : Registry ω β) (k : SubjectPublicKeyInfo) (w : ω) :
    ∃ outcome, r.Parses k w outcome := by
  by_cases hregistered : ∃ record ∈ r.records, record.oid = k.oid
  · obtain ⟨record, hrecord, hoid⟩ := hregistered
    cases declared : record.publicKeyEncoding with
    | flat => exact ⟨_, .flat hrecord hoid declared⟩
    | nested =>
      by_cases aligned : k.subjectPublicKey.unused = 0
      · cases hnested : k.decodeNested with
        | ok inner => exact ⟨_, .nested hrecord hoid declared hnested⟩
        | error e =>
          refine ⟨_, .mismatch hrecord hoid declared aligned fun inner hvalid hencode => ?_⟩
          -- a key info with these octets would have been read
          rw [SubjectPublicKeyInfo.decodeNested_of_aligned aligned, ← hencode,
            SubjectPublicKeyInfo.bijection.decode_encode inner hvalid] at hnested
          cases hnested
      · exact ⟨_, .unaligned hrecord hoid declared aligned⟩
  · exact ⟨_, .unregistered fun record hrecord hoid => hregistered ⟨record, hrecord, hoid⟩⟩

/-- **The registry gives the one answer that there is.** -/
theorem Reachable.parses_iff (h : r.Reachable)
    {outcome : Outcome Mark ω (Except Error PublicKeyPayload)} :
    (r.parsePublicKey k).run w = outcome ↔ r.Parses k w outcome := by
  constructor
  · rintro rfl
    obtain ⟨outcome, hparses⟩ := r.exists_parses k w
    rw [h.run_of_parses hparses]
    exact hparses
  · exact h.run_of_parses

/-- A payload that is declared to be nested is never reported as malformed, if there is one. -/
theorem Reachable.ne_decode_of_aligned (h : r.Reachable) (hrecord : record ∈ r.records)
    (hoid : record.oid = k.oid) (declared : record.publicKeyEncoding = .nested)
    (aligned : k.subjectPublicKey.unused = 0) (w : ω) (e : Der.Error) :
    ((r.parsePublicKey k).run w).value ≠ .error (.decode e) := by
  have found := (h.exactLookup_oid.found_iff k.oid record).mpr ⟨hrecord, hoid⟩
  rw [run_parsePublicKey_of_aligned found declared aligned]
  -- a key info or a mismatch, and neither is an error of decoding
  cases k.decodeNested with
  | ok inner => exact nofun
  | error e' => exact nofun

/-- **The payload of a public key info is read in one of five ways**, in every registry and for all
octets: it is not looked at where the algorithm is not registered; where a flat payload is declared,
the answer is that of a flat reading, warning included; and where a nested one is declared, it is a
malformed key info if bits are unused, a mismatch if the octets are not a complete key info, and
else that key info. A nested payload of whole octets is never malformed, and no adapter is asked. -/
theorem parsePublicKey_classified (history : List (Change ω β × ω)) (k : SubjectPublicKeyInfo)
    (w : ω) :
    let r := ofHistory history
    (∀ outcome, (r.parsePublicKey k).run w = outcome ↔ r.Parses k w outcome) ∧
      adapterCalls ((r.parsePublicKey k).run w).marks = [] ∧
      ∀ record ∈ r.records, record.oid = k.oid → record.publicKeyEncoding = .nested →
        k.subjectPublicKey.unused = 0 →
        ∀ e, ((r.parsePublicKey k).run w).value ≠ .error (.decode e) := by
  intro r
  have h : r.Reachable := reachable_ofHistory history
  refine ⟨fun outcome => h.parses_iff, ?_, fun record hrecord hoid declared aligned => ?_⟩
  · exact (h.parses_iff.mp rfl).adapterCalls_eq_nil
  · exact h.ne_decode_of_aligned hrecord hoid declared aligned w

/-- With a nested payload declared for 1.2.3.4, a NULL is a mismatch and not malformed, though no
key info begins with its tag. -/
theorem parsePublicKey_classified_mismatch :
    let identity : Identity := ⟨"XYZ-SIG", ⟨[0x2a, 0x03, 0x04]⟩, ⟨0xfeb3⟩⟩
    let adapter : Adapter Unit Sample.KeyBody :=
      Sample.HashScheme.adapter id ⟨identity.oid, .nested⟩ "xyz"
    let r := ofHistory [(.register identity adapter, ())]
    let k := SubjectPublicKeyInfo.ofOctets (.ofOid identity.oid) [0x05, 0x00]
    (r.parsePublicKey k).run () =
        ⟨.error (.interpretationMismatch identity.oid .nested), (), []⟩ ∧
      ∀ e, ((r.parsePublicKey k).run ()).value ≠ .error (.decode e) := by
  intro identity adapter r k
  obtain ⟨classified, -, aligned⟩ :=
    parsePublicKey_classified [(.register identity adapter, ())] k ()
  have hrecord : ⟨identity, adapter, .nested⟩ ∈ r.records := List.mem_cons_self
  refine ⟨?_, aligned _ hrecord rfl rfl rfl⟩
  refine (classified _).mpr (.mismatch hrecord rfl rfl rfl fun inner _ hencode => ?_)
  -- the octets of a key info begin with the tag of a SEQUENCE
  have hhead := congrArg List.head? hencode
  rw [SubjectPublicKeyInfo.encode, Der.head?_encodeTyped] at hhead
  exact absurd hhead (by decide)

end Registry

end SignatureCatalog
