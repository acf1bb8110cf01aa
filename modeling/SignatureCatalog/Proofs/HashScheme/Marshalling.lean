import SignatureCatalog.Proofs.KeyInfo.Payload
import SignatureCatalog.Proofs.Registry.Commutation
import SignatureCatalog.Proofs.Registry.Contract
import SignatureCatalog.Proofs.Registry.Identifiers
import SignatureCatalog.Proofs.Registry.Wire

/-!
# Keys of the hash scheme survive marshalling

A key is written as a key info and read again. On the way it passes the search for its owner, the
adapter's writer, the codec if it is sent anywhere, the lookup by the identifier in the key info,
and the adapter's reader. That it arrives as the key it was is a matter of all five.

Of the adapters only the hash scheme is considered, in a registry that may hold any number of its
variants in either interpretation. A public key is an element of its own in the payload, an OCTET
STRING or a key info, and within the limit on lengths an element is read as what was written, even
if the octets of the key look like another element (`exists_decodePayload`). Beyond the limit
nothing is written in the first place (`publicKeyInfo?_eq_ok_iff`, `privateKeyInfo?_eq_ok_iff`). The
owner of a key is the record of the key's scheme, whether the key tells it or not
(`Reachable.run_owner_hashScheme`).
-/

namespace SignatureCatalog

open Der

variable {ω : Type}

namespace Sample.HashScheme

/-! ### Payloads -/

variable {s : HashScheme} {publicKey : Bytes}

/-- The octets that a key info carries for a public key. -/
def payload (s : HashScheme) (publicKey : Bytes) : Bytes :=
  match s.encoding with
  | .flat => Value.encode ⟨.octetString, publicKey⟩
  | .nested => (SubjectPublicKeyInfo.ofOctets (.ofOid innerOid) publicKey).encode

/-- **A public key is written if its payload is within the limit**, and not otherwise. -/
theorem publicKeyInfo?_eq_ok_iff {info : SubjectPublicKeyInfo} :
    s.publicKeyInfo? publicKey = .ok info ↔
      (s.payload publicKey).length ≤ maxLength ∧
        info = .ofOctets (.ofOid s.oid) (s.payload publicKey) := by
  obtain ⟨oid, encoding⟩ := s
  -- the key is looked at before the payload, which has its octets and more, so this changes nothing
  cases encoding with
  | flat =>
    have hle : publicKey.length ≤ (Value.encode ⟨.octetString, publicKey⟩).length :=
      length_le_encodeTyped
    unfold publicKeyInfo? payload
    dsimp only
    by_cases hmax : publicKey.length ≤ maxLength
    · rw [OctetString.make_eq_ok_iff.mpr ⟨hmax, rfl⟩]
      show (SubjectPublicKeyInfo.ofValue? (.ofOid oid) ⟨.octetString, publicKey⟩).mapError _ = _ ↔ _
      rw [mapError_eq_ok_iff, SubjectPublicKeyInfo.ofValue?,
        SubjectPublicKeyInfo.ofEncoding?_eq_ok_iff, eq_comm]
    · rw [OctetString.make, if_neg hmax]
      exact iff_of_false nofun fun h => hmax (Nat.le_trans hle h.1)
  | nested =>
    have hle := (SubjectPublicKeyInfo.ofOctets (.ofOid innerOid) publicKey).length_octets_le
    unfold publicKeyInfo? payload
    dsimp only
    rw [mapError_eq_ok_iff, SubjectPublicKeyInfo.ofOctets?]
    by_cases hmax : publicKey.length ≤ maxLength
    · rw [if_pos hmax, Except.bind, SubjectPublicKeyInfo.wrap?,
        SubjectPublicKeyInfo.ofEncoding?_eq_ok_iff, eq_comm]
    · rw [if_neg hmax]
      exact iff_of_false nofun fun h => hmax (Nat.le_trans hle h.1)

/-- The key info inside a nested payload can be read within the limit; its own payload is not looked
at. -/
theorem isEncodable_inner
    (hmax : (SubjectPublicKeyInfo.ofOctets (.ofOid innerOid) publicKey).encode.length ≤ maxLength) :
    (SubjectPublicKeyInfo.ofOctets (.ofOid innerOid) publicKey).IsEncodable := by
  have decodable : innerOid.IsDecodable := by decide
  exact ⟨decodable, hmax⟩

/-- **A payload within the limit is read** in the interpretation in which it was written, and the
public key is found in it. -/
theorem exists_decodePayload (hmax : (s.payload publicKey).length ≤ maxLength) :
    let info := SubjectPublicKeyInfo.ofOctets (.ofOid s.oid) (s.payload publicKey)
    ∃ read, info.decodePayload s.encoding = .ok read ∧
      read.interpretation = s.encoding ∧ parsedMaterial read = .ok publicKey := by
  obtain ⟨oid, encoding⟩ := s
  -- either interpretation is read by the decoder for what its writer has put in
  cases encoding with
  | flat =>
    refine ⟨.flat ⟨.octetString, publicKey⟩, ?_, rfl, rfl⟩
    exact congrArg (Except.map PublicKeyPayload.flat)
      (SubjectPublicKeyInfo.decodeFlat_ofValue hmax)
  | nested =>
    have hread := SubjectPublicKeyInfo.decodeNested_wrap (a := .ofOid oid) (isEncodable_inner hmax)
    refine ⟨.nested (.ofOctets (.ofOid innerOid) publicKey), ?_, rfl, rfl⟩
    show (SubjectPublicKeyInfo.wrap (.ofOid oid) _).decodePayload .nested = _
    rw [SubjectPublicKeyInfo.decodePayload, hread]
    rfl

/-! ### Keys -/

/-- **A key of the scheme**, public or private. It need not tell its algorithm, but tells no
other. -/
structure IsKey (k : Key KeyBody) (scheme : Oid) (material : Bytes) : Prop where
  body : k.body = .hash ⟨scheme, material⟩
  algorithm : ∀ oid, k.algorithm? = some oid → oid = scheme

variable {k half : Key KeyBody} {scheme : Oid} {material : Bytes} {hash : Bytes → Bytes}

theorem IsKey.tagged_eq (hk : IsKey k scheme material) :
    k.tagged scheme = key scheme k.isPrivate material := by
  rw [key, ← hk.body, Key.tagged]

/-- A key of the scheme has a public half, which is a key of the scheme again. -/
theorem IsKey.exists_publicHalf (hk : IsKey k scheme material) (hash : Bytes → Bytes) :
    ∃ half, publicHalf? hash k = some half ∧ half.isPrivate = false ∧
      IsKey half scheme (publicMaterial hash k.isPrivate material) := by
  rw [publicHalf?, hk.body]
  exact ⟨_, rfl, rfl, rfl, hk.algorithm⟩

theorem IsKey.body?_eq (hk : IsKey k s.oid material) : s.body? k = .ok ⟨s.oid, material⟩ := by
  rw [body?, hk.body]
  exact if_pos rfl

/-! ### The adapter -/

variable {label : String}

theorem IsKey.run_supports (hk : IsKey k s.oid material) (w : ω) :
    ((adapter hash s label : Adapter ω KeyBody).supports k).run w = ⟨true, w, []⟩ := by
  show (pure (s.body? k).isOk : Act _ _ _).run w = _
  rw [hk.body?_eq]
  rfl

/-- The adapter accepts the keys of its own variant and no other. -/
theorem IsKey.accepts_iff (hk : IsKey k scheme material) (w : ω) :
    (adapter hash s label : Adapter ω KeyBody).accepts k w = true ↔ s.oid = scheme := by
  constructor
  · intro haccepts
    have hbelongs := (keepsContract hash s label).own k w haccepts
    rw [hk.body, KeyBody.scheme?] at hbelongs
    exact (Option.some.inj hbelongs).symm
  · rintro rfl
    rw [Adapter.accepts, hk.run_supports]

theorem IsKey.run_writePublicKey (hk : IsKey k s.oid material) (w : ω) :
    ((adapter hash s label : Adapter ω KeyBody).writePublicKey k).run w =
      ⟨s.publicKeyInfo? (publicMaterial hash k.isPrivate material), w, []⟩ := by
  show (pure (do
    let body ← s.body? k
    s.publicKeyInfo? (publicMaterial hash k.isPrivate body.material)) : Act _ _ _).run w = _
  rw [hk.body?_eq]
  rfl

/-- The key info of a private key of the scheme. -/
def privateKeyInfo (s : HashScheme) (material : Bytes) (attributes : Option Attributes) :
    PrivateKeyInfo :=
  (PrivateKeyInfo.ofOctets (.ofOid s.oid) material).withAttributes attributes

/-- **A private key is written if it is within the limit**, and not otherwise. -/
theorem privateKeyInfo?_eq_ok_iff {attributes : Option Attributes} {info : PrivateKeyInfo} :
    s.privateKeyInfo? material attributes = .ok info ↔
      material.length ≤ maxLength ∧ info = s.privateKeyInfo material attributes := by
  unfold privateKeyInfo? PrivateKeyInfo.ofOctets? OctetString.make
  rw [mapError_eq_ok_iff]
  split
  · next hmax =>
    show Except.ok (s.privateKeyInfo material attributes) = .ok info ↔ _
    rw [Except.ok.injEq, and_iff_right hmax, eq_comm]
  · next hmax => exact iff_of_false nofun fun h => hmax h.1

theorem IsKey.run_writePrivateKey (hk : IsKey k s.oid material) (kind : k.isPrivate = true)
    (attributes : Option Attributes) (w : ω) :
    ((adapter hash s label : Adapter ω KeyBody).writePrivateKey k attributes).run w =
      ⟨s.privateKeyInfo? material attributes, w, []⟩ := by
  show (pure (do
    let body ← s.body? k
    if k.isPrivate then s.privateKeyInfo? body.material attributes
    else throw (Failure.ofMessage "Not a private key")) : Act _ _ _).run w = _
  rw [hk.body?_eq, kind]
  rfl

theorem run_readPrivateKey (attributes : Option Attributes) (w : ω) :
    ((adapter hash s label : Adapter ω KeyBody).readPrivateKey
        (s.privateKeyInfo material attributes)).run w = ⟨.ok (key s.oid true material), w, []⟩ := by
  have hoid : (s.privateKeyInfo material attributes).oid = s.oid := rfl
  show (pure (if _ then _ else _) : Act _ _ _).run w = _
  rw [if_pos hoid]
  rfl

/-- The public key is read from the key info that was written for it, whatever is passed along. -/
theorem value_run_readPublicKey (hmax : (s.payload publicKey).length ≤ maxLength)
    (parameters : Option DefaultParameters) (w : ω) :
    (((adapter hash s label : Adapter ω KeyBody).readPublicKey
        (.ofOctets (.ofOid s.oid) (s.payload publicKey)) parameters).run w).value =
      .ok (key s.oid false publicKey) := by
  obtain ⟨read, hread, -, hmaterial⟩ := exists_decodePayload hmax
  show ((if s.oid = s.oid then _ else _ : Act _ _ _).run w).value = _
  rw [if_pos rfl, Act.run_bind, SubjectPublicKeyInfo.run_parsePayload]
  dsimp only
  rw [hread]
  show (parsedMaterial read >>= fun material => return key s.oid false material) = _
  rw [hmaterial]
  rfl

end Sample.HashScheme

/-! ### The owner -/

namespace Registry

open Sample

variable {r : Registry ω KeyBody} {record : Record ω KeyBody} {k half : Key KeyBody} {scheme : Oid}
  {material : Bytes} {hash : Bytes → Bytes}

/-- **A key of the scheme is owned by the record of its scheme**, whether it tells the scheme or
not. -/
theorem Reachable.run_owner_hashScheme (h : r.Reachable)
    (schemes : ∀ record ∈ r.records, record.HoldsHashScheme hash) (hrecord : record ∈ r.records)
    (hk : HashScheme.IsKey k record.oid material) (w : ω) :
    ((r.owner k).run w).value = .ok record ∧ ((r.owner k).run w).world = w := by
  have accepts_iff : ∀ a ∈ r.records, (a.adapter.accepts k w = true ↔ a.oid = record.oid) := by
    intro a ha
    obtain ⟨encoding, label, hadapter⟩ := schemes a ha
    rw [hadapter]
    exact hk.accepts_iff w
  have pure : ∀ a ∈ r.records, ∀ w, ((a.adapter.supports k).run w).world = w := by
    intro a ha w
    obtain ⟨encoding, label, hadapter⟩ := schemes a ha
    rw [hadapter]
    rfl
  -- a key that tells its scheme has one candidate, any other goes through all records in order
  have hcandidates : r.candidates k = [record] ∨ r.candidates k = r.records := by
    cases tagged : k.algorithm? with
    | some oid =>
      obtain rfl := hk.algorithm oid tagged
      exact .inl ((h.hasCandidates k).tagged record.oid tagged record hrecord rfl)
    | none => exact .inr (candidates_of_untagged tagged)
  obtain ⟨hvalue, hworld⟩ := h.run_owner_of_pure (k := k) pure w
  have hfound : (r.candidates k).find? (fun a => a.adapter.accepts k w) = some record := by
    have haccepts : record.adapter.accepts k w = true := (accepts_iff record hrecord).mpr rfl
    rcases hcandidates with hone | hall
    · rw [hone, List.find?_cons, haccepts]
    · -- of all records, the one that accepts the key is the one with its object identifier
      have some_found : (r.records.find? fun a => a.adapter.accepts k w).isSome :=
        List.find?_isSome.mpr ⟨record, hrecord, haccepts⟩
      obtain ⟨found, hfound⟩ := Option.isSome_iff_exists.mp some_found
      have hmem : found ∈ r.records := List.mem_of_find?_eq_some hfound
      have hsome := List.find?_some hfound
      have bears : found.Bears (.oid record.oid) := (accepts_iff found hmem).mp hsome
      rw [hall, hfound, h.eq_of_bears hmem hrecord bears rfl]
  rw [hvalue, hfound]
  exact ⟨rfl, hworld⟩

/-- Only keys with a record of their scheme are supported. -/
theorem exists_record_of_supportsKey (schemes : ∀ record ∈ r.records, record.HoldsHashScheme hash)
    (hk : HashScheme.IsKey k scheme material) {w : ω}
    (supported : ((r.supportsKey k).run w).value = true) :
    ∃ record ∈ r.records, record.oid = scheme := by
  -- a key is supported if it has an owner, and the owner's adapter has accepted it
  have hsupported : ((r.owner k).run w).value.isOk = true := supported
  cases howner : ((r.owner k).run w).value with
  | error e =>
    rw [howner] at hsupported
    cases hsupported
  | ok record =>
    obtain ⟨hrecord, w', hasked⟩ := mem_of_owner howner
    have haccepts : record.adapter.accepts k w' = true := hasked
    obtain ⟨encoding, label, hadapter⟩ := schemes record hrecord
    rw [hadapter, hk.accepts_iff] at haccepts
    exact ⟨record, hrecord, haccepts⟩

/-- In a reachable registry the adapter of a record reads payloads as the record says. -/
theorem Reachable.exists_adapter_eq (h : r.Reachable) (hrecord : record ∈ r.records)
    (holds : record.HoldsHashScheme hash) : ∃ label,
      record.adapter = HashScheme.adapter hash ⟨record.oid, record.publicKeyEncoding⟩ label := by
  obtain ⟨encoding, label, hadapter⟩ := holds
  obtain ⟨w, declared⟩ := h.exists_declaredIn record hrecord
  -- the record was made by asking the adapter how its payloads are to be read
  rw [Record.DeclaredIn, hadapter] at declared
  have hencoding : encoding = record.publicKeyEncoding := declared
  rw [← hencoding]
  exact ⟨label, hadapter⟩

/-! ### Marshalling -/

/-- **The public half of a key arrives.** The key info that is written for the key has the record's
identifier and the given payload; there is none if the payload exceeds the limit on lengths. Within
the limit the public half is read from it, and its payload in the interpretation of the record; and
the key info may be sent as octets in between. -/
structure PublicHalfArrives (r : Registry ω KeyBody) (record : Record ω KeyBody)
    (k half : Key KeyBody) (payload : Bytes) : Prop where
  written_iff : ∀ w info, ((r.writePublicKey k).run w).value = .ok info ↔
    payload.length ≤ maxLength ∧ info = .ofOctets (.ofOid record.oid) payload
  read : payload.length ≤ maxLength → ∀ parameters w,
    ((r.readPublicKey (.ofOctets (.ofOid record.oid) payload) parameters).run w).value =
      .ok (half.tagged record.oid)
  parsed : payload.length ≤ maxLength → ∃ read,
    read.interpretation = record.publicKeyEncoding ∧
      ∀ w, ((r.parsePublicKey (.ofOctets (.ofOid record.oid) payload)).run w).value = .ok read
  sent : record.oid.IsDecodable →
    let info := SubjectPublicKeyInfo.ofOctets (.ofOid record.oid) payload
    info.encode.length ≤ maxLength →
      SubjectPublicKeyInfo.ofDer info.encode = .ok info ∧ payload.length ≤ maxLength

/-- **A private key arrives.** The key info that is written for it has the record's identifier and
the attributes as they were given; there is none if the key exceeds the limit on lengths. The key is
read from it. The key info may be sent as octets in between, if its sets are in order. -/
structure PrivateKeyArrives (r : Registry ω KeyBody) (record : Record ω KeyBody)
    (k : Key KeyBody) (attributes : Option Attributes) (info : PrivateKeyInfo) : Prop where
  oid_eq : info.oid = record.oid
  attributes_eq : info.attributes = attributes
  written_iff : ∀ w written, ((r.writePrivateKey k attributes).run w).value = .ok written ↔
    info.privateKey.length ≤ maxLength ∧ written = info
  read : ∀ w, ((r.readPrivateKey info).run w).value = .ok (k.tagged record.oid)
  sent : info.HasDecodableOids → info.IsDerOrdered → info.encode.length ≤ maxLength →
    PrivateKeyInfo.ofDer info.encode = .ok info

theorem Reachable.publicHalfArrives (h : r.Reachable)
    (schemes : ∀ record ∈ r.records, record.HoldsHashScheme hash) (hrecord : record ∈ r.records)
    (hk : HashScheme.IsKey k record.oid material)
    (hhalf : HashScheme.publicHalf? hash k = some half) :
    r.PublicHalfArrives record k half
      (HashScheme.payload ⟨record.oid, record.publicKeyEncoding⟩
        (HashScheme.publicMaterial hash k.isPrivate material)) := by
  obtain ⟨label, hadapter⟩ := h.exists_adapter_eq hrecord (schemes record hrecord)
  have leads : r.LeadsTo (.oid record.oid) record := h.leadsTo hrecord rfl
  have reaches (payload : Bytes) : r.Reaches record (.ofOctets (.ofOid record.oid) payload) :=
    have found : r.lookupOid (SubjectPublicKeyInfo.ofOctets (.ofOid record.oid) payload).oid =
      .ok record := leads.lookup
    reaches_of_lookupOid found
  obtain ⟨half', hhalf', kind, hkey⟩ := hk.exists_publicHalf hash
  obtain rfl : half' = half := Option.some.inj (hhalf'.symm.trans hhalf)
  constructor
  case written_iff =>
    intro w info
    -- the owner of the key is the record, so its adapter is the one that writes
    obtain ⟨howner, hworld⟩ := h.run_owner_hashScheme schemes hrecord hk w
    rw [Registry.writePublicKey, Act.run_andThen_of_ok howner, hworld, Adapter.run_attempt,
      hadapter, HashScheme.IsKey.run_writePublicKey hk]
    exact mapError_eq_ok_iff.trans HashScheme.publicKeyInfo?_eq_ok_iff
  case read =>
    intro hmax parameters w
    -- the key info names the record's identifier, so its adapter is the one that reads
    rw [(reaches _).readPublicKey, Adapter.run_attempt, hadapter, hkey.tagged_eq, kind]
    exact congrArg (Except.mapError Error.adapter)
      (HashScheme.value_run_readPublicKey hmax parameters w)
  case parsed =>
    intro hmax
    obtain ⟨read, hread, hinterpretation, -⟩ := HashScheme.exists_decodePayload hmax
    exact ⟨read, hinterpretation, fun w =>
      ((reaches _).parsePublicKey w read).mpr hread⟩
  case sent =>
    intro decodable info hmax
    -- the payload is part of the octets that are sent, so it is within the limit as well
    exact ⟨SubjectPublicKeyInfo.ofDer_encode_eq_ok_iff.mpr ⟨⟨decodable, hmax⟩, rfl⟩,
      Nat.le_trans info.length_octets_le hmax⟩

theorem Reachable.privateKeyArrives (h : r.Reachable)
    (schemes : ∀ record ∈ r.records, record.HoldsHashScheme hash) (hrecord : record ∈ r.records)
    (hk : HashScheme.IsKey k record.oid material) (kind : k.isPrivate = true)
    (attributes : Option Attributes) :
    r.PrivateKeyArrives record k attributes
      (HashScheme.privateKeyInfo ⟨record.oid, record.publicKeyEncoding⟩ material attributes) := by
  obtain ⟨label, hadapter⟩ := h.exists_adapter_eq hrecord (schemes record hrecord)
  have leads : r.LeadsTo (.oid record.oid) record := h.leadsTo hrecord rfl
  have found : r.lookupOid (HashScheme.privateKeyInfo
    ⟨record.oid, record.publicKeyEncoding⟩ material attributes).oid = .ok record := leads.lookup
  constructor
  case oid_eq => rfl
  case attributes_eq => rfl
  case written_iff =>
    intro w written
    obtain ⟨howner, hworld⟩ := h.run_owner_hashScheme schemes hrecord hk w
    rw [Registry.writePrivateKey, Act.run_andThen_of_ok howner, hworld, Adapter.run_attempt,
      hadapter, HashScheme.IsKey.run_writePrivateKey hk kind]
    exact mapError_eq_ok_iff.trans HashScheme.privateKeyInfo?_eq_ok_iff
  case read =>
    intro w
    rw [readPrivateKey_of_lookupOid found, Adapter.run_attempt, hadapter,
      HashScheme.run_readPrivateKey, hk.tagged_eq, kind]
    rfl
  case sent =>
    intro decodable ordered hmax
    -- of the reorderings of a key info with its sets in order, the valid one is itself
    exact PrivateKeyInfo.ofDer_encode_eq_ok_iff.mpr
      ⟨⟨decodable, hmax⟩, ⟨⟨decodable, hmax⟩, ordered⟩, .refl _⟩

/-- **Supported keys survive marshalling.** Take any registry of variants of the hash scheme, and
any key of the scheme that it supports. The key's scheme is registered, and by way of that record
the public half of the key arrives, and the key itself if it is private, with any attributes. -/
theorem supported_keys_survive (history : List (Change ω KeyBody × ω))
    (schemes : ∀ record ∈ (ofHistory history).records, record.HoldsHashScheme hash)
    (hk : HashScheme.IsKey k scheme material) {w : ω}
    (supported : (((ofHistory history).supportsKey k).run w).value = true) :
    ∃ record ∈ (ofHistory history).records, record.oid = scheme ∧
      (∃ half, HashScheme.publicHalf? hash k = some half ∧
        (ofHistory history).PublicHalfArrives record k half
          (HashScheme.payload ⟨record.oid, record.publicKeyEncoding⟩
            (HashScheme.publicMaterial hash k.isPrivate material))) ∧
      (k.isPrivate = true → ∀ attributes,
        (ofHistory history).PrivateKeyArrives record k attributes
          (HashScheme.privateKeyInfo ⟨record.oid, record.publicKeyEncoding⟩ material
            attributes)) := by
  have h : (ofHistory history).Reachable := reachable_ofHistory history
  obtain ⟨record, hrecord, rfl⟩ := exists_record_of_supportsKey schemes hk supported
  obtain ⟨half, hhalf, -, -⟩ := hk.exists_publicHalf hash
  exact ⟨record, hrecord, rfl, ⟨half, hhalf, h.publicHalfArrives schemes hrecord hk hhalf⟩,
    fun kind attributes => h.privateKeyArrives schemes hrecord hk kind attributes⟩

/-- A private key that does not tell its algorithm, with octets that are an element of their own, in
a registry of two variants. Key infos are written for it by the second variant, with and without
attributes, and what is read from them tells the algorithm. -/
theorem supported_keys_survive_untagged :
    let oid : Oid := ⟨[0x2a, 0x03, 0x04]⟩
    let oid' : Oid := ⟨[0x2a, 0x03, 0x05]⟩
    let adapter : Adapter Unit KeyBody := HashScheme.adapter id ⟨oid, .flat⟩ "a"
    let adapter' : Adapter Unit KeyBody := HashScheme.adapter id ⟨oid', .nested⟩ "b"
    let r := ofHistory [(.register ⟨"A", oid, ⟨1⟩⟩ adapter, ()),
      (.register ⟨"B", oid', ⟨2⟩⟩ adapter', ())]
    let k := (HashScheme.key oid' true [0x05, 0x00]).untagged
    let publicInfo := SubjectPublicKeyInfo.ofOctets (.ofOid oid')
      (HashScheme.payload ⟨oid', .nested⟩ [0x05, 0x00])
    ((r.supportsKey k).run ()).value = true ∧
      ((r.writePublicKey k).run ()).value = .ok publicInfo ∧
      ((r.readPublicKey publicInfo none).run ()).value =
        .ok (HashScheme.key oid' false [0x05, 0x00]) ∧
      ∃ info, info.attributes = some [] ∧
        ((r.writePrivateKey k (some [])).run ()).value = .ok info ∧
        ((r.readPrivateKey info).run ()).value = .ok (k.tagged oid') := by
  intro oid oid' adapter adapter' r k publicInfo
  -- both registrations succeed, in the order in which they are made
  have hrecords (record : Record Unit KeyBody) (hrecord : record ∈ r.records) :
      record = ⟨⟨"A", oid, ⟨1⟩⟩, adapter, .flat⟩ ∨ record = ⟨⟨"B", oid', ⟨2⟩⟩, adapter', .nested⟩ :=
    List.mem_pair.mp hrecord
  have schemes : ∀ record ∈ r.records, record.HoldsHashScheme id := by
    intro record hrecord
    rcases hrecords record hrecord with rfl | rfl
    · exact ⟨.flat, "a", rfl⟩
    · exact ⟨.nested, "b", rfl⟩
  have supported : ((r.supportsKey k).run ()).value = true := rfl
  obtain ⟨record, hrecord, hoid, ⟨half, hhalf, publicHalf⟩, privateKey⟩ :=
    supported_keys_survive [(.register ⟨"A", oid, ⟨1⟩⟩ adapter, ()),
      (.register ⟨"B", oid', ⟨2⟩⟩ adapter', ())] schemes (k := k) ⟨rfl, nofun⟩ supported
  rcases hrecords record hrecord with rfl | rfl
  · exact absurd hoid (by decide)
  · obtain rfl : _ = half := Option.some.inj hhalf
    have hmax : (HashScheme.payload ⟨oid', .nested⟩ [0x05, 0x00]).length ≤ maxLength := by decide
    have written := (publicHalf.written_iff () publicInfo).mpr ⟨hmax, rfl⟩
    have arrives := privateKey rfl (some [])
    have written' := (arrives.written_iff () _).mpr ⟨by decide, rfl⟩
    exact ⟨supported, written, publicHalf.read hmax none (), _, arrives.attributes_eq, written',
      arrives.read ()⟩

end Registry

end SignatureCatalog
