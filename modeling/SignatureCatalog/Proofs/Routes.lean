import SignatureCatalog.Proofs.Engine.Session
import SignatureCatalog.Proofs.Provider.Atomic
import SignatureCatalog.Proofs.Provider.Configure
import SignatureCatalog.Proofs.Registry.Handshake
import SignatureCatalog.Proofs.Registry.Ownership

/-!
# All routes into an algorithm agree

There are three ways to sign with an algorithm of the catalog: with the engine that the registry
makes for a key, with the engine that a configured provider makes for the algorithm's name, and with
the dispatch tables, which take the octets of a key and the whole message. They lead over different
tables, built at different times, but all to one adapter:

* the registry's engine is that of the key's owner, a record, and the only one with its name;
* the provider's is that of the record which was published under the name, and as no two records
  share a name, no other record has been put in its place;
* the dispatch tables mirror the lookup by name and by scheme.

So the two engines are equal, and a session with one comes to the call that the dispatch tables make
(`RoutesAgree`). An adapter may of course answer differently when it is asked again. What is claimed
of any adapter is therefore that from the same world on the routes ask the same of it, and only for
consistent adapters that the answer is the same in all worlds.
-/

namespace SignatureCatalog

variable {ω β : Type}

/-! ### The provider's engine -/

namespace ProviderTable

variable {t : ProviderTable ω β} {name : String}

theorem afterLead?_eq_none (h : ¬"OID.".toList <+: name.toList) : afterLead? name = none := by
  unfold afterLead?
  split
  · next rest heq => exact absurd ⟨rest, heq.symm⟩ h
  · rfl

/-- A name that has no `OID.` in front finds the engine that is held under it. -/
theorem signatureEngine_of_get? {binding : EngineBinding ω β}
    (held : t.get? (.service .signature name) = some (.engine binding))
    (lead : ¬"OID.".toList <+: name.toList) : t.signatureEngine name = .ok binding.newEngine := by
  have hnamed : t.engineNamed? name = some binding := by rw [engineNamed?, held]
  have hresolved : t.resolveSignature name = some binding := by rw [resolveSignature, hnamed]
  rw [signatureEngine, afterLead?_eq_none lead]
  dsimp only [Option.map_none]
  rw [hresolved]

/-- Only `strict` lets configuring a table fail. -/
theorem configure_of_lenient (t : ProviderTable ω β) {r : Registry ω β} (reachable : r.Reachable)
    {leniency : Leniency} (lenient : leniency ≠ .strict) :
    ((provider.configure leniency r).run t).value = .ok () :=
  (honest.publishAll_of_clear reachable.distinct
    (fun record _ => removable_holdings_engineKey record)
    (fun hstrict => absurd hstrict lenient) t rfl).1

/-- A table that has been configured from a registry has the engine of every record. -/
theorem signatureEngine_of_configure {r : Registry ω β} (reachable : r.Reachable)
    {leniency : Leniency} {record : Record ω β} (hrecord : record ∈ r.records)
    (configured : ((provider.configure leniency r).run t).value = .ok ())
    (lead : ¬"OID.".toList <+: record.name.toList) :
    ((provider.configure leniency r).run t).world.signatureEngine record.name =
      .ok (.new record.name record.adapter) := by
  have published := honest.published_of_configure reachable configured
  -- publishing put the record's engine there, and no other record has the name
  exact signatureEngine_of_get? (published.engine record hrecord) lead

end ProviderTable

/-! ### The tables of the handshake -/

namespace SignatureDispatch

variable {d : SignatureDispatch ω β} {a : Adapter ω β} {w : ω}

/-- Signing under a name that is known is logged, and is up to the adapter. -/
theorem run_sign_of_signer {name : String} (h : d.signer name = .ok a)
    (message privateKey : Bytes) :
    let call := (a.attempt .sign (a.sign message privateKey)).run w
    (d.sign name message privateKey).run w =
      ⟨call.value, call.world, .event (.signing name message.length) :: call.marks⟩ := by
  rw [sign, h]
  rfl

/-- Verifying under a scheme that is known is logged, and is up to the adapter. -/
theorem run_verify_of_verifier {scheme : SignatureScheme} (h : d.verifier scheme = .ok a)
    (message publicKey signature : Bytes) :
    let call := (a.attempt .verify (a.verify message publicKey signature)).run w
    (d.verify scheme message publicKey signature).run w =
      ⟨call.value, call.world, .event (.verifying scheme message.length) :: call.marks⟩ := by
  rw [verify, h]
  rfl

end SignatureDispatch

/-! ### Agreement -/

/-- **A session comes to a direct call.** All replies before the last one are successes, the last
one is the answer to the call, and the world that is left is the one that the call leaves. -/
structure SessionMatches {α : Type}
    (session : Outcome Mark ω (List (Exchange β) × SignatureEngine ω β)) (pieces : List Bytes)
    (f : α → EngineReply) (direct : Outcome Mark ω (Except Error α)) : Prop where
  replies : session.value.1.map Prod.snd = EngineReply.session pieces (direct.value.map f)
  world : session.world = direct.world

/-- **The routes from a key to an algorithm agree**: the engine that the registry makes for the key,
the engine that the provider makes for the algorithm's name, and the tables of the handshake. -/
structure RoutesAgree (r : Registry ω β) (t : ProviderTable ω β) (record : Record ω β) (k : Key β)
    (engine : SignatureEngine ω β) : Prop where
  /-- The provider's engine is the registry's. -/
  provider : ¬"OID.".toList <+: record.name.toList → t.signatureEngine record.name = .ok engine
  /-- A signing session is a direct signature on the whole message, in the world that writing the
  key info leaves. -/
  signs : k.isPrivate = true → ∀ info w w₁ w₂ m₁ m₂,
    (record.adapter.askSupports k).run w = ⟨true, w₁, m₁⟩ →
    (record.adapter.attempt .writePrivateKey (record.adapter.writePrivateKey k none)).run w₁ =
      ⟨.ok info, w₂, m₂⟩ →
    ∀ pieces, SessionMatches
      ((engine.performAll (EngineOperation.session (.initSign k) pieces .sign)).run w) pieces
      .signature ((r.dispatch.sign record.name pieces.flatten info.privateKey).run w₂)
  /-- A verifying session is a direct verification of the signature on the whole message. -/
  verifies : k.isPrivate = false → ∀ info octets w w₁ w₂ m₁ m₂,
    (record.adapter.askSupports k).run w = ⟨true, w₁, m₁⟩ →
    (record.adapter.attempt .writePublicKey (record.adapter.writePublicKey k)).run w₁ =
      ⟨.ok info, w₂, m₂⟩ →
    info.keyOctets = .ok octets →
    ∀ pieces signature, SessionMatches
      ((engine.performAll
        (EngineOperation.session (.initVerify k) pieces (.verify signature))).run w) pieces
      .verdict ((r.dispatch.verify record.scheme pieces.flatten octets signature).run w₂)
  /-- With consistent adapters there is one signature, or one failure of the adapter, on all routes
  and in all worlds. -/
  signature : (∀ record ∈ r.records, record.adapter.IsConsistent) → k.isPrivate = true →
    ∀ info w, ((r.writePrivateKey k none).run w).value = .ok info →
    ∀ pieces, ∃ answer : Except Failure Bytes, ∀ w',
      ((engine.performAll (EngineOperation.session (.initSign k) pieces .sign)).run w').value.1.map
          Prod.snd = EngineReply.session pieces ((answer.mapError .adapter).map .signature) ∧
        ((r.dispatch.sign record.name pieces.flatten info.privateKey).run w').value =
          answer.mapError .adapter
  /-- With consistent adapters there is one verdict, or one failure of the adapter. -/
  verdict : (∀ record ∈ r.records, record.adapter.IsConsistent) → k.isPrivate = false →
    ∀ info octets w, ((r.writePublicKey k).run w).value = .ok info →
    info.keyOctets = .ok octets →
    ∀ pieces signature, ∃ answer : Except Failure Bool, ∀ w',
      ((engine.performAll
        (EngineOperation.session (.initVerify k) pieces (.verify signature))).run w').value.1.map
          Prod.snd = EngineReply.session pieces ((answer.mapError .adapter).map .verdict) ∧
        ((r.dispatch.verify record.scheme pieces.flatten octets signature).run w').value =
          answer.mapError .adapter

section

variable {r : Registry ω β} {record : Record ω β} {k : Key β} {w w₁ w₂ : ω} {m₁ m₂ : List Mark}

/-- A signing session with the engine of a record is a direct signature. -/
theorem Registry.Reachable.signing_matches (h : r.Reachable) (hrecord : record ∈ r.records)
    {info : PrivateKeyInfo} (kind : k.isPrivate = true)
    (asked : (record.adapter.askSupports k).run w = ⟨true, w₁, m₁⟩)
    (written : (record.adapter.attempt .writePrivateKey
      (record.adapter.writePrivateKey k none)).run w₁ = ⟨.ok info, w₂, m₂⟩) (pieces : List Bytes) :
    SessionMatches
      (((SignatureEngine.new record.name record.adapter).performAll
        (EngineOperation.session (.initSign k) pieces .sign)).run w) pieces
      .signature ((r.dispatch.sign record.name pieces.flatten info.privateKey).run w₂) := by
  have hsigner : r.dispatch.signer record.name = .ok record.adapter :=
    (h.exactLookup_name.mirrors h.signer_eq).of_mem record hrecord
  rw [SignatureDispatch.run_sign_of_signer hsigner,
    SignatureEngine.run_performAll_signing kind asked written]
  -- both come to one and the same call of the adapter, on the message joined
  exact ⟨Exchange.map_snd_session _ _ _ _, rfl⟩

/-- A verifying session with the engine of a record is a direct verification. -/
theorem Registry.Reachable.verifying_matches (h : r.Reachable) (hrecord : record ∈ r.records)
    {info : SubjectPublicKeyInfo} {octets : Bytes} (kind : k.isPrivate = false)
    (asked : (record.adapter.askSupports k).run w = ⟨true, w₁, m₁⟩)
    (written : (record.adapter.attempt .writePublicKey
      (record.adapter.writePublicKey k)).run w₁ = ⟨.ok info, w₂, m₂⟩)
    (aligned : info.keyOctets = .ok octets) (pieces : List Bytes) (signature : Bytes) :
    SessionMatches
      (((SignatureEngine.new record.name record.adapter).performAll
        (EngineOperation.session (.initVerify k) pieces (.verify signature))).run w) pieces
      .verdict ((r.dispatch.verify record.scheme pieces.flatten octets signature).run w₂) := by
  have hverifier : r.dispatch.verifier record.scheme = .ok record.adapter :=
    (h.exactLookup_scheme.mirrors h.verifier_eq).of_mem record hrecord
  rw [SignatureDispatch.run_verify_of_verifier hverifier,
    SignatureEngine.run_performAll_verifying kind asked written aligned]
  exact ⟨Exchange.map_snd_session _ _ _ _, rfl⟩

/-- Where the adapter is consistent, a signing session has the same replies in every world, and a
direct signature is the same as the last of them. -/
theorem Registry.Reachable.exists_signature (h : r.Reachable) (hrecord : record ∈ r.records)
    {info : PrivateKeyInfo} (consistent : record.adapter.IsConsistent) (kind : k.isPrivate = true)
    (supported : ∃ w, ((record.adapter.askSupports k).run w).value = true)
    (written : ∃ w, ((record.adapter.attempt .writePrivateKey
      (record.adapter.writePrivateKey k none)).run w).value = .ok info) (pieces : List Bytes) :
    ∃ answer : Except Failure Bytes, ∀ w,
      (((SignatureEngine.new record.name record.adapter).performAll
        (EngineOperation.session (.initSign k) pieces .sign)).run w).value.1.map Prod.snd =
          EngineReply.session pieces ((answer.mapError .adapter).map .signature) ∧
        ((r.dispatch.sign record.name pieces.flatten info.privateKey).run w).value =
          answer.mapError .adapter := by
  obtain ⟨w₀, supported⟩ := supported
  obtain ⟨w₁, written⟩ := written
  have hsigner : r.dispatch.signer record.name = .ok record.adapter :=
    (h.exactLookup_name.mirrors h.signer_eq).of_mem record hrecord
  -- the signer is the record's adapter, which answers the same whenever it is asked
  have answers := consistent.sign pieces.flatten info.privateKey
  -- any world tells what the adapter answers
  refine ⟨((record.adapter.sign pieces.flatten info.privateKey).run w₀).value, fun w => ?_⟩
  have direct : ∀ w, ((r.dispatch.sign record.name pieces.flatten info.privateKey).run w).value =
      ((record.adapter.sign pieces.flatten info.privateKey).run w₀).value.mapError .adapter := by
    intro w
    rw [SignatureDispatch.run_sign_of_signer hsigner, Adapter.run_attempt, answers w w₀]
  -- what it said of the key in one world, and wrote of it in another, it says and writes in `w`
  -- too, so a session gets to its last operation there
  have asked := (record.adapter.steady_ask .supports (consistent.supports k)).run_eq supported w
  have wrote := (record.adapter.steady_attempt .writePrivateKey
    (consistent.writePrivateKey k none)).run_eq written
  refine ⟨?_, direct w⟩
  rw [(h.signing_matches hrecord kind asked (wrote _) pieces).replies, direct]

/-- Where the adapter is consistent, a verifying session has the same replies in every world, and a
direct verification is the same as the last of them. -/
theorem Registry.Reachable.exists_verdict (h : r.Reachable) (hrecord : record ∈ r.records)
    {info : SubjectPublicKeyInfo} {octets : Bytes} (consistent : record.adapter.IsConsistent)
    (kind : k.isPrivate = false)
    (supported : ∃ w, ((record.adapter.askSupports k).run w).value = true)
    (written : ∃ w, ((record.adapter.attempt .writePublicKey
      (record.adapter.writePublicKey k)).run w).value = .ok info)
    (aligned : info.keyOctets = .ok octets) (pieces : List Bytes) (signature : Bytes) :
    ∃ answer : Except Failure Bool, ∀ w,
      (((SignatureEngine.new record.name record.adapter).performAll
        (EngineOperation.session (.initVerify k) pieces (.verify signature))).run w).value.1.map
          Prod.snd = EngineReply.session pieces ((answer.mapError .adapter).map .verdict) ∧
        ((r.dispatch.verify record.scheme pieces.flatten octets signature).run w).value =
          answer.mapError .adapter := by
  obtain ⟨w₀, supported⟩ := supported
  obtain ⟨w₁, written⟩ := written
  have hverifier : r.dispatch.verifier record.scheme = .ok record.adapter :=
    (h.exactLookup_scheme.mirrors h.verifier_eq).of_mem record hrecord
  have answers := consistent.verify pieces.flatten octets signature
  refine ⟨((record.adapter.verify pieces.flatten octets signature).run w₀).value, fun w => ?_⟩
  have direct : ∀ w,
      ((r.dispatch.verify record.scheme pieces.flatten octets signature).run w).value =
      ((record.adapter.verify pieces.flatten octets signature).run w₀).value.mapError .adapter := by
    intro w
    rw [SignatureDispatch.run_verify_of_verifier hverifier, Adapter.run_attempt, answers w w₀]
  have asked := (record.adapter.steady_ask .supports (consistent.supports k)).run_eq supported w
  have wrote := (record.adapter.steady_attempt .writePublicKey
    (consistent.writePublicKey k)).run_eq written
  refine ⟨?_, direct w⟩
  rw [(h.verifying_matches hrecord kind asked (wrote _) aligned pieces signature).replies, direct]

/-- Records of a reachable registry with the same name are the same. -/
theorem Registry.Reachable.eq_of_name_eq (h : r.Reachable) {record' : Record ω β}
    (hrecord : record ∈ r.records) (hrecord' : record' ∈ r.records)
    (hname : record.name = record'.name) : record = record' := by
  have found := (h.exactLookup_name.found_iff record'.name record).mpr ⟨hrecord, hname⟩
  have found' := (h.exactLookup_name.found_iff record'.name record').mpr ⟨hrecord', rfl⟩
  rw [found] at found'
  exact Except.ok.inj found'

/-- The engine for a key that has the name of a record is the engine of that record, which owns the
key. -/
theorem Registry.Reachable.owner_of_signatureEngine (h : r.Reachable)
    (hrecord : record ∈ r.records) {engine : SignatureEngine ω β}
    (routed : ((r.signatureEngine k).run w).value = .ok engine)
    (named : engine.name = record.name) :
    engine = .new record.name record.adapter ∧ ((r.owner k).run w).value = .ok record := by
  obtain ⟨owner, howner, rfl⟩ := Registry.exists_owner_of_signatureEngine routed
  obtain rfl : owner = record := h.eq_of_name_eq (Registry.mem_of_owner howner).1 hrecord named
  exact ⟨rfl, howner⟩

end

/-- **Signing and verifying come to the same on every route.** The registry may have any history,
the provider may have held anything before it was configured, and the message may be cut in any
way. -/
theorem routes_agree (history : List (Registry.Change ω β × ω)) (t : ProviderTable ω β)
    (leniency : Leniency) {record : Record ω β} {k : Key β} {w : ω} {engine : SignatureEngine ω β}
    (hrecord : record ∈ (Registry.ofHistory history).records)
    (configured : ((ProviderTable.provider.configure leniency (.ofHistory history)).run t).value =
      .ok ())
    (routed : (((Registry.ofHistory history).signatureEngine k).run w).value = .ok engine)
    (named : engine.name = record.name) :
    RoutesAgree (.ofHistory history)
      ((ProviderTable.provider.configure leniency (.ofHistory history)).run t).world record k
      engine := by
  have h := Registry.reachable_ofHistory history
  -- the name leads back to the record that the engine was made for
  obtain ⟨rfl, howner⟩ := h.owner_of_signatureEngine hrecord routed named
  have supported := (Registry.mem_of_owner howner).2
  constructor
  case provider => exact ProviderTable.signatureEngine_of_configure h hrecord configured
  case signs =>
    intro kind info w w₁ w₂ m₁ m₂ asked written pieces
    exact h.signing_matches hrecord kind asked written pieces
  case verifies =>
    intro kind info octets w w₁ w₂ m₁ m₂ asked written aligned pieces signature
    exact h.verifying_matches hrecord kind asked written aligned pieces signature
  case signature =>
    intro consistent kind info w' written pieces
    -- the key info comes from the owner of the key, which is the same in every world
    obtain ⟨record', howner', hwritten⟩ := Registry.exists_owner_of_andThen written
    rw [Registry.steady_owner consistent k w' w, howner] at howner'
    obtain rfl : record = record' := Except.ok.inj howner'
    exact h.exists_signature hrecord (consistent record hrecord) kind supported ⟨_, hwritten⟩ pieces
  case verdict =>
    intro consistent kind info octets w' written aligned pieces signature
    obtain ⟨record', howner', hwritten⟩ := Registry.exists_owner_of_andThen written
    rw [Registry.steady_owner consistent k w' w, howner] at howner'
    obtain rfl : record = record' := Except.ok.inj howner'
    exact h.exists_verdict hrecord (consistent record hrecord) kind supported ⟨_, hwritten⟩ aligned
      pieces signature

/-- A key of the hash scheme signs a message in two pieces: the engines and the direct call give the
signature that the scheme has for the whole. -/
theorem routes_agree_hash_scheme :
    let identity : Identity := ⟨"XYZ-SIG", ⟨[0x2a, 0x03, 0x04]⟩, ⟨0xfeb3⟩⟩
    let adapter : Adapter Unit Sample.KeyBody :=
      Sample.HashScheme.adapter id ⟨identity.oid, .flat⟩ "xyz"
    let history : List (Registry.Change Unit Sample.KeyBody × Unit) :=
      [(.register identity adapter, ())]
    let t : ProviderTable Unit Sample.KeyBody :=
      ((ProviderTable.provider.configure .warn (.ofHistory history)).run (.empty true)).world
    let k := Sample.HashScheme.key identity.oid true (List.replicate 32 7)
    let engine : SignatureEngine Unit Sample.KeyBody := .new "XYZ-SIG" adapter
    RoutesAgree (.ofHistory history) t ⟨identity, adapter, .flat⟩ k engine ∧
      t.signatureEngine "XYZ-SIG" = .ok engine ∧
      ((engine.performAll
        (EngineOperation.session (.initSign k) [[1], [2]] .sign)).run ()).value.1.map Prod.snd =
        EngineReply.session [[1], [2]] (.ok (.signature (List.replicate 32 7 ++ [1, 2]))) := by
  intro identity adapter history t k engine
  have hrecord : ⟨identity, adapter, .flat⟩ ∈ (Registry.ofHistory history).records :=
    List.mem_cons_self
  have configured := ProviderTable.configure_of_lenient (.empty true)
    (Registry.reachable_ofHistory history) (by decide : Leniency.warn ≠ .strict)
  have routed : (((Registry.ofHistory history).signatureEngine k).run ()).value = .ok engine := rfl
  have agree := routes_agree history (.empty true) .warn hrecord configured routed rfl
  exact ⟨agree, agree.provider (by decide), rfl⟩

end SignatureCatalog
