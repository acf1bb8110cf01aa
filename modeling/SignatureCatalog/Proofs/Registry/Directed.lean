import SignatureCatalog.Proofs.Registry.Identifiers
import SignatureCatalog.Proofs.Registry.Wire
import SignatureCatalog.Proofs.Routes

/-!
# Not found means not registered

A caller who learns that nothing was found is free to go elsewhere, for instance to algorithms that
are built in. So that report has to be reliable in both directions: it comes where no record bears
the identifier, and neither a failing adapter nor a malformed key info may be taken for it.

Ten operations are directed by an identifier: the lookups, the tables of the handshake with signing
and verifying through them, and the readings of key infos. All of them look the identifier up before
anything else, and what they do for the record that is found fails for other reasons
(`Reachable.directedBy`). Four of them do nothing but to hand the request on to the record's adapter
(`Delegates`); what the adapter fails with is reported as a failure of the adapter, whatever it is.
-/

namespace SignatureCatalog

variable {ω β α : Type}

/-! ### Handing a request on -/

/-- **The operation hands a request on.** It logs what it is about to do and has the adapter act, in
the world as it is. Nobody else is asked and nothing else happens; the adapter's value is passed on
as it is, and its failure as a failure of an adapter. -/
structure Delegates (operation : Act Mark ω (Except Error α)) (adapter : Adapter ω β)
    (logged : List Event) (request : AdapterRequest) (act : Act Event ω (Except Failure α)) :
    Prop where
  run_eq : ∀ w, operation.run w =
    ⟨(act.run w).value.mapError .adapter, (act.run w).world,
      logged.map .event ++ .adapter adapter.label request :: (act.run w).marks.map .event⟩
  calls : ∀ w, adapterCalls (operation.run w).marks = [(adapter.label, request)]
  ok_iff : ∀ w a, (operation.run w).value = .ok a ↔ (act.run w).value = .ok a
  error_iff : ∀ w e, (operation.run w).value = .error e ↔
    ∃ failure, e = .adapter failure ∧ (act.run w).value = .error failure

/-- What an adapter is asked after logging is handed on to it. -/
theorem Delegates.of_run {operation : Act Mark ω (Except Error α)} {adapter : Adapter ω β}
    {logged : List Event} {request : AdapterRequest} {act : Act Event ω (Except Failure α)}
    (h : ∀ w, operation.run w =
      let call := (adapter.attempt request act).run w
      ⟨call.value, call.world, logged.map .event ++ call.marks⟩) :
    Delegates operation adapter logged request act := by
  refine ⟨fun w => ?_, fun w => ?_, fun w a => ?_, fun w e => ?_⟩
  · rw [h, Adapter.run_attempt]
  · rw [h, Adapter.run_attempt]
    -- what is logged before and after the call is no call
    show adapterCalls (_ ++ ([Mark.adapter adapter.label request] ++ _)) = _
    rw [adapterCalls_append, adapterCalls_append, adapterCalls_map_event, adapterCalls_map_event]
    rfl
  · rw [h, Adapter.run_attempt]
    cases (act.run w).value with
    | ok a' =>
      constructor
      · intro heq
        rw [Except.ok.inj heq]
      · intro heq
        rw [Except.ok.inj heq]
        rfl
    | error failure => exact iff_of_false nofun nofun
  · rw [h, Adapter.run_attempt]
    cases (act.run w).value with
    | ok a' => exact iff_of_false nofun nofun
    | error failure =>
      constructor
      · intro heq
        exact ⟨failure, (Except.error.inj heq).symm, rfl⟩
      · rintro ⟨failure', rfl, heq⟩
        rw [Except.error.inj heq]
        rfl

/-- A failure of an adapter is not a lookup that found nothing. -/
theorem Delegates.found {operation : Act Mark ω (Except Error α)} {adapter : Adapter ω β}
    {logged : List Event} {request : AdapterRequest} {act : Act Event ω (Except Failure α)}
    (h : Delegates operation adapter logged request act) {w : ω} {e : Error}
    (failed : (operation.run w).value = .error e) : e.isNotFound = false := by
  -- whatever the adapter has failed with is wrapped, even where it is a report of its own
  obtain ⟨failure, rfl, -⟩ := (h.error_iff w e).mp failed
  exact Error.isNotFound_adapter failure

namespace Registry

variable {r : Registry ω β} {record : Record ω β} {identifier : Identifier}

/-- **What a record is good for.** Requests that are directed by its identifiers are handed on to
its adapter. -/
structure Serves (r : Registry ω β) (record : Record ω β) : Prop where
  sign : ∀ message privateKey,
    Delegates (r.dispatch.sign record.name message privateKey) record.adapter
      [.signing record.name message.length] .sign (record.adapter.sign message privateKey)
  verify : ∀ message publicKey signature,
    Delegates (r.dispatch.verify record.scheme message publicKey signature) record.adapter
      [.verifying record.scheme message.length] .verify
      (record.adapter.verify message publicKey signature)
  readPrivateKey : ∀ info : PrivateKeyInfo, info.oid = record.oid →
    Delegates (r.readPrivateKey info) record.adapter [] .readPrivateKey
      (record.adapter.readPrivateKey info)
  readPublicKey : ∀ (info : SubjectPublicKeyInfo) parameters, info.oid = record.oid →
    Delegates (r.readPublicKey info parameters) record.adapter [] (.readPublicKey parameters)
      (record.adapter.readPublicKey info parameters)

theorem Reachable.serves (h : r.Reachable) (hrecord : record ∈ r.records) : r.Serves record := by
  -- by whichever identifier it is asked for, the record is found, and its adapter is asked
  refine ⟨?_, ?_, ?_, ?_⟩
  · intro message privateKey
    have leads : r.LeadsTo (.name record.name) record := h.leadsTo hrecord rfl
    exact .of_run fun w =>
      SignatureDispatch.run_sign_of_signer (leads.signer record.name rfl) message privateKey
  · intro message publicKey signature
    have leads : r.LeadsTo (.scheme record.scheme) record := h.leadsTo hrecord rfl
    exact .of_run fun w => SignatureDispatch.run_verify_of_verifier
      (leads.verifier record.scheme rfl) message publicKey signature
  · intro info hoid
    have leads : r.LeadsTo (.oid info.oid) record := h.leadsTo hrecord hoid.symm
    rw [readPrivateKey_of_lookupOid leads.lookup]
    exact .of_run fun w => rfl
  · intro info parameters hoid
    have leads : r.LeadsTo (.oid info.oid) record := h.leadsTo hrecord hoid.symm
    rw [(reaches_of_lookupOid leads.lookup).readPublicKey parameters]
    exact .of_run fun w => rfl

/-! ### Being directed -/

/-- **The operation is directed by the identifier.** It reports that nothing was found exactly where
the identifier is not registered. The report carries the identifier, and nothing has happened by
then: the world is as it was, nothing is logged, and no adapter has been asked. -/
structure DirectedBy (r : Registry ω β) (identifier : Identifier)
    (operation : Act Mark ω (Except Error α)) : Prop where
  reports_iff : ∀ w, (∃ e, (operation.run w).value = .error e ∧ e.isNotFound = true) ↔
    ¬r.IsRegistered identifier
  run_of_unregistered : ¬r.IsRegistered identifier →
    ∀ w, operation.run w = ⟨.error (.notFound identifier), w, []⟩

/-- An operation that begins with the lookup is directed by the identifier, provided that whatever
it does for a record fails for other reasons. -/
theorem Reachable.directedBy (h : r.Reachable) {operation : Act Mark ω (Except Error α)}
    (missed : ∀ e, r.lookup identifier = .error e → operation = pure (.error e))
    (served : ∀ record, r.lookup identifier = .ok record →
      ∀ w e, (operation.run w).value = .error e → e.isNotFound = false) :
    r.DirectedBy identifier operation := by
  have unregistered (missing : ¬r.IsRegistered identifier) (w : ω) :
      operation.run w = ⟨.error (.notFound identifier), w, []⟩ := by
    -- the lookup fails before anything is done, and the operation is that failure
    rw [missed _ (h.lookup_eq_error_iff.mpr ⟨rfl, missing⟩), Act.run_pure]
  refine ⟨fun w => ⟨?_, ?_⟩, unregistered⟩
  · rintro ⟨e, failed, reported⟩
    cases found : r.lookup identifier with
    | error e' => exact (h.lookup_eq_error_iff.mp found).2
    | ok record =>
      -- a record has been found, so the failure is one of what is done for it
      rw [served record found w e failed] at reported
      cases reported
  · intro missing
    rw [unregistered missing w]
    exact ⟨_, rfl, rfl⟩

/-- What is taken from the record that a lookup finds is directed by the identifier. -/
theorem Reachable.directedBy_map (h : r.Reachable) (f : Record ω β → α) {answer : Except Error α}
    (heq : answer = (r.lookup identifier).map f) : r.DirectedBy identifier (pure answer) := by
  subst heq
  refine h.directedBy (fun e missed => ?_) fun record found w e failed => ?_
  · rw [missed]
    rfl
  · rw [found] at failed
    cases failed

/-- **All that is directed by an identifier**, each by its own. -/
structure Directs (r : Registry ω β) : Prop where
  lookupName : ∀ name, r.DirectedBy (.name name) (pure (r.lookupName name))
  lookupOid : ∀ oid, r.DirectedBy (.oid oid) (pure (r.lookupOid oid))
  lookupScheme : ∀ scheme, r.DirectedBy (.scheme scheme) (pure (r.lookupScheme scheme))
  signer : ∀ name, r.DirectedBy (.name name) (pure (r.dispatch.signer name))
  verifier : ∀ scheme, r.DirectedBy (.scheme scheme) (pure (r.dispatch.verifier scheme))
  sign : ∀ name message privateKey,
    r.DirectedBy (.name name) (r.dispatch.sign name message privateKey)
  verify : ∀ scheme message publicKey signature,
    r.DirectedBy (.scheme scheme) (r.dispatch.verify scheme message publicKey signature)
  readPrivateKey : ∀ info, r.DirectedBy (.oid info.oid) (r.readPrivateKey info)
  readPublicKey : ∀ info parameters, r.DirectedBy (.oid info.oid) (r.readPublicKey info parameters)
  parsePublicKey : ∀ info, r.DirectedBy (.oid info.oid) (r.parsePublicKey info)

theorem Reachable.directs (h : r.Reachable) : r.Directs := by
  -- the three lookups are one, at the three kinds of identifiers
  have lookup (identifier : Identifier) : r.DirectedBy identifier (pure (r.lookup identifier)) :=
    h.directedBy_map id (congrFun Except.map_id.symm _)
  constructor
  case lookupName => exact fun name => lookup (.name name)
  case lookupOid => exact fun oid => lookup (.oid oid)
  case lookupScheme => exact fun scheme => lookup (.scheme scheme)
  case signer => exact fun name => h.directedBy_map (·.adapter) (h.signer_eq name)
  case verifier => exact fun scheme => h.directedBy_map (·.adapter) (h.verifier_eq scheme)
  case sign =>
    intro name message privateKey
    refine h.directedBy (fun e missed => ?_) fun record found w e failed => ?_
    -- signing asks the dispatch table, which fails where the lookup does
    · have hsigner : r.dispatch.signer name = .error e :=
        (h.signer_eq name).trans (congrArg (Except.map (·.adapter)) missed)
      rw [SignatureDispatch.sign, hsigner]
    · obtain ⟨hrecord, rfl⟩ := h.lookup_eq_ok_iff.mp found
      exact ((h.serves hrecord).sign message privateKey).found failed
  case verify =>
    intro scheme message publicKey signature
    refine h.directedBy (fun e missed => ?_) fun record found w e failed => ?_
    · have hverifier : r.dispatch.verifier scheme = .error e :=
        (h.verifier_eq scheme).trans (congrArg (Except.map (·.adapter)) missed)
      rw [SignatureDispatch.verify, hverifier]
    · obtain ⟨hrecord, rfl⟩ := h.lookup_eq_ok_iff.mp found
      exact ((h.serves hrecord).verify message publicKey signature).found failed
  case readPrivateKey =>
    intro info
    refine h.directedBy (fun e missed => ?_) fun record found w e failed => ?_
    · have hlookup : r.lookupOid info.oid = .error e := missed
      rw [Registry.readPrivateKey, hlookup]
    · obtain ⟨hrecord, hoid⟩ := h.lookup_eq_ok_iff.mp found
      exact ((h.serves hrecord).readPrivateKey info hoid.symm).found failed
  case readPublicKey =>
    intro info parameters
    refine h.directedBy (fun e missed => ?_) fun record found w e failed => ?_
    · have hlookup : r.lookupOid info.oid = .error e := missed
      rw [Registry.readPublicKey, hlookup]
    · obtain ⟨hrecord, hoid⟩ := h.lookup_eq_ok_iff.mp found
      exact ((h.serves hrecord).readPublicKey info parameters hoid.symm).found failed
  case parsePublicKey =>
    intro info
    refine h.directedBy (fun e missed => ?_) fun record found w e failed => ?_
    · have hlookup : r.lookupOid info.oid = .error e := missed
      rw [Registry.parsePublicKey, hlookup]
    · -- a payload that cannot be read is reported as such
      exact (reaches_of_lookupOid found).found w e failed

/-- **Not found means not registered**, in every registry, with whatever adapters. Where an
identifier is registered, the requests it directs are handed on to that record's adapter. -/
theorem notFound_means_unregistered (history : List (Change ω β × ω)) :
    let r := ofHistory history
    r.Directs ∧ ∀ record ∈ r.records, r.Serves record := by
  intro r
  have h : r.Reachable := reachable_ofHistory history
  exact ⟨h.directs, fun record => h.serves⟩

/-- An adapter that fails because a catalog of its own found nothing is an adapter that fails. -/
theorem notFound_of_adapter_is_failure :
    let identity : Identity := ⟨"XYZ-SIG", ⟨[0x2a, 0x03, 0x04]⟩, ⟨0xfeb3⟩⟩
    let inner : Adapter Unit Sample.KeyBody :=
      Sample.HashScheme.adapter id ⟨identity.oid, .flat⟩ "xyz"
    let failure := (Error.notFound (.oid identity.oid)).toFailure
    let adapter := { inner with readPrivateKey := fun _ => return .error failure }
    let r := ofHistory [(.register identity adapter, ())]
    let info := PrivateKeyInfo.ofOctets (.ofOid identity.oid) []
    let other := PrivateKeyInfo.ofOctets (.ofOid ⟨[0x2a, 0x03, 0x05]⟩) []
    (r.readPrivateKey info).run () =
        ⟨.error (.adapter failure), (), [.adapter "xyz" .readPrivateKey]⟩ ∧
      (Error.adapter failure).isNotFound = false ∧
      (r.readPrivateKey other).run () = ⟨.error (.notFound (.oid other.oid)), (), []⟩ := by
  intro identity inner failure adapter r info other
  obtain ⟨directs, serves⟩ := notFound_means_unregistered [(.register identity adapter, ())]
  have served := (serves ⟨identity, adapter, .flat⟩ List.mem_cons_self).readPrivateKey info rfl
  have missing : ¬r.IsRegistered (.oid other.oid) := by
    rintro ⟨record, hrecord, bears⟩
    rw [List.mem_singleton.mp hrecord] at bears
    exact absurd bears (by decide : identity.oid ≠ other.oid)
  exact ⟨served.run_eq (), rfl, (directs.readPrivateKey other).run_of_unregistered missing ()⟩

end Registry

end SignatureCatalog
