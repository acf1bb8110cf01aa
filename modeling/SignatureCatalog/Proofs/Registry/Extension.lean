import SignatureCatalog.Proofs.Registry.Handshake
import SignatureCatalog.Proofs.Registry.Routing

/-!
# Registrations disturb nobody

A registration that is accepted puts its record behind all others, and every question that a
registry answers is answered by the earliest record that can: a lookup by the only record with the
identifier, a key by the first that supports it. So whatever had an answer keeps it
(`Undisturbed`), however greedy the newcomer is.

All this needs of two registries is that the records of one are an initial segment of the records of
the other (`Reachable.undisturbed_of_isPrefix`). Registrations make the records longer and never do
anything else, so the rest is an induction on the calls (`isPrefix_ofHistory_append`).
-/

namespace SignatureCatalog.Registry

variable {ω β : Type} {r r' : Registry ω β} {k : Key β} {w : ω} {record : Record ω β}

/-- **Whatever had an answer keeps it.** The adapters that `r'` has more than `r` come in only where
`r` has no answer. -/
structure Undisturbed (r r' : Registry ω β) : Prop where
  /-- A key with an owner is treated as before, in the same world. -/
  routes : ∀ k w record, ((r.owner k).run w).value = .ok record → RoutesAlike r r' k w
  /-- With consistent adapters the key keeps its owner in all worlds. The adapters that `r'` has
  more need not be consistent. -/
  owner : (∀ record ∈ r.records, record.adapter.IsConsistent) →
    ∀ k w record, ((r.owner k).run w).value = .ok record →
      ∀ w', RoutesAlike r r' k w' ∧ ((r'.owner k).run w').value = .ok record
  lookupName : ∀ name record, r.lookupName name = .ok record → r'.lookupName name = .ok record
  lookupOid : ∀ oid record, r.lookupOid oid = .ok record → r'.lookupOid oid = .ok record
  lookupScheme : ∀ scheme record,
    r.lookupScheme scheme = .ok record → r'.lookupScheme scheme = .ok record
  signer : ∀ name a, r.dispatch.signer name = .ok a → r'.dispatch.signer name = .ok a
  verifier : ∀ scheme a, r.dispatch.verifier scheme = .ok a → r'.dispatch.verifier scheme = .ok a
  parsePublicKey : ∀ info record, r.lookupOid info.oid = .ok record →
    r'.parsePublicKey info = r.parsePublicKey info
  readPrivateKey : ∀ info record, r.lookupOid info.oid = .ok record →
    r'.readPrivateKey info = r.readPrivateKey info
  readPublicKey : ∀ info parameters record, r.lookupOid info.oid = .ok record →
    r'.readPublicKey info parameters = r.readPublicKey info parameters

/-! ### Keys -/

/-- Once a record has been found, what comes after it is not asked. -/
theorem run_firstSupporting_append {records : List (Record ω β)} (more : List (Record ω β))
    (h : ((firstSupporting k records).run w).value = some record) :
    (firstSupporting k (records ++ more)).run w = (firstSupporting k records).run w := by
  -- along the search, in whatever world the earlier answers have led to
  induction records generalizing w with
  | nil => cases h
  | cons first rest ih =>
    rw [firstSupporting, Act.run_bind] at h
    rw [List.cons_append, firstSupporting, firstSupporting, Act.run_bind, Act.run_bind]
    dsimp only at h ⊢
    cases hasked : ((first.adapter.askSupports k).run w).value with
    | true => rfl
    | false =>
      rw [hasked] at h
      -- `first` said no, so the record was found among the rest
      simp only [Bool.false_eq_true, if_false] at h ⊢
      rw [ih h]

/-- More records are more candidates, behind those there were. -/
theorem candidates_isPrefix (h : r.records <+: r'.records) (k : Key β) :
    r.candidates k <+: r'.candidates k := by
  cases tagged : k.algorithm? with
  | some oid =>
    rw [candidates_of_tagged tagged, candidates_of_tagged tagged]
    exact h.filter _
  | none =>
    rw [candidates_of_untagged tagged, candidates_of_untagged tagged]
    exact h

/-- The owner is the first that was found among the candidates. -/
theorem Reachable.firstSupporting_of_owner (h : r.Reachable)
    (howner : ((r.owner k).run w).value = .ok record) :
    ((firstSupporting k (r.candidates k)).run w).value = some record := by
  rw [h.owner_eq, Act.run_map] at howner
  cases hfirst : ((firstSupporting k (r.candidates k)).run w).value with
  | none => rw [hfirst] at howner; cases howner
  | some found =>
    rw [hfirst] at howner
    rw [Except.ok.inj howner]

/-- A key keeps its owner when records come behind. -/
theorem Reachable.run_owner_of_isPrefix (h : r.Reachable) (h' : r'.Reachable)
    (longer : r.records <+: r'.records) (howner : ((r.owner k).run w).value = .ok record) :
    (r'.owner k).run w = (r.owner k).run w := by
  obtain ⟨more, hmore⟩ := candidates_isPrefix longer k
  rw [h'.owner_eq, h.owner_eq, Act.run_map, Act.run_map, ← hmore,
    run_firstSupporting_append more (h.firstSupporting_of_owner howner)]

/-! ### Lookups -/

/-- What an exact lookup finds is found among more records too. -/
theorem ExactLookup.mono {κ : Type} {records records' : List (Record ω β)}
    {identifier : Record ω β → κ} [DecidableEq κ] [Ord κ] {index index' : FiniteMap κ Nat}
    {lookup lookup' : κ → Except Error (Record ω β)} {kind : κ → Identifier}
    (exact : ExactLookup records identifier index lookup kind)
    (exact' : ExactLookup records' identifier index' lookup' kind) (subset : records ⊆ records')
    {x : κ} (found : lookup x = .ok record) : lookup' x = .ok record := by
  obtain ⟨hmem, hid⟩ := (exact.found_iff x record).mp found
  exact (exact'.found_iff x record).mpr ⟨subset hmem, hid⟩

/-- So it is with the adapters, in a table that mirrors the lookup. -/
theorem Mirrors.mono {κ : Type} {records records' : List (Record ω β)}
    {identifier : Record ω β → κ} [DecidableEq κ] {lookup lookup' : κ → Except Error (Record ω β)}
    {adapterOf adapterOf' : κ → Except Error (Adapter ω β)} {kind : κ → Identifier}
    (mirrors : Mirrors records identifier lookup adapterOf kind)
    (mirrors' : Mirrors records' identifier lookup' adapterOf' kind) (subset : records ⊆ records')
    {x : κ} {a : Adapter ω β} (found : adapterOf x = .ok a) : adapterOf' x = .ok a := by
  obtain ⟨record, hmem, hid, rfl⟩ := (mirrors.ok_iff x a).mp found
  exact (mirrors'.ok_iff x _).mpr ⟨record, subset hmem, hid, rfl⟩

/-! ### Longer registries -/

/-- **Records that come behind disturb nobody.** -/
theorem Reachable.undisturbed_of_isPrefix (h : r.Reachable) (h' : r'.Reachable)
    (longer : r.records <+: r'.records) : Undisturbed r r' := by
  -- what is done for a key is told by its owner, so the owner is all there is to compare
  have routes {k : Key β} {w : ω} {record : Record ω β}
      (howner : ((r.owner k).run w).value = .ok record) : RoutesAlike r r' k w :=
    routesAlike_of_owner (h.run_owner_of_isPrefix h' longer howner)
  have lookupOid {oid : Oid} {record : Record ω β} (found : r.lookupOid oid = .ok record) :
      r'.lookupOid oid = .ok record :=
    h.exactLookup_oid.mono h'.exactLookup_oid longer.subset found
  constructor
  case routes => exact fun _ _ _ => routes
  case owner =>
    intro consistent k w record howner w'
    -- the old adapters say in `w'` what they said in `w`, so the key has its owner there too
    rw [steady_owner consistent k w w'] at howner
    refine ⟨routes howner, ?_⟩
    rw [(routes howner).owner, howner]
  case lookupName =>
    intro name record found
    exact h.exactLookup_name.mono h'.exactLookup_name longer.subset found
  case lookupOid => exact fun _ _ => lookupOid
  case lookupScheme =>
    intro scheme record found
    exact h.exactLookup_scheme.mono h'.exactLookup_scheme longer.subset found
  case signer =>
    intro name a found
    -- the tables answer as the lookups do, so they go with them
    exact (h.exactLookup_name.mirrors h.signer_eq).mono (h'.exactLookup_name.mirrors h'.signer_eq)
      longer.subset found
  case verifier =>
    intro scheme a found
    exact (h.exactLookup_scheme.mirrors h.verifier_eq).mono
      (h'.exactLookup_scheme.mirrors h'.verifier_eq) longer.subset found
  case parsePublicKey =>
    intro info record found
    rw [Registry.parsePublicKey, Registry.parsePublicKey, found, lookupOid found]
  case readPrivateKey =>
    intro info record found
    rw [Registry.readPrivateKey, Registry.readPrivateKey, found, lookupOid found]
  case readPublicKey =>
    intro info parameters record found
    rw [Registry.readPublicKey, Registry.readPublicKey, found, lookupOid found]

/-! ### Registrations -/

/-- An accepted registration leaves the records and puts one behind them. -/
theorem isPrefix_of_register {identity : Identity} {adapter : Adapter ω β} {world : ω}
    (accepted : ((r.register identity adapter).run world).value = .ok r') :
    r.records <+: r'.records := by
  obtain ⟨-, rfl⟩ := value_run_register_eq_ok_iff.mp accepted
  exact List.prefix_append _ _

/-- The call asks for a registration, not for an override. -/
def Change.IsRegistration : Change ω β → Prop
  | .register .. => True
  | .override .. => False

/-- Whether it is accepted or refused, a call for a registration takes no record away. -/
theorem isPrefix_after {change : Change ω β} (h : change.IsRegistration) (world : ω) :
    r.records <+: (r.after (change, world)).records := by
  cases change with
  | override identity adapter => exact h.elim
  | register identity adapter =>
    unfold after
    dsimp only
    split
    · next r' accepted => exact isPrefix_of_register accepted
    · -- a refusal leaves the records as they are
      exact List.prefix_rfl

theorem isPrefix_ofHistory_append (history : List (Change ω β × ω)) {later : List (Change ω β × ω)}
    (h : ∀ call ∈ later, call.1.IsRegistration) :
    (ofHistory history).records <+: (ofHistory (history ++ later)).records := by
  induction later using List.reverseRecOn with
  | nil => simp only [List.append_nil, List.prefix_rfl]
  | append_singleton later call ih =>
    obtain ⟨hlater, hcall⟩ := List.forall_mem_append.mp h
    rw [← List.append_assoc, ofHistory_append_singleton]
    -- what was longer after the earlier calls gets no shorter by the last
    exact (ih hlater).trans (isPrefix_after (hcall call (List.mem_singleton_self call)) call.2)

/-- **A registration disturbs nobody**, after any history: neither one that is accepted nor any
number of registrations, accepted or refused, with no override between them. -/
theorem registrations_disturb_nobody (history : List (Change ω β × ω)) :
    (∀ identity adapter world r',
      (((ofHistory history).register identity adapter).run world).value = .ok r' →
        Undisturbed (ofHistory history) r') ∧
      ∀ later : List (Change ω β × ω), (∀ call ∈ later, call.1.IsRegistration) →
        Undisturbed (ofHistory history) (ofHistory (history ++ later)) := by
  have h : (ofHistory history).Reachable := reachable_ofHistory history
  constructor
  · intro identity adapter world r' accepted
    exact h.undisturbed_of_isPrefix (h.register identity adapter world accepted)
      (isPrefix_of_register accepted)
  · intro later hlater
    exact h.undisturbed_of_isPrefix (reachable_ofHistory _)
      (isPrefix_ofHistory_append history hlater)

/-- An adapter that claims every key comes too late for one that has an owner. -/
theorem late_greedy_disturbs_nobody :
    let modest : Adapter Unit Sample.KeyBody :=
      Sample.HashScheme.adapter id ⟨⟨[0x2a, 0x03, 0x04]⟩, .flat⟩ "modest"
    let greedy : Adapter Unit Sample.KeyBody := Sample.AdapterScript.adapter ⟨[], some true, none⟩
      (Sample.HashScheme.adapter id ⟨⟨[0x2a, 0x03, 0x05]⟩, .flat⟩ "greedy")
    let record : Record Unit Sample.KeyBody :=
      ⟨⟨"A", ⟨[0x2a, 0x03, 0x04]⟩, ⟨1⟩⟩, modest, .flat⟩
    let history : List (Change Unit Sample.KeyBody × Unit) :=
      [(.register record.toIdentity modest, ())]
    let late : Change Unit Sample.KeyBody × Unit :=
      (.register ⟨"B", ⟨[0x2a, 0x03, 0x05]⟩, ⟨2⟩⟩ greedy, ())
    let k := (Sample.HashScheme.key record.oid true []).untagged
    (ofHistory (history ++ [late])).size = 2 ∧
      ((ofHistory (history ++ [late])).owner k).run () =
        ⟨.ok record, (), [.adapter "modest" .supports]⟩ ∧
      (ofHistory (history ++ [late])).lookupName "A" = .ok record := by
  intro modest greedy record history late k
  -- `A` owns the key before `B` comes, so `B` is never asked about it
  have undisturbed := (registrations_disturb_nobody history).2 [late]
    (fun _ hcall => by rw [List.mem_singleton.mp hcall]; trivial)
  refine ⟨rfl, ?_, undisturbed.lookupName "A" record rfl⟩
  rw [(undisturbed.routes k () record rfl).owner]
  rfl

end SignatureCatalog.Registry
