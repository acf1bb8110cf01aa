import SignatureCatalog.Proofs.Provider.Holdings
import SignatureCatalog.Proofs.Provider.Transcript
import SignatureCatalog.Provider.Publisher
import SignatureCatalog.Provider.Table
import SignatureCatalog.Sample.HashScheme

/-!
# Leniency is tolerance and nothing else

Publishing under two leniencies is compared here run against run, for any provider: it may answer
anything, and it may keep whatever state it likes.

* `allow` and `warn` differ in what they log. What is done under `allow` *is* what is done under
  `warn`, with the warnings about aliases taken out (`Provider.muted_configure`), and that is an
  equation between acts: it covers calls, answers, results and states in one.
* `strict` asks about aliases before it writes, and fails where `warn` goes on. So the two can be
  compared only where `strict` succeeds, and only if nobody is affected by being asked. A run under
  `strict` that succeeds then *leads* one under `warn` (`Act.Leads`): the second makes the same
  calls but for the questions, gets the same answers, and has nothing to warn about, because the
  branch that warns is the one in which `strict` would have failed.

What it takes that nobody is affected is `Provider.ReadsUnnoticed`. It is stated for a relation
`same` between states of the provider which no call tells apart. If reading leaves the state as it
is, `same` can be equality. A provider that counts or logs how often it is read is covered too, by a
relation that ignores the count.
-/

namespace SignatureCatalog

variable {π ω β α γ : Type}

/-! ### Marks that depend on the leniency -/

namespace Mark

/-- The warning that an alias stays as it is. -/
def isKeptAlias : Mark → Bool
  | .event (.keepingAlias ..) => true
  | _ => false

/-- A question about an alias. -/
def isAliasCheck : Mark → Bool
  | .provider (.entry key) => key.isAlias
  | .provider (.isRemovable key) => key.isAlias
  | _ => false

end Mark

/-! ### `allow` and `warn` -/

namespace Act

/-- The same act, without warnings about aliases. -/
def muted (act : Act Mark π α) : Act Mark π α :=
  act.leaving fun m => !m.isKeptAlias

theorem muted_pure (a : α) : (pure a : Act Mark π α).muted = pure a := rfl

/-- Asking is no warning, -/
theorem muted_ask (request : ProviderRequest) (step : π → α × π) :
    (Provider.ask request step).muted = Provider.ask request step := rfl

/-- and neither is that a record is published. -/
theorem muted_log_publishing (record : Identity) (wellKnown? : Option String) :
    (log (.publishing record wellKnown?) : Act Mark π Unit).muted =
      log (.publishing record wellKnown?) := rfl

theorem muted_log_keepingAlias (slot : Slot) (name : String) :
    (log (.keepingAlias slot name) : Act Mark π Unit).muted = pure () := rfl

theorem muted_bind (act : Act Mark π α) (next : α → Act Mark π γ) :
    (act >>= next).muted = act.muted >>= fun a => (next a).muted := by
  ext s
  -- taking marks out does not touch values, so what follows is the same act
  show Outcome.mk _ _ (List.filter _ (_ ++ _)) = _
  rw [List.filter_append]
  rfl

theorem muted_andThen {ε : Type} (act : Act Mark π (Except ε α))
    (next : α → Act Mark π (Except ε γ)) :
    (act.andThen next).muted = act.muted.andThen fun a => (next a).muted := by
  unfold andThen
  rw [muted_bind]
  congr 1
  funext result
  cases result with
  | ok => rfl
  | error => rfl

end Act

namespace Provider

open Act

variable (p : Provider π ω β)

theorem muted_isStuck (key : ProviderKey) : (p.isStuck key).muted = p.isStuck key := by
  unfold isStuck
  rw [muted_bind, askEntry, muted_ask]
  congr 1
  funext e?
  cases e? with
  | none => rfl
  | some e => rw [muted_bind, askIsRemovable, muted_ask]; rfl

/-- Where nobody is strict, the check only looks at the engine. -/
theorem muted_checkConflicts (engine : ProviderKey) (aliases : List ProviderKey) :
    (p.checkConflicts .warn engine aliases).muted = p.checkConflicts .allow engine aliases := by
  unfold checkConflicts
  rw [muted_bind, muted_isStuck]
  congr 1
  funext stuck
  -- what is left of the check is pure: neither of the two goes on to the aliases
  cases stuck with
  | true => rfl
  | false => rfl

theorem muted_replace (key : ProviderKey) (e : ProviderEntry ω β) :
    (p.replace key e).muted = p.replace key e := by
  unfold replace
  rw [muted_andThen, askRemove, muted_ask]
  rfl

/-- The one place where the two leniencies part: the warning. -/
theorem muted_addAlias (key : ProviderKey) (name : String) :
    (p.addAlias .warn key name).muted = p.addAlias .allow key name := by
  unfold addAlias
  rw [muted_bind, askAdd, muted_ask]
  congr 1
  funext result
  cases result with
  | ok => rfl
  | error e =>
    cases e with
    | duplicateRegistration slot =>
      dsimp only
      -- the only error that is passed over here, and the only one that is warned of
      rw [muted_bind, muted_log_keepingAlias, pure_bind, muted_pure]
    | _ => rfl

theorem muted_replaceAlias (name : String) (key : ProviderKey) :
    (p.replaceAlias .warn name key).muted = p.replaceAlias .allow name key := by
  unfold replaceAlias
  rw [muted_bind, askRemove, muted_ask]
  congr 1
  funext result
  cases result with
  | ok => exact p.muted_addAlias key name
  | error e =>
    cases e with
    | removalUnsupported slot => exact p.muted_addAlias key name
    -- any other error comes back under both
    | _ => rfl

theorem muted_replaceAliases (name : String) (keys : List ProviderKey) :
    (p.replaceAliases .warn name keys).muted = p.replaceAliases .allow name keys := by
  induction keys with
  | nil => rfl
  | cons key rest ih =>
    unfold replaceAliases
    rw [muted_andThen, muted_replaceAlias, ih]

theorem muted_replaceConverter (oid : Oid) (adapter : Adapter ω β) :
    (p.replaceConverter oid adapter).muted = p.replaceConverter oid adapter := by
  unfold replaceConverter
  rw [muted_bind, askRemoveConverter, muted_ask]
  rfl

theorem muted_publish (record : Record ω β) :
    (p.publish .warn record).muted = p.publish .allow record := by
  unfold publish
  rw [muted_bind, muted_log_publishing]
  congr 1
  funext _
  simp only [muted_andThen, muted_checkConflicts, muted_replace, muted_replaceAliases,
    muted_replaceConverter]

theorem muted_publishAll (records : List (Record ω β)) :
    (p.publishAll .warn records).muted = p.publishAll .allow records := by
  induction records with
  | nil => rfl
  | cons record rest ih =>
    unfold publishAll
    -- publishing one record after another only chains acts, and muting goes through a chain
    rw [muted_andThen, muted_publish, ih]

/-- **What is done under `allow` is what is done under `warn`, without the warnings.** -/
theorem muted_configure (r : Registry ω β) :
    (p.configure .warn r).muted = p.configure .allow r :=
  p.muted_publishAll r.records

end Provider

/-! ### States that no call tells apart -/

/-- Two steps answer the same, and leave states that are the same. -/
def StepsAlike (same : π → π → Prop) (done done' : α × π) : Prop :=
  done'.1 = done.1 ∧ same done.2 done'.2

/-- **Nobody notices being read.** No call tells states apart that are the `same`, and reading a
state leaves one that is the same. -/
structure Provider.ReadsUnnoticed (p : Provider π ω β) (same : π → π → Prop) : Prop where
  equivalence : Equivalence same
  entry : ∀ key s s', same s s' → StepsAlike same (p.entry key s) (p.entry key s')
  isRemovable : ∀ key s s', same s s' →
    StepsAlike same (p.isRemovable key s) (p.isRemovable key s')
  addEntry : ∀ key e s s', same s s' → StepsAlike same (p.addEntry key e s) (p.addEntry key e s')
  removeEntry : ∀ key s s', same s s' →
    StepsAlike same (p.removeEntry key s) (p.removeEntry key s')
  addConverter : ∀ oid adapter s s', same s s' →
    StepsAlike same (p.addConverter oid adapter s) (p.addConverter oid adapter s')
  removeConverter : ∀ oid s s', same s s' →
    StepsAlike same (p.removeConverter oid s) (p.removeConverter oid s')
  /-- Being asked for an entry goes unnoticed, -/
  entry_unnoticed : ∀ key s, same (p.entry key s).2 s
  /-- and so does being asked what can be removed. -/
  isRemovable_unnoticed : ∀ key s, same (p.isRemovable key s).2 s

/-- Where reading leaves the state as it is, states are the same only if they are equal. -/
theorem Provider.readsUnnoticed_eq_iff {p : Provider π ω β} :
    p.ReadsUnnoticed Eq ↔
      (∀ key s, (p.entry key s).2 = s) ∧ ∀ key s, (p.isRemovable key s).2 = s := by
  constructor
  · intro reads
    exact ⟨reads.entry_unnoticed, reads.isRemovable_unnoticed⟩
  · rintro ⟨hentry, hremovable⟩
    -- what is done in one state is done in one way
    have alike {α : Type} (step : π → α × π) (s s' : π) (h : s = s') :
        StepsAlike Eq (step s) (step s') := by
      subst h
      exact ⟨rfl, rfl⟩
    exact {
      equivalence := eq_equivalence
      entry := fun key => alike (p.entry key)
      isRemovable := fun key => alike (p.isRemovable key)
      addEntry := fun key e => alike (p.addEntry key e)
      removeEntry := fun key => alike (p.removeEntry key)
      addConverter := fun oid adapter => alike (p.addConverter oid adapter)
      removeConverter := fun oid => alike (p.removeConverter oid)
      entry_unnoticed := hentry
      isRemovable_unnoticed := hremovable }

/-- Nobody notices that a provider is recorded: what has been asked so far decides nothing. -/
theorem Provider.ReadsUnnoticed.recording {p : Provider π ω β} {same : π → π → Prop}
    (reads : p.ReadsUnnoticed same) : p.recording.ReadsUnnoticed fun s s' => same s.1 s'.1 where
  equivalence := ⟨fun s => reads.equivalence.refl s.1, reads.equivalence.symm,
    reads.equivalence.trans⟩
  entry key s s' := reads.entry key s.1 s'.1
  isRemovable key s s' := reads.isRemovable key s.1 s'.1
  addEntry key e s s' := reads.addEntry key e s.1 s'.1
  removeEntry key s s' := reads.removeEntry key s.1 s'.1
  addConverter oid adapter s s' := reads.addConverter oid adapter s.1 s'.1
  removeConverter oid s s' := reads.removeConverter oid s.1 s'.1
  entry_unnoticed key s := reads.entry_unnoticed key s.1
  isRemovable_unnoticed key s := reads.isRemovable_unnoticed key s.1

/-- What an act comes to beside another one that asks about aliases as well: the same value and the
same state, the same marks but for the questions, and nothing to warn about. -/
structure Outcome.Matches (same : π → π → Prop) (checked plain : Outcome Mark π α) : Prop where
  value : plain.value = checked.value
  world : same checked.world plain.world
  marks : plain.marks = checked.marks.filter fun m => !m.isAliasCheck
  quiet : ∀ m ∈ plain.marks, m.isKeptAlias = false

theorem Outcome.Matches.append {same : π → π → Prop} {first first' : Outcome Mark π α}
    {second second' : Outcome Mark π γ} (h : first.Matches same first')
    (h' : second.Matches same second') :
    Outcome.Matches same ⟨second.value, second.world, first.marks ++ second.marks⟩
      ⟨second'.value, second'.world, first'.marks ++ second'.marks⟩ where
  value := h'.value
  world := h'.world
  marks := by
    rw [List.filter_append, ← h.marks, ← h'.marks]
  quiet := List.forall_mem_append.mpr ⟨h.quiet, h'.quiet⟩

namespace Act

/-- Where the first act yields a `good` value, the second comes to the same in every state that is
the same. Where the first does not, nothing is said of the second. -/
def Leads (same : π → π → Prop) (good : α → Prop) (act act' : Act Mark π α) : Prop :=
  ∀ s s', same s s' → good (act.run s).value → (act.run s).Matches same (act'.run s')

/-- An act that goes unnoticed and asks about aliases only. -/
def IsUnnoticed (same : π → π → Prop) (act : Act Mark π α) : Prop :=
  ∀ s, same (act.run s).world s ∧ ∀ m ∈ (act.run s).marks, m.isAliasCheck = true

/-- Every value is good. -/
def Anyhow (_ : α) : Prop := True

/-- The results that are good. -/
def Succeeded {ε : Type} (result : Except ε α) : Prop :=
  ∃ a, result = .ok a

variable {same : π → π → Prop} {act act' : Act Mark π α}

theorem leads_pure {good : α → Prop} (a : α) :
    Leads same good (pure a : Act Mark π α) (pure a) := by
  intro s s' hsame _
  exact ⟨rfl, hsame, rfl, nofun⟩

/-- After a value that is not good nothing has to match. -/
theorem leads_of_not_good {good : α → Prop} {a : α} (h : ¬good a) :
    Leads same good (pure a) act' :=
  fun _ _ _ hgood => absurd hgood h

theorem leads_log {e : Event} (h : (Mark.event e).isKeptAlias = false) :
    Leads same Anyhow (log e : Act Mark π Unit) (log e) := by
  intro s s' hsame _
  exact ⟨rfl, hsame, rfl, List.forall_mem_singleton.mpr h⟩

theorem leads_ask {good : α → Prop} {request : ProviderRequest} {step : π → α × π}
    (hrequest : (Mark.provider request).isAliasCheck = false)
    (hstep : ∀ s s', same s s' → StepsAlike same (step s) (step s')) :
    Leads same good (Provider.ask request step) (Provider.ask request step) := by
  intro s s' hsame _
  obtain ⟨hvalue, hworld⟩ := hstep s s' hsame
  -- the mark of the request is on both sides, and it is no question about an alias
  rw [Provider.run_ask, Provider.run_ask]
  refine ⟨hvalue, hworld, ?_, List.forall_mem_singleton.mpr rfl⟩
  dsimp only
  rw [List.filter_cons_of_pos (by rw [hrequest]; rfl), List.filter_nil]

theorem Leads.bind {good : γ → Prop} {next next' : α → Act Mark π γ}
    (h : Leads same Anyhow act act') (hnext : ∀ a, Leads same good (next a) (next' a)) :
    Leads same good (act >>= next) (act' >>= next') := by
  intro s s' hsame hgood
  have first := h s s' hsame trivial
  -- the first part has to match whatever it yields: whether the whole is good is known only of the
  -- second
  have second := hnext _ _ _ first.world hgood
  rw [run_bind, run_bind]
  dsimp only
  rw [first.value]
  exact first.append second

/-- What follows has to match only where the first part succeeds, since otherwise the whole does
not. -/
theorem Leads.andThen {ε : Type} {act act' : Act Mark π (Except ε α)}
    {next next' : α → Act Mark π (Except ε γ)} (h : Leads same Succeeded act act')
    (hnext : ∀ a, Leads same Succeeded (next a) (next' a)) :
    Leads same Succeeded (act.andThen next) (act'.andThen next') := by
  intro s s' hsame hgood
  cases hvalue : (act.run s).value with
  | error e =>
    rw [run_andThen_of_error hvalue] at hgood
    -- then the whole is that error, and was not to match anything
    obtain ⟨a, ha⟩ := hgood
    cases ha
  | ok a =>
    have first := h s s' hsame ⟨a, hvalue⟩
    rw [run_andThen_of_ok hvalue] at hgood ⊢
    rw [run_andThen_of_ok (first.value.trans hvalue)]
    exact first.append (hnext a _ _ first.world hgood)

/-- What goes unnoticed may come first on one side only. -/
theorem IsUnnoticed.leads_bind {good : γ → Prop} {next : α → Act Mark π γ} {act' : Act Mark π γ}
    (equivalence : Equivalence same) (h : IsUnnoticed same act)
    (hnext : ∀ a, Leads same good (next a) act') : Leads same good (act >>= next) act' := by
  intro s s' hsame hgood
  obtain ⟨hworld, hmarks⟩ := h s
  rw [run_bind] at hgood ⊢
  have second := hnext _ _ _ (equivalence.trans hworld hsame) hgood
  -- the questions are all that has been marked so far, and the marks compared leave them out
  have hnone : (act.run s).marks.filter (fun m => !m.isAliasCheck) = [] := by
    refine List.filter_eq_nil_iff.mpr fun m hm => ?_
    rw [hmarks m hm]
    exact Bool.false_ne_true
  refine ⟨second.value, second.world, ?_, second.quiet⟩
  rw [second.marks, List.filter_append, hnone, List.nil_append]

theorem isUnnoticed_pure (equivalence : Equivalence same) (a : α) :
    IsUnnoticed same (pure a : Act Mark π α) :=
  fun s => ⟨equivalence.refl s, nofun⟩

theorem isUnnoticed_ask {request : ProviderRequest} {step : π → α × π}
    (hrequest : (Mark.provider request).isAliasCheck = true)
    (hstep : ∀ s, same (step s).2 s) : IsUnnoticed same (Provider.ask request step) := by
  intro s
  rw [Provider.run_ask]
  exact ⟨hstep s, List.forall_mem_singleton.mpr hrequest⟩

theorem IsUnnoticed.bind {next : α → Act Mark π γ} (equivalence : Equivalence same)
    (h : IsUnnoticed same act) (hnext : ∀ a, IsUnnoticed same (next a)) :
    IsUnnoticed same (act >>= next) := by
  intro s
  obtain ⟨hworld, hmarks⟩ := h s
  obtain ⟨hworld', hmarks'⟩ := hnext (act.run s).value (act.run s).world
  rw [run_bind]
  exact ⟨equivalence.trans hworld' hworld, List.forall_mem_append.mpr ⟨hmarks, hmarks'⟩⟩

end Act

/-! ### `strict` and `warn` -/

namespace Provider.ReadsUnnoticed

open Act

variable {p : Provider π ω β} {same : π → π → Prop} (reads : p.ReadsUnnoticed same)

include reads

/-- Whether the engine is in the way is asked under every leniency. -/
theorem leads_isStuck {key : ProviderKey} (hkey : key.isAlias = false) :
    Leads same Anyhow (p.isStuck key) (p.isStuck key) := by
  have hentry : (Mark.provider (.entry key)).isAliasCheck = false := hkey
  have hremovable : (Mark.provider (.isRemovable key)).isAliasCheck = false := hkey
  apply Leads.bind (leads_ask hentry (reads.entry key))
  intro e?
  cases e? with
  | none => exact leads_pure false
  | some e =>
    apply Leads.bind (leads_ask hremovable (reads.isRemovable key))
    intro removable
    exact leads_pure (!removable)

/-- Whether an alias is in the way is asked under `strict` only, and nobody notices. -/
theorem isUnnoticed_isStuck {key : ProviderKey} (hkey : key.isAlias = true) :
    IsUnnoticed same (p.isStuck key) := by
  have hentry : (Mark.provider (.entry key)).isAliasCheck = true := hkey
  have hremovable : (Mark.provider (.isRemovable key)).isAliasCheck = true := hkey
  apply IsUnnoticed.bind reads.equivalence (isUnnoticed_ask hentry (reads.entry_unnoticed key))
  intro e?
  cases e? with
  | none => exact isUnnoticed_pure reads.equivalence false
  | some e =>
    apply IsUnnoticed.bind reads.equivalence
      (isUnnoticed_ask hremovable (reads.isRemovable_unnoticed key))
    intro removable
    exact isUnnoticed_pure reads.equivalence (!removable)

theorem isUnnoticed_firstStuck {keys : List ProviderKey}
    (hkeys : ∀ key ∈ keys, key.isAlias = true) : IsUnnoticed same (p.firstStuck keys) := by
  -- along the keys, since the search ends at the first one that is stuck
  induction keys with
  | nil => exact isUnnoticed_pure reads.equivalence none
  | cons key rest ih =>
    obtain ⟨hkey, hrest⟩ := List.forall_mem_cons.mp hkeys
    apply IsUnnoticed.bind reads.equivalence (reads.isUnnoticed_isStuck hkey)
    intro stuck
    cases stuck with
    | true => exact isUnnoticed_pure reads.equivalence (some key)
    | false => exact ih hrest

theorem leads_checkConflicts {engine : ProviderKey} {aliases : List ProviderKey}
    (hengine : engine.isAlias = false) (haliases : ∀ key ∈ aliases, key.isAlias = true) :
    Leads same Succeeded (p.checkConflicts .strict engine aliases)
      (p.checkConflicts .warn engine aliases) := by
  apply Leads.bind (reads.leads_isStuck hengine)
  intro stuck
  cases stuck with
  | true =>
    -- an engine that cannot be replaced is an error on both sides
    exact leads_of_not_good nofun
  | false =>
    -- the search for aliases is on one side only
    apply IsUnnoticed.leads_bind reads.equivalence (reads.isUnnoticed_firstStuck haliases)
    intro key?
    cases key? with
    | none => exact leads_pure _
    | some key => exact leads_of_not_good nofun

theorem leads_replace (key : ProviderKey) (e : ProviderEntry ω β) :
    Leads same Succeeded (p.replace key e) (p.replace key e) := by
  apply Leads.andThen (leads_ask rfl (reads.removeEntry key))
  intro e?
  exact leads_ask rfl (reads.addEntry key e)

/-- An alias that is taken is where `strict` fails and `warn` warns. -/
theorem leads_addAlias (key : ProviderKey) (name : String) :
    Leads same Succeeded (p.addAlias .strict key name) (p.addAlias .warn key name) := by
  apply Leads.bind (leads_ask rfl (reads.addEntry key (.alias name)))
  intro result
  cases result with
  | ok => exact leads_pure _
  | error e =>
    -- whatever the error, the first run does not succeed
    cases e <;> exact leads_of_not_good nofun

theorem leads_replaceAlias (name : String) (key : ProviderKey) :
    Leads same Succeeded (p.replaceAlias .strict name key) (p.replaceAlias .warn name key) := by
  apply Leads.bind (leads_ask rfl (reads.removeEntry key))
  intro result
  cases result with
  | ok => exact reads.leads_addAlias key name
  | error e =>
    cases e with
    -- what is not removed may still be in the way, and that shows at the addition
    | removalUnsupported slot => exact reads.leads_addAlias key name
    | _ => exact leads_of_not_good nofun

theorem leads_replaceAliases (name : String) (keys : List ProviderKey) :
    Leads same Succeeded (p.replaceAliases .strict name keys)
      (p.replaceAliases .warn name keys) := by
  induction keys with
  | nil => exact leads_pure _
  | cons key rest ih => exact (reads.leads_replaceAlias name key).andThen fun _ => ih

theorem leads_replaceConverter (oid : Oid) (adapter : Adapter ω β) :
    Leads same Succeeded (p.replaceConverter oid adapter) (p.replaceConverter oid adapter) := by
  apply Leads.bind (leads_ask rfl (reads.removeConverter oid))
  intro adapter?
  exact leads_ask rfl (reads.addConverter oid adapter)

/-- **Step.** Where a record is published under `strict`, it is published in the same way under
`warn`. -/
theorem leads_publish (record : Record ω β) :
    Leads same Succeeded (p.publish .strict record) (p.publish .warn record) := by
  have haliases : ∀ key ∈ record.aliasKeys, key.isAlias = true := fun _ =>
    Record.isAlias_of_mem_aliasKeys
  -- stage by stage: only the check differs, and after it both do the same
  apply Leads.bind (leads_log rfl)
  intro _
  apply Leads.andThen (reads.leads_checkConflicts rfl haliases)
  intro _
  apply Leads.andThen (reads.leads_replace record.engineKey (.engine (.ofRecord record)))
  intro _
  apply Leads.andThen (reads.leads_replaceAliases record.name record.aliasKeys)
  intro _
  exact reads.leads_replaceConverter record.oid record.adapter

/-- **Run.** So it is for records one after the other: up to each of them the two runs have left
states that are the same. -/
theorem leads_publishAll (records : List (Record ω β)) :
    Leads same Succeeded (p.publishAll .strict records) (p.publishAll .warn records) := by
  induction records with
  | nil => exact leads_pure _
  | cons record rest ih => exact (reads.leads_publish record).andThen fun _ => ih

end Provider.ReadsUnnoticed

/-- Marks that are no warnings tell of no alias that stays as it is. -/
theorem keepingAlias_notMem_events {marks : List Mark} (h : ∀ m ∈ marks, m.isKeptAlias = false)
    (slot : Slot) (name : String) : .keepingAlias slot name ∉ events marks := by
  intro hmem
  obtain ⟨m, hm, hevent⟩ := List.mem_filterMap.mp hmem
  have hquiet := h m hm
  cases m with
  | event e =>
    obtain rfl := Option.some.inj hevent
    cases hquiet
  | adapter | provider => cases hevent

/-- **Leniency changes nothing but tolerance**, for any provider and any registry. Under `allow` and
under `warn` the provider gets the same calls and gives the same answers, the result and the state
are the same, and so are all marks but the warnings about aliases. And where publishing succeeds
under `strict`, it does so under `warn`, from the same state to the same state, with the same calls
except that no alias is asked about, and with no such warning. -/
theorem Provider.leniency_only_tolerates (p : Provider π ω β) (r : Registry ω β) :
    (∀ s,
      let allowed := (p.configure .allow r).run s
      let warned := (p.configure .warn r).run s
      allowed.value = warned.value ∧ allowed.world = warned.world ∧
        allowed.marks = warned.marks.filter (fun m => !m.isKeptAlias) ∧
        ((p.recording.configure .allow r).run (s, [])).world =
          ((p.recording.configure .warn r).run (s, [])).world) ∧
      ∀ same, p.ReadsUnnoticed same → ∀ s,
        let strict := (p.configure .strict r).run s
        let warned := (p.configure .warn r).run s
        strict.value = .ok () →
          warned.value = .ok () ∧ same strict.world warned.world ∧
            warned.marks = strict.marks.filter (fun m => !m.isAliasCheck) ∧
            ∀ slot name, .keepingAlias slot name ∉ events warned.marks := by
  constructor
  · intro s allowed warned
    -- both the plain run and the recorded one, since muting is an equation between acts
    have hrun : allowed = ((p.configure .warn r).muted).run s := by
      rw [p.muted_configure r]
    have hrecorded := p.recording.muted_configure r
    rw [hrun, ← hrecorded]
    exact ⟨rfl, rfl, rfl, rfl⟩
  · intro same reads s strict warned hok
    have run : strict.Matches same warned :=
      reads.leads_publishAll r.records s s (reads.equivalence.refl s) ⟨(), hok⟩
    exact ⟨run.value.trans hok, run.world, run.marks, keepingAlias_notMem_events run.quiet⟩

/-- A table that keeps track of its calls notices being read, but nobody else does. A record is
published into it under `strict` over an alias that may be replaced, and under `warn` it is again,
with the same table in the end and nine questions less: one about each alias, and one about the
removal of the alias that is there. -/
theorem Provider.leniency_only_tolerates_alias_replaced :
    let record : Record Unit Sample.KeyBody :=
      ⟨⟨"XYZ-SIG", ⟨[0x2a, 0x03, 0x04]⟩, ⟨0xfeb3⟩⟩,
        Sample.HashScheme.adapter id ⟨⟨[0x2a, 0x03, 0x04]⟩, .flat⟩ "xyz", .flat⟩
    let r := Registry.ofRecords [record]
    let key := ProviderKey.alias .keyFactory record.oid .prefixed
    let t : ProviderTable Unit Sample.KeyBody :=
      ((ProviderTable.empty false).addEntry key (.alias "OLD-SIG")).2
    let p := (ProviderTable.provider (ω := Unit) (β := Sample.KeyBody)).recording
    let strict := (p.configure .strict r).run (t, [])
    let warned := (p.configure .warn r).run (t, [])
    p.ReadsUnnoticed (fun s s' => s.1 = s'.1) ∧ strict.value = .ok () ∧ warned.value = .ok () ∧
      strict.world.1 = warned.world.1 ∧
      strict.world.2.length = warned.world.2.length + 9 ∧
      ∀ slot name, .keepingAlias slot name ∉ events warned.marks := by
  intro record r key t p strict warned
  -- the table itself does not change when it is read; what has been recorded is left out
  have reads : p.ReadsUnnoticed (fun s s' => s.1 = s'.1) :=
    (Provider.readsUnnoticed_eq_iff.mpr ⟨fun _ _ => rfl, fun _ _ => rfl⟩).recording
  have hok : strict.value = .ok () := by decide +kernel
  obtain ⟨hwarned, hworld, -, hquiet⟩ := (leniency_only_tolerates p r).2 _ reads (t, []) hok
  have hlength : strict.world.2.length = warned.world.2.length + 9 := by decide +kernel
  exact ⟨reads, hok, hwarned, hworld, hlength, hquiet⟩

end SignatureCatalog
