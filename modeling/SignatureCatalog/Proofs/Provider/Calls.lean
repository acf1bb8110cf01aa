import SignatureCatalog.Proofs.Provider.Holdings
import SignatureCatalog.Proofs.Provider.Transcript
import SignatureCatalog.Provider.Publisher

/-!
# The calls of publishing

Publishing a record has two parts, and what a provider answers matters only through the calls. The
*check* goes over the keys whose entries have to be replaceable, up to the first whose entry is not
(`Searches`). The *writes* are twenty, laid down by the record (`Record.writes`), and are carried
out in their order up to the first that fails (`CarriesOut`). A failure that is tolerated
(`ProviderCall.IsTolerated`) counts as none.

`Provider.records_publish` says that the calls of `Provider.publish` are these, whatever the
provider does, and `Provider.records_publishAll` that records are published one after the other, up
to the first that fails. Each part of publishing has a lemma of its own, in the order in which the
parts build on each other.
-/

namespace SignatureCatalog

variable {π ω β : Type}

/-! ### Failures -/

namespace ProviderCall

/-- The failures that publishing passes over. -/
inductive IsTolerated (leniency : Leniency) : ProviderCall ω β → Prop
  /-- The provider does not let go of an alias. -/
  | remove {key : ProviderKey} {slot : Slot} : key.isAlias = true →
      IsTolerated leniency (.remove key (.error (.removalUnsupported slot)))
  /-- An alias is taken, and nobody has asked to be strict about it. -/
  | add {key : ProviderKey} {e : ProviderEntry ω β} {slot : Slot} : key.isAlias = true →
      leniency ≠ .strict → IsTolerated leniency (.add key e (.error (.duplicateRegistration slot)))

/-- A failure that publishing does not pass over. -/
def IsFatal (leniency : Leniency) (c : ProviderCall ω β) (e : Error) : Prop :=
  c.failure? = some e ∧ ¬c.IsTolerated leniency

variable {leniency : Leniency} {c : ProviderCall ω β}

/-- Only failures are tolerated, -/
theorem not_isTolerated_of_failure? (h : c.failure? = none) : ¬c.IsTolerated leniency := by
  rintro (_ | _)
  · cases h
  · cases h

/-- and only where aliases are concerned. -/
theorem IsTolerated.exists_alias (h : c.IsTolerated leniency) :
    ∃ key, key.isAlias = true ∧ (c.request = .remove key ∨ c.request = .add key) := by
  cases h with
  | remove halias => exact ⟨_, halias, .inl rfl⟩
  | add halias _ => exact ⟨_, halias, .inr rfl⟩

theorem not_isTolerated_of_request {key : ProviderKey} (hkey : key.isAlias = false)
    (hrequest : c.request = .remove key ∨ c.request = .add key) : ¬c.IsTolerated leniency := by
  intro h
  cases h with
  | remove halias | add halias =>
    rcases hrequest with hrequest | hrequest <;> cases hrequest
    rw [halias] at hkey
    cases hkey

theorem not_isFatal_of_failure? (h : c.failure? = none) (e : Error) : ¬c.IsFatal leniency e := by
  intro hfatal
  rw [hfatal.1] at h
  cases h

theorem not_isFatal_of_isTolerated (h : c.IsTolerated leniency) (e : Error) :
    ¬c.IsFatal leniency e :=
  fun hfatal => hfatal.2 h

end ProviderCall

/-! ### The check -/

/-- What is reported of a key whose entry cannot be replaced. -/
def ProviderKey.obstruction (key : ProviderKey) : Error :=
  if key.isAlias then .duplicateRegistration (.entry key) else .removalUnsupported (.entry key)

/-- The calls that tell whether a key is taken and cannot be cleared, by the provider's word. -/
inductive Inspects (key : ProviderKey) : Bool → List (ProviderCall ω β) → Prop
  | free : Inspects key false [.entry key none]
  | removable (e : ProviderEntry ω β) :
      Inspects key false [.entry key (some e), .isRemovable key true]
  | stuck (e : ProviderEntry ω β) :
      Inspects key true [.entry key (some e), .isRemovable key false]

/-- The calls that find the first of some keys that is taken and cannot be cleared. -/
inductive Searches : List ProviderKey → Option ProviderKey → List (ProviderCall ω β) → Prop
  | nil : Searches [] none []
  | stuck {key : ProviderKey} {rest : List ProviderKey} {calls : List (ProviderCall ω β)} :
      Inspects key true calls → Searches (key :: rest) (some key) calls
  | clear {key : ProviderKey} {rest : List ProviderKey} {key? : Option ProviderKey}
      {calls calls' : List (ProviderCall ω β)} :
      Inspects key false calls → Searches rest key? calls' →
      Searches (key :: rest) key? (calls ++ calls')

/-- The keys that are looked at before a record is written: its engine's, and under `strict` those
of its aliases. -/
def Record.checkedKeys (record : Record ω β) (leniency : Leniency) : List ProviderKey :=
  record.engineKey :: if leniency = .strict then record.aliasKeys else []

section

variable {keys : List ProviderKey} {key? : Option ProviderKey} {key : ProviderKey}
  {calls : List (ProviderCall ω β)}

theorem Inspects.write? {stuck : Bool} (h : Inspects key stuck calls) :
    ∀ c ∈ calls, c.write? = none := by
  cases h with
  | free => exact List.forall_mem_singleton.mpr rfl
  | removable | stuck => exact List.forall_mem_cons.mpr ⟨rfl, List.forall_mem_singleton.mpr rfl⟩

/-- The check changes nothing. -/
theorem Searches.write? (h : Searches keys key? calls) : ∀ c ∈ calls, c.write? = none := by
  induction h with
  | nil => exact fun c hc => absurd hc List.not_mem_nil
  | stuck hkey => exact hkey.write?
  | clear hkey _ ih => exact List.forall_mem_append.mpr ⟨hkey.write?, ih⟩

theorem Inspects.request {stuck : Bool} (h : Inspects key stuck calls) :
    (calls.map ProviderCall.request).Sublist [.entry key, .isRemovable key] := by
  cases h with
  | free => exact .cons_cons _ (List.nil_sublist _)
  | removable | stuck => exact .refl _

/-- The keys are looked at in their order. -/
theorem Searches.request (h : Searches keys key? calls) :
    (calls.map ProviderCall.request).Sublist
      (keys.flatMap fun key => [.entry key, .isRemovable key]) := by
  induction h with
  | nil => exact .refl _
  | stuck hkey =>
    rw [List.flatMap_cons]
    exact hkey.request.trans (List.sublist_append_left _ _)
  | clear hkey _ ih =>
    rw [List.map_append, List.flatMap_cons]
    exact hkey.request.append ih

theorem Searches.mem (h : Searches keys (some key) calls) : key ∈ keys := by
  -- the induction is on any search, so the key that is found has to be kept apart
  generalize hkey? : some key = key? at h
  induction h with
  | nil => cases hkey?
  | stuck =>
    rw [Option.some.inj hkey?]
    exact List.mem_cons_self
  | clear _ _ ih => exact List.mem_cons_of_mem _ (ih hkey?)

/-- Where a key is found, the check ends with the provider's word that it cannot be cleared. -/
theorem Searches.exists_last (h : Searches keys (some key) calls) :
    ∃ before, calls = before ++ [.isRemovable key false] := by
  generalize hkey? : some key = key? at h
  induction h with
  | nil => cases hkey?
  | stuck hstuck =>
    obtain rfl := Option.some.inj hkey?
    cases hstuck with
    | stuck e => exact ⟨[.entry key (some e)], rfl⟩
  | @clear _ _ _ calls _ _ _ ih =>
    obtain ⟨before, rfl⟩ := ih hkey?
    exact ⟨calls ++ before, (List.append_assoc _ _ _).symm⟩

end

/-! ### What is written -/

/-- Clears keys and puts the same alias under each. -/
def aliasWrites (name : String) (keys : List ProviderKey) : List (ProviderWrite ω β) :=
  keys.flatMap fun key => [.remove key, .add key (.alias name)]

/-- What is written for a record: its engine, its aliases and its converter, each behind the removal
of what is there. -/
def Record.writes (record : Record ω β) : List (ProviderWrite ω β) :=
  [.remove record.engineKey, .add record.engineKey (.engine (.ofRecord record))] ++
    (aliasWrites record.name record.aliasKeys ++
      [.removeConverter record.oid, .addConverter record.oid record.adapter])

/-- The calls that carry out writes, up to the first failure that is not tolerated. -/
inductive CarriesOut (leniency : Leniency) :
    List (ProviderWrite ω β) → Except Error Unit → List (ProviderCall ω β) → Prop
  | done : CarriesOut leniency [] (.ok ()) []
  | goesOn {w : ProviderWrite ω β} {rest : List (ProviderWrite ω β)} {c : ProviderCall ω β}
      {result : Except Error Unit} {calls : List (ProviderCall ω β)} :
      c.write? = some w → (∀ e, ¬c.IsFatal leniency e) → CarriesOut leniency rest result calls →
      CarriesOut leniency (w :: rest) result (c :: calls)
  | stops {w : ProviderWrite ω β} {rest : List (ProviderWrite ω β)} {c : ProviderCall ω β}
      {e : Error} : c.write? = some w → c.IsFatal leniency e →
      CarriesOut leniency (w :: rest) (.error e) [c]

namespace CarriesOut

variable {leniency : Leniency} {writes writes' : List (ProviderWrite ω β)}
  {result : Except Error Unit} {calls calls' : List (ProviderCall ω β)}

variable {w : ProviderWrite ω β} {c : ProviderCall ω β}

/-- A write that does not fail, and others. -/
theorem succeeds (hwrite : c.write? = some w) (hsuccess : c.failure? = none)
    (h : CarriesOut leniency writes result calls) :
    CarriesOut leniency (w :: writes) result (c :: calls) :=
  .goesOn hwrite (ProviderCall.not_isFatal_of_failure? hsuccess) h

/-- A write that may fail as it does, and others. -/
theorem passesOver (hwrite : c.write? = some w) (htolerated : c.IsTolerated leniency)
    (h : CarriesOut leniency writes result calls) :
    CarriesOut leniency (w :: writes) result (c :: calls) :=
  .goesOn hwrite (ProviderCall.not_isFatal_of_isTolerated htolerated) h

theorem append (h : CarriesOut leniency writes (.ok ()) calls)
    (h' : CarriesOut leniency writes' result calls') :
    CarriesOut leniency (writes ++ writes') result (calls ++ calls') := by
  generalize hok : (.ok () : Except Error Unit) = first at h
  induction h with
  -- writes that have all succeeded end with `done`, which is where the others begin
  | done => exact h'
  | goesOn hwrite hpasses _ ih => exact .goesOn hwrite hpasses (ih hok)
  | stops => cases hok

theorem append_of_error {e : Error} (h : CarriesOut leniency writes (.error e) calls) :
    CarriesOut leniency (writes ++ writes') (.error e) calls := by
  generalize herror : (.error e : Except Error Unit) = first at h ⊢
  induction h with
  | done => cases herror
  | goesOn hwrite hpasses _ ih => exact .goesOn hwrite hpasses (ih herror)
  | stops hwrite hfatal => exact .stops hwrite hfatal

/-- The calls carry out writes from the start of the list, whatever is told of them, -/
theorem map_initial {γ : Type} {f : ProviderCall ω β → γ} {g : ProviderWrite ω β → γ}
    (hfg : ∀ c w, c.write? = some w → f c = g w) (h : CarriesOut leniency writes result calls) :
    calls.map f <+: writes.map g := by
  -- a call for each write, in order, as far as it gets
  induction h with
  | done => exact List.prefix_rfl
  | goesOn hwrite _ _ ih =>
    rw [List.map_cons, List.map_cons, hfg _ _ hwrite]
    exact (List.prefix_cons_inj _).mpr ih
  | stops hwrite _ =>
    rw [List.map_singleton, List.map_cons, hfg _ _ hwrite]
    exact (List.prefix_cons_inj _).mpr List.nil_prefix

/-- and all of them if nothing fails. -/
theorem map_write?_of_ok (h : CarriesOut leniency writes (.ok ()) calls) :
    calls.map ProviderCall.write? = writes.map some := by
  generalize hok : (.ok () : Except Error Unit) = first at h
  induction h with
  | done => rfl
  | goesOn hwrite _ _ ih => rw [List.map_cons, List.map_cons, hwrite, ih hok]
  | stops => cases hok

end CarriesOut

/-! ### Publishing -/

/-- The calls that publish a record. -/
inductive Publishes (leniency : Leniency) (record : Record ω β) :
    Except Error Unit → List (ProviderCall ω β) → Prop
  | obstructed {key : ProviderKey} {calls : List (ProviderCall ω β)} :
      Searches (record.checkedKeys leniency) (some key) calls →
      Publishes leniency record (.error key.obstruction) calls
  | written {result : Except Error Unit} {checks calls : List (ProviderCall ω β)} :
      Searches (record.checkedKeys leniency) none checks →
      CarriesOut leniency record.writes result calls →
      Publishes leniency record result (checks ++ calls)

/-- The calls that publish records one after the other, up to the first that fails. -/
inductive PublishesAll (leniency : Leniency) :
    List (Record ω β) → Except Error Unit → List (ProviderCall ω β) → Prop
  | done : PublishesAll leniency [] (.ok ()) []
  | goesOn {record : Record ω β} {rest : List (Record ω β)} {result : Except Error Unit}
      {calls calls' : List (ProviderCall ω β)} :
      Publishes leniency record (.ok ()) calls → PublishesAll leniency rest result calls' →
      PublishesAll leniency (record :: rest) result (calls ++ calls')
  | stops {record : Record ω β} {rest : List (Record ω β)} {e : Error}
      {calls : List (ProviderCall ω β)} : Publishes leniency record (.error e) calls →
      PublishesAll leniency (record :: rest) (.error e) calls

/-- Writes in sequence. -/
theorem Act.Records.andThen_writes {leniency : Leniency} {act : Act Mark π (Except Error Unit)}
    {recorded : Act Mark (π × List (ProviderCall ω β)) (Except Error Unit)}
    {next : Unit → Act Mark π (Except Error Unit)}
    {next' : Unit → Act Mark (π × List (ProviderCall ω β)) (Except Error Unit)}
    {writes writes' : List (ProviderWrite ω β)}
    (h : act.Records recorded (CarriesOut leniency writes))
    (h' : (next ()).Records (next' ()) (CarriesOut leniency writes')) :
    (act.andThen next).Records (recorded.andThen next')
      (CarriesOut leniency (writes ++ writes')) := by
  refine .andThen (h.mono ?_)
  intro result calls hcalls
  cases result with
  | ok => exact h'.mono fun _ _ hcalls' => hcalls.append hcalls'
  -- after a failure there are no more calls, and the writes behind it are left
  | error e => exact hcalls.append_of_error

namespace Provider

open Act

variable (p : Provider π ω β) (leniency : Leniency)

theorem records_isStuck (key : ProviderKey) :
    Records (p.isStuck key) (p.recording.isStuck key) (Inspects key) := by
  -- two questions, and the second only about an entry that is there
  refine .bind (records_ask (fun _ => rfl) fun answer => ?_)
  cases answer with
  | none => exact records_pure .free
  | some e =>
    refine .bind (records_ask (fun _ => rfl) fun removable => ?_)
    cases removable with
    | true => exact records_pure (.removable e)
    | false => exact records_pure (.stuck e)

theorem records_firstStuck (keys : List ProviderKey) :
    Records (p.firstStuck keys) (p.recording.firstStuck keys) (Searches keys) := by
  induction keys with
  | nil => exact records_pure .nil
  | cons key rest ih =>
    refine .bind ((p.records_isStuck key).mono ?_)
    intro stuck calls hkey
    cases stuck with
    | true =>
      refine records_pure ?_
      rw [List.append_nil]
      exact .stuck hkey
    | false => exact ih.mono fun _ _ hrest => .clear hkey hrest

/-- The check goes over the keys that matter, and reports the first that is found. -/
theorem records_checkConflicts (record : Record ω β) :
    Records (p.checkConflicts leniency record.engineKey record.aliasKeys)
      (p.recording.checkConflicts leniency record.engineKey record.aliasKeys) fun result calls =>
        ∃ key?, Searches (record.checkedKeys leniency) key? calls ∧
          result = match key? with
            | some key => .error key.obstruction
            | none => .ok () := by
  refine .bind ((p.records_isStuck record.engineKey).mono ?_)
  intro stuck calls hengine
  cases stuck with
  | true =>
    refine records_pure ?_
    rw [List.append_nil]
    -- the engine's key is first, and found: no alias is looked at
    exact ⟨some record.engineKey, .stuck hengine, rfl⟩
  | false =>
    rw [if_neg Bool.false_ne_true, if_neg Bool.false_ne_true, Record.checkedKeys]
    split
    · refine .bind ((p.records_firstStuck record.aliasKeys).mono ?_)
      intro key? calls' haliases
      cases key? with
      | none =>
        refine records_pure ?_
        rw [List.append_nil]
        exact ⟨none, .clear hengine haliases, rfl⟩
      | some key =>
        refine records_pure ?_
        rw [List.append_nil]
        -- a key that is found among the aliases is an alias, and reported as such
        refine ⟨some key, .clear hengine haliases, ?_⟩
        show _ = Except.error key.obstruction
        rw [ProviderKey.obstruction, if_pos (Record.isAlias_of_mem_aliasKeys haliases.mem)]
    · exact records_pure ⟨none, .clear hengine .nil, rfl⟩

/-- An entry that is no alias is replaced if nothing at all fails. -/
theorem records_replace (key : ProviderKey) (hkey : key.isAlias = false) (e : ProviderEntry ω β) :
    Records (p.replace key e) (p.recording.replace key e)
      (CarriesOut leniency [.remove key, .add key e]) := by
  refine .andThen (records_ask (fun _ => rfl) fun answer => ?_)
  cases answer with
  | error error => exact .stops rfl ⟨rfl, ProviderCall.not_isTolerated_of_request hkey (.inl rfl)⟩
  | ok e? =>
    refine records_ask (fun _ => rfl) fun answer => ?_
    refine .succeeds rfl rfl ?_
    cases answer with
    | error error =>
      exact .stops rfl ⟨rfl, ProviderCall.not_isTolerated_of_request hkey (.inr rfl)⟩
    | ok => exact .succeeds rfl rfl .done

/-- An alias that is taken is passed over, except under `strict`. -/
theorem records_addAlias {key : ProviderKey} (hkey : key.isAlias = true) (name : String) :
    Records (p.addAlias leniency key name) (p.recording.addAlias leniency key name)
      (CarriesOut leniency [.add key (.alias name)]) := by
  refine .bind (records_ask (fun _ => rfl) fun answer => ?_)
  cases answer with
  | ok => exact records_pure (.succeeds rfl rfl .done)
  | error error =>
    cases error with
    | duplicateRegistration slot =>
      -- that an alias is taken is passed over, unless somebody has asked to be strict
      cases leniency with
      | allow => exact records_pure (.passesOver rfl (.add hkey nofun) .done)
      | warn =>
        refine .bind (records_log (records_pure ?_))
        exact .passesOver rfl (.add hkey nofun) .done
      | strict =>
        refine records_pure (.stops rfl ⟨rfl, ?_⟩)
        rintro (_ | ⟨_, hlenient⟩)
        exact hlenient rfl
    | _ => exact records_pure (.stops rfl ⟨rfl, nofun⟩)

/-- So is an alias that cannot be removed, under every leniency. -/
theorem records_replaceAlias {key : ProviderKey} (hkey : key.isAlias = true) (name : String) :
    Records (p.replaceAlias leniency name key) (p.recording.replaceAlias leniency name key)
      (CarriesOut leniency [.remove key, .add key (.alias name)]) := by
  refine .bind (records_ask (fun _ => rfl) fun answer => ?_)
  cases answer with
  | ok e? =>
    exact (p.records_addAlias leniency hkey name).mono fun _ _ hadd => .succeeds rfl rfl hadd
  | error error =>
    cases error with
    | removalUnsupported slot =>
      -- this failure is passed over, and the alias is added all the same
      exact (p.records_addAlias leniency hkey name).mono fun _ _ hadd =>
        .passesOver rfl (.remove hkey) hadd
    | _ => exact records_pure (.stops rfl ⟨rfl, nofun⟩)

theorem records_replaceAliases {keys : List ProviderKey} (hkeys : ∀ key ∈ keys, key.isAlias = true)
    (name : String) :
    Records (p.replaceAliases leniency name keys) (p.recording.replaceAliases leniency name keys)
      (CarriesOut leniency (aliasWrites name keys)) := by
  induction keys with
  | nil => exact records_pure .done
  | cons key rest ih =>
    rw [List.forall_mem_cons] at hkeys
    exact (p.records_replaceAlias leniency hkeys.1 name).andThen_writes (ih hkeys.2)

/-- The converter is replaced if nothing at all fails. -/
theorem records_replaceConverter (oid : Oid) (adapter : Adapter ω β) :
    Records (p.replaceConverter oid adapter) (p.recording.replaceConverter oid adapter)
      (CarriesOut leniency [.removeConverter oid, .addConverter oid adapter]) := by
  refine .bind (records_ask (fun _ => rfl) fun adapter? => ?_)
  refine records_ask (fun _ => rfl) fun answer => ?_
  refine .succeeds rfl rfl ?_
  cases answer with
  | error error => exact .stops rfl ⟨rfl, nofun⟩
  | ok => exact .succeeds rfl rfl .done

/-- **The calls of publishing a record**, into any provider. -/
theorem records_publish (record : Record ω β) :
    Records (p.publish leniency record) (p.recording.publish leniency record)
      (Publishes leniency record) := by
  refine .bind (records_log ?_)
  refine .andThen ((p.records_checkConflicts leniency record).mono ?_)
  rintro _ checks ⟨key?, hchecks, rfl⟩
  cases key? with
  | some key => exact .obstructed hchecks
  | none =>
    -- the writes come in three groups, which make up what the record lays down
    have isAlias : ∀ key ∈ record.aliasKeys, key.isAlias = true := fun _ =>
      Record.isAlias_of_mem_aliasKeys
    have hengine := p.records_replace leniency record.engineKey rfl (.engine (.ofRecord record))
    have haliases := p.records_replaceAliases leniency isAlias record.name
    have hconverter := p.records_replaceConverter leniency record.oid record.adapter
    refine Records.mono (hengine.andThen_writes (haliases.andThen_writes hconverter)) ?_
    intro result calls hwrites
    rw [List.nil_append]
    exact .written hchecks hwrites

theorem records_publishAll (records : List (Record ω β)) :
    Records (p.publishAll leniency records) (p.recording.publishAll leniency records)
      (PublishesAll leniency records) := by
  induction records with
  | nil => exact records_pure .done
  | cons record rest ih =>
    refine .andThen ((p.records_publish leniency record).mono ?_)
    intro result calls hrecord
    cases result with
    | ok => exact ih.mono fun _ _ hrest => .goesOn hrecord hrest
    | error e => exact .stops hrecord

end Provider

end SignatureCatalog
