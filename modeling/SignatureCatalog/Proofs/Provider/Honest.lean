import SignatureCatalog.Proofs.Ensures
import SignatureCatalog.Proofs.Provider.Holdings
import SignatureCatalog.Provider.Publisher
import SignatureCatalog.Provider.Table

/-!
# Publishing into an honest provider

A provider is *honest* if its operations do to what it holds what they are there to do: it answers
truly what it holds and what it lets go of, it adds where there is room, removes what it says may be
removed, and an operation that fails changes nothing. What a provider reports as taken is its own
choice of words, within `reports`. Tables are honest (`ProviderTable.honest`).

For an honest provider each step of publishing has one effect on what is held, whatever else the
state of the provider is. They are stated with `Act.Ensures` in the order in which the steps build
on each other, down to `Honest.publish_of_clear` and `Honest.publish_of_obstructed`.
-/

namespace SignatureCatalog

variable {π ω β : Type}

/-- What a provider in state `π` holds is told by `holds`, and its operations act on that. -/
structure Provider.Honest (p : Provider π ω β) (holds : π → Holdings ω β)
    (reports : ProviderKey → Slot → Prop) : Prop where
  entry : ∀ key s, (p.entry key s).1 = (holds s).held? key ∧ holds (p.entry key s).2 = holds s
  isRemovable : ∀ key s, (p.isRemovable key s).1 = (holds s).removable key ∧
    holds (p.isRemovable key s).2 = holds s
  add_free : ∀ key e s, (holds s).held? key = none →
    (p.addEntry key e s).1 = .ok () ∧ holds (p.addEntry key e s).2 = (holds s).put key (some e)
  add_taken : ∀ key e s, (holds s).held? key ≠ none →
    (∃ slot, reports key slot ∧ (p.addEntry key e s).1 = .error (.duplicateRegistration slot)) ∧
      holds (p.addEntry key e s).2 = holds s
  remove_removable : ∀ key s, (holds s).removable key = true →
    (∃ e?, (p.removeEntry key s).1 = .ok e?) ∧
      holds (p.removeEntry key s).2 = (holds s).put key none
  remove_stuck : ∀ key s, (holds s).removable key = false →
    (∃ slot, (p.removeEntry key s).1 = .error (.removalUnsupported slot)) ∧
      holds (p.removeEntry key s).2 = holds s
  addConverter_free : ∀ oid adapter s, (holds s).converter? oid = none →
    (p.addConverter oid adapter s).1 = .ok () ∧
      holds (p.addConverter oid adapter s).2 = (holds s).putConverter oid (some adapter)
  addConverter_taken : ∀ oid adapter s, (holds s).converter? oid ≠ none →
    (∃ slot, (p.addConverter oid adapter s).1 = .error (.duplicateRegistration slot)) ∧
      holds (p.addConverter oid adapter s).2 = holds s
  removeConverter : ∀ oid s,
    holds (p.removeConverter oid s).2 = (holds s).putConverter oid none

/-! ### Tables -/

/-- What a table holds. -/
def ProviderTable.holdings (t : ProviderTable ω β) : Holdings ω β :=
  ⟨t.get?, t.converter?, t.isRemovable⟩

/-- **Tables are honest**, and report a key that is taken by that key. -/
theorem ProviderTable.honest :
    (provider (ω := ω) (β := β)).Honest holdings fun key slot => slot = .entry key where
  entry _ _ := ⟨rfl, rfl⟩
  isRemovable _ _ := ⟨rfl, rfl⟩
  add_free key e t hfree := by
    have hcontains : t.entries.contains key = false := Option.isSome_eq_false_iff.mpr
      (Option.isNone_iff_eq_none.mpr hfree)
    show (t.addEntry key e).1 = _ ∧ (t.addEntry key e).2.holdings = _
    rw [addEntry, hcontains, if_neg Bool.false_ne_true]
    refine ⟨rfl, Holdings.ext (funext fun key' => ?_) rfl rfl⟩
    exact FiniteMap.get?_insert t.entries key key' e
  add_taken key e t htaken := by
    have hcontains : t.entries.contains key = true := Option.isSome_iff_ne_none.mpr htaken
    show (∃ slot, _ ∧ (t.addEntry key e).1 = _) ∧ (t.addEntry key e).2.holdings = _
    rw [addEntry, hcontains, if_pos rfl]
    exact ⟨⟨_, rfl, rfl⟩, rfl⟩
  remove_removable key t hremovable := by
    have hremovable : t.isRemovable key = true := hremovable
    show (∃ e?, (t.removeEntry key).1 = .ok e?) ∧ (t.removeEntry key).2.holdings = _
    rw [removeEntry, if_pos hremovable]
    refine ⟨⟨_, rfl⟩, Holdings.ext (funext fun key' => ?_) rfl rfl⟩
    exact FiniteMap.get?_erase t.entries key key'
  remove_stuck key t hstuck := by
    have hstuck : t.isRemovable key = false := hstuck
    show (∃ slot, (t.removeEntry key).1 = _) ∧ (t.removeEntry key).2.holdings = _
    rw [removeEntry, hstuck, if_neg Bool.false_ne_true]
    exact ⟨⟨_, rfl⟩, rfl⟩
  addConverter_free oid adapter t hfree := by
    have hcontains : t.converters.contains oid = false := Option.isSome_eq_false_iff.mpr
      (Option.isNone_iff_eq_none.mpr hfree)
    show (t.addConverter oid adapter).1 = _ ∧ (t.addConverter oid adapter).2.holdings = _
    rw [addConverter, hcontains, if_neg Bool.false_ne_true]
    refine ⟨rfl, Holdings.ext rfl (funext fun oid' => ?_) rfl⟩
    exact FiniteMap.get?_insert t.converters oid oid' adapter
  addConverter_taken oid adapter t htaken := by
    have hcontains : t.converters.contains oid = true := Option.isSome_iff_ne_none.mpr htaken
    show (∃ slot, (t.addConverter oid adapter).1 = _) ∧ (t.addConverter oid adapter).2.holdings = _
    rw [addConverter, hcontains, if_pos rfl]
    exact ⟨⟨_, rfl⟩, rfl⟩
  removeConverter oid t :=
    Holdings.ext rfl (funext fun oid' => FiniteMap.get?_erase t.converters oid oid') rfl

/-! ### Warnings -/

/-- What is logged about aliases that stay as they are: under `warn` one warning for each, in order,
with the provider's word for the alias, and otherwise nothing. -/
def Warns (reports : ProviderKey → Slot → Prop) (leniency : Leniency) (name : String)
    (kept : List ProviderKey) (es : List Event) : Prop :=
  if leniency = .warn then
    List.Forall₂ (fun key e => ∃ slot, reports key slot ∧ e = .keepingAlias slot name) kept es
  else es = []

section

variable {reports : ProviderKey → Slot → Prop} {leniency : Leniency} {name : String}
  {kept kept' : List ProviderKey} {es es' : List Event}

theorem warns_nil : Warns reports leniency name [] [] := by
  unfold Warns
  split
  · exact .nil
  · rfl

theorem Warns.append (h : Warns reports leniency name kept es)
    (h' : Warns reports leniency name kept' es') :
    Warns reports leniency name (kept ++ kept') (es ++ es') := by
  unfold Warns at h h' ⊢
  split
  · next hwarn =>
    rw [if_pos hwarn] at h h'
    exact List.rel_append h h'
  · next hwarn =>
    rw [if_neg hwarn] at h h'
    rw [h, h', List.append_nil]

end

/-! ### Steps of publishing -/

namespace Provider.Honest

open Act

variable {p : Provider π ω β} {holds : π → Holdings ω β} {reports : ProviderKey → Slot → Prop}
  (honest : p.Honest holds reports) {h : Holdings ω β} {leniency : Leniency} {name : String}

include honest

/-- Asking whether a key is stuck is answered by what is held, and changes nothing. -/
theorem isStuck (key : ProviderKey) : Ensures holds h (p.isStuck key)
    fun stuck after es => stuck = h.keeps key ∧ after = h ∧ es = [] := by
  refine .bind (ensures_ask fun s hs => ?_)
  obtain ⟨hanswer, hafter⟩ := honest.entry key s
  -- a key without an entry is not stuck, and then nothing more is asked
  rw [hanswer, hafter, hs]
  cases hheld : h.held? key with
  | none =>
    refine ensures_pure ⟨?_, rfl, rfl⟩
    rw [Holdings.keeps, hheld]
    rfl
  | some e =>
    refine .bind (ensures_ask fun s hs => ?_)
    obtain ⟨hanswer, hafter⟩ := honest.isRemovable key s
    rw [hanswer, hafter, hs]
    refine ensures_pure ⟨?_, rfl, rfl⟩
    rw [Holdings.keeps, hheld]
    rfl

theorem firstStuck (keys : List ProviderKey) : Ensures holds h (p.firstStuck keys)
    fun key? after es => key? = keys.find? h.keeps ∧ after = h ∧ es = [] := by
  -- asking changes nothing that is held, so each key is looked at as if it were the first
  induction keys with
  | nil => exact ensures_pure ⟨rfl, rfl, rfl⟩
  | cons key keys ih =>
    refine .bind ((honest.isStuck key).mono ?_)
    rintro _ h _ ⟨rfl, rfl, rfl⟩
    cases hkept : h.keeps key with
    | true => exact ensures_pure ⟨(List.find?_cons_of_pos hkept).symm, rfl, rfl⟩
    | false =>
      rw [List.find?_cons_of_neg (by rw [hkept]; exact Bool.false_ne_true)]
      exact ih

/-- Where nothing is kept that matters, the check passes. -/
theorem checkConflicts_of_clear {engine : ProviderKey} {aliases : List ProviderKey}
    (hengine : h.keeps engine = false)
    (haliases : leniency = .strict → ∀ key ∈ aliases, h.keeps key = false) :
    Ensures holds h (p.checkConflicts leniency engine aliases)
      fun result after es => result = .ok () ∧ after = h ∧ es = [] := by
  refine .bind ((honest.isStuck engine).mono ?_)
  rintro _ _ _ ⟨rfl, rfl, rfl⟩
  rw [hengine, if_neg Bool.false_ne_true]
  -- aliases are looked at under `strict` only
  split
  · next hstrict =>
    refine .bind ((honest.firstStuck aliases).mono ?_)
    rintro _ _ _ ⟨rfl, rfl, rfl⟩
    rw [List.find?_eq_none.mpr fun key hkey => by
      rw [haliases hstrict key hkey]
      exact Bool.false_ne_true]
    exact ensures_pure ⟨rfl, rfl, rfl⟩
  · exact ensures_pure ⟨rfl, rfl, rfl⟩

/-- Under `strict` the check fails on the first alias that is kept. -/
theorem checkConflicts_of_obstructed {engine key : ProviderKey} {aliases : List ProviderKey}
    (hengine : h.keeps engine = false) (hkey : aliases.find? h.keeps = some key) :
    Ensures holds h (p.checkConflicts .strict engine aliases) fun result after es =>
      result = .error (.duplicateRegistration (.entry key)) ∧ after = h ∧ es = [] := by
  refine .bind ((honest.isStuck engine).mono ?_)
  rintro _ _ _ ⟨rfl, rfl, rfl⟩
  rw [hengine, if_neg Bool.false_ne_true, if_pos rfl]
  refine .bind ((honest.firstStuck aliases).mono ?_)
  rintro _ _ _ ⟨rfl, rfl, rfl⟩
  rw [hkey]
  exact ensures_pure ⟨rfl, rfl, rfl⟩

/-- Adding where there is room. -/
theorem askAdd_of_free {key : ProviderKey} (e : ProviderEntry ω β) (hfree : h.held? key = none) :
    Ensures holds h (p.askAdd key e)
      fun result after es => result = .ok () ∧ after = h.put key (some e) ∧ es = [] := by
  refine ensures_ask fun s hs => ?_
  obtain ⟨hanswer, hafter⟩ := honest.add_free key e s (by rw [hs, hfree])
  rw [hanswer, hafter, hs]
  exact ⟨rfl, rfl, rfl⟩

theorem askRemove_of_removable {key : ProviderKey} (hremovable : h.removable key = true) :
    Ensures holds h (p.askRemove key)
      fun result after es => (∃ e?, result = .ok e?) ∧ after = h.put key none ∧ es = [] := by
  refine ensures_ask fun s hs => ?_
  obtain ⟨hanswer, hafter⟩ := honest.remove_removable key s (by rw [hs, hremovable])
  rw [hafter, hs]
  exact ⟨hanswer, rfl, rfl⟩

theorem askRemove_of_stuck {key : ProviderKey} (hstuck : h.removable key = false) :
    Ensures holds h (p.askRemove key) fun result after es =>
      (∃ slot, result = .error (.removalUnsupported slot)) ∧ after = h ∧ es = [] := by
  refine ensures_ask fun s hs => ?_
  obtain ⟨hanswer, hafter⟩ := honest.remove_stuck key s (by rw [hs, hstuck])
  rw [hafter, hs]
  exact ⟨hanswer, rfl, rfl⟩

/-- An entry that may be removed is replaced. -/
theorem replace_of_removable {key : ProviderKey} (e : ProviderEntry ω β)
    (hremovable : h.removable key = true) :
    Ensures holds h (p.replace key e)
      fun result after es => result = .ok () ∧ after = h.put key (some e) ∧ es = [] := by
  refine .andThen_of_ok ((honest.askRemove_of_removable hremovable).mono ?_)
  rintro _ _ _ ⟨⟨e?, rfl⟩, rfl, rfl⟩
  -- now there is room
  refine ⟨e?, rfl, (honest.askAdd_of_free e (if_pos rfl)).mono ?_⟩
  rintro _ _ _ ⟨rfl, rfl, rfl⟩
  exact ⟨rfl, Holdings.put_put none (some e), rfl⟩

theorem addAlias_of_free {key : ProviderKey} (hfree : h.held? key = none) :
    Ensures holds h (p.addAlias leniency key name)
      fun result after es =>
        result = .ok () ∧ after = h.put key (some (.alias name)) ∧ es = [] := by
  refine .bind ((honest.askAdd_of_free _ hfree).mono ?_)
  rintro _ _ _ ⟨rfl, rfl, rfl⟩
  exact ensures_pure ⟨rfl, rfl, rfl⟩

/-- An alias that is taken stays as it is, and under `warn` that is logged. -/
theorem addAlias_of_taken {key : ProviderKey} (htaken : h.held? key ≠ none)
    (hlenient : leniency ≠ .strict) :
    Ensures holds h (p.addAlias leniency key name) fun result after es =>
      result = .ok () ∧ after = h ∧ Warns reports leniency name [key] es := by
  refine .bind (ensures_ask fun s hs => ?_)
  obtain ⟨⟨slot, hreports, hanswer⟩, hafter⟩ :=
    honest.add_taken key (.alias name) s (by rw [hs]; exact htaken)
  rw [hanswer, hafter, hs]
  cases leniency with
  | strict => exact absurd rfl hlenient
  | allow => exact ensures_pure ⟨rfl, rfl, rfl⟩
  | warn =>
    -- the warning carries what the provider reported
    refine .bind (ensures_log (ensures_pure ⟨rfl, rfl, ?_⟩))
    exact .cons ⟨slot, hreports, rfl⟩ .nil

/-- An alias is replaced unless the one that is there is kept. -/
theorem replaceAlias {key : ProviderKey} (hclear : leniency = .strict → h.keeps key = false) :
    Ensures holds h (p.replaceAlias leniency name key) fun result after es =>
      result = .ok () ∧ after = h.replace key (.alias name) ∧
        Warns reports leniency name ([key].filter h.keeps) es := by
  cases hremovable : h.removable key with
  | true =>
    have hkept : h.keeps key = false := Holdings.keeps_eq_false_of_removable hremovable
    refine .bind ((honest.askRemove_of_removable hremovable).mono ?_)
    rintro _ _ _ ⟨⟨e?, rfl⟩, rfl, rfl⟩
    -- the removal has made room, whatever was there
    refine (honest.addAlias_of_free (if_pos rfl)).mono ?_
    rintro _ _ _ ⟨rfl, rfl, rfl⟩
    rw [Holdings.put_put, Holdings.replace, hkept, if_neg Bool.false_ne_true,
      List.filter_cons_of_neg (by rw [hkept]; exact Bool.false_ne_true)]
    exact ⟨rfl, rfl, warns_nil⟩
  | false =>
    refine .bind ((honest.askRemove_of_stuck hremovable).mono ?_)
    rintro _ h _ ⟨⟨slot, rfl⟩, rfl, rfl⟩
    -- nothing has been removed, so what happens next depends on what was there
    cases hkept : h.keeps key with
    | true =>
      have htaken : h.held? key ≠ none := by
        rw [Holdings.keeps, Bool.and_eq_true] at hkept
        exact Option.isSome_iff_ne_none.mp hkept.1
      have hlenient : leniency ≠ .strict := fun hstrict => by
        -- under `strict` the check would have stopped before this
        rw [hclear hstrict] at hkept
        cases hkept
      refine (honest.addAlias_of_taken htaken hlenient).mono ?_
      rintro _ _ es ⟨rfl, rfl, hwarns⟩
      rw [Holdings.replace, hkept, if_pos rfl, List.filter_cons_of_pos hkept]
      exact ⟨rfl, rfl, hwarns⟩
    | false =>
      have hfree : h.held? key = none := by
        rw [Holdings.keeps, hremovable, Bool.not_false, Bool.and_true] at hkept
        exact Option.isNone_iff_eq_none.mp (Option.isSome_eq_false_iff.mp hkept)
      refine (honest.addAlias_of_free hfree).mono ?_
      rintro _ _ _ ⟨rfl, rfl, rfl⟩
      rw [Holdings.replace, hkept, if_neg Bool.false_ne_true,
        List.filter_cons_of_neg (by rw [hkept]; exact Bool.false_ne_true)]
      exact ⟨rfl, rfl, warns_nil⟩

theorem replaceAliases {keys : List ProviderKey} (nodup : keys.Nodup)
    (hclear : leniency = .strict → ∀ key ∈ keys, h.keeps key = false) :
    Ensures holds h (p.replaceAliases leniency name keys) fun result after es =>
      result = .ok () ∧ after = h.replaceAll keys (.alias name) ∧
        Warns reports leniency name (keys.filter h.keeps) es := by
  induction keys generalizing h with
  | nil => exact ensures_pure ⟨rfl, rfl, warns_nil⟩
  | cons key keys ih =>
    obtain ⟨hnotMem, hnodup⟩ := List.nodup_cons.mp nodup
    -- the first alias is none of the others, and so leaves what is kept of them
    have hsame : ∀ key' ∈ keys, (h.replace key (.alias name)).keeps key' = h.keeps key' :=
      fun key' hkey' => Holdings.keeps_replace_of_ne fun heq => hnotMem (heq ▸ hkey')
    refine .andThen_of_ok ((honest.replaceAlias fun hstrict =>
      hclear hstrict key List.mem_cons_self).mono ?_)
    rintro _ _ es ⟨rfl, rfl, hfirst⟩
    refine ⟨(), rfl, (ih hnodup fun hstrict key' hkey' => ?_).mono ?_⟩
    · rw [hsame key' hkey']
      exact hclear hstrict key' (List.mem_cons_of_mem _ hkey')
    · rintro _ _ es' ⟨rfl, rfl, hrest⟩
      rw [List.filter_congr hsame] at hrest
      refine ⟨rfl, rfl, ?_⟩
      rw [← List.singleton_append, List.filter_append]
      exact hfirst.append hrest

theorem replaceConverter (oid : Oid) (adapter : Adapter ω β) :
    Ensures holds h (p.replaceConverter oid adapter) fun result after es =>
      result = .ok () ∧ after = h.putConverter oid (some adapter) ∧ es = [] := by
  refine .bind (ensures_ask fun s hs => ?_)
  rw [honest.removeConverter oid s, hs]
  -- whether the removal succeeds does not matter: either way there is room after it
  refine ensures_ask fun s hs => ?_
  obtain ⟨hanswer, hafter⟩ := honest.addConverter_free oid adapter s (by rw [hs]; exact if_pos rfl)
  rw [hanswer, hafter, hs]
  exact ⟨rfl, Holdings.putConverter_putConverter none (some adapter), rfl⟩

/-! ### Publishing a record -/

/-- **A record that nothing obstructs is published**, and all that is logged besides is what becomes
of its aliases. -/
theorem publish_of_clear {record : Record ω β} (hengine : h.removable record.engineKey = true)
    (hclear : leniency = .strict → ∀ key ∈ record.aliasKeys, h.keeps key = false) :
    Ensures holds h (p.publish leniency record) fun result after es =>
      result = .ok () ∧ after = h.publish record ∧ ∃ warnings,
        es = .publishing record.toIdentity record.oid.wellKnownName? :: warnings ∧
          Warns reports leniency record.name (record.aliasKeys.filter h.keeps) warnings := by
  have hkept : h.keeps record.engineKey = false := Holdings.keeps_eq_false_of_removable hengine
  -- the engine has a key of its own, so it matters to no alias
  have hsame : ∀ key ∈ record.aliasKeys,
      (h.put record.engineKey (some (.engine (.ofRecord record)))).keeps key = h.keeps key :=
    fun key hkey =>
      Holdings.keeps_put_of_ne (Record.ne_engineKey_of_mem_aliasKeys hkey record) _
  refine .bind (ensures_log ?_)
  refine .andThen_of_ok ((honest.checkConflicts_of_clear hkept hclear).mono ?_)
  rintro _ _ _ ⟨rfl, rfl, rfl⟩
  refine ⟨(), rfl, .andThen_of_ok ((honest.replace_of_removable _ hengine).mono ?_)⟩
  rintro _ _ _ ⟨rfl, rfl, rfl⟩
  refine ⟨(), rfl, .andThen_of_ok ((honest.replaceAliases record.nodup_aliasKeys
    fun hstrict key hkey => (hsame key hkey).trans (hclear hstrict key hkey)).mono ?_)⟩
  rintro _ _ warnings ⟨rfl, rfl, hwarns⟩
  refine ⟨(), rfl, (honest.replaceConverter record.oid record.adapter).mono ?_⟩
  rintro _ _ _ ⟨rfl, rfl, rfl⟩
  rw [List.filter_congr hsame] at hwarns
  refine ⟨rfl, rfl, warnings, ?_, hwarns⟩
  rw [List.append_nil]
  rfl

/-- **Under `strict` an alias that is kept obstructs its record**: the first one is reported, and
nothing changes. -/
theorem publish_of_obstructed {record : Record ω β} {key : ProviderKey}
    (hengine : h.keeps record.engineKey = false)
    (hkey : record.aliasKeys.find? h.keeps = some key) :
    Ensures holds h (p.publish .strict record) fun result after es =>
      result = .error (.duplicateRegistration (.entry key)) ∧ after = h ∧
        es = [.publishing record.toIdentity record.oid.wellKnownName?] := by
  refine .bind (ensures_log ?_)
  -- the name is logged before the check, so that much is to be seen of a record that fails
  refine .andThen_of_error ((honest.checkConflicts_of_obstructed hengine hkey).mono ?_)
  rintro _ _ _ ⟨rfl, rfl, rfl⟩
  exact ⟨_, rfl, rfl, rfl, rfl⟩

end Provider.Honest

end SignatureCatalog
