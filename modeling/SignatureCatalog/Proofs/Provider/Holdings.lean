import SignatureCatalog.Proofs.Registry.Distinct
import SignatureCatalog.Provider.Basic

/-!
# What publishing changes

A provider is seen here as what it holds: an entry for a key, a converter for an object identifier,
and the keys it lets go of. Two providers that agree on these are the same for whoever publishes.

An entry that is there and must not be removed is *kept*. `Holdings.publish` is what one record
changes: its engine and its converter are put in place, and so are its aliases except those that are
kept. `Holdings.publishAll` does so for one record after another.

The later records could undo what the earlier ones did, or find kept what the earlier ones put
there. Neither happens to records that do not collide, since their keys are then different, and
`published_publishAll` describes the whole by what was held at the start.
-/

namespace SignatureCatalog

variable {ω β : Type}

/-- The key that a record's engine is held under. -/
def Record.engineKey (record : Record ω β) : ProviderKey :=
  .service .signature record.name

/-- The keys of a record's aliases, by service and then by spelling. -/
def Record.aliasKeys (record : Record ω β) : List ProviderKey :=
  ProviderKey.aliases record.oid

theorem Record.ne_engineKey_of_mem_aliasKeys {record : Record ω β} {key : ProviderKey}
    (h : key ∈ record.aliasKeys) (record' : Record ω β) : key ≠ record'.engineKey := by
  obtain ⟨s, form, rfl⟩ := ProviderKey.mem_aliases_iff.mp h
  exact ProviderKey.noConfusion

theorem Record.isAlias_of_mem_aliasKeys {record : Record ω β} {key : ProviderKey}
    (h : key ∈ record.aliasKeys) : key.isAlias = true := by
  obtain ⟨s, form, rfl⟩ := ProviderKey.mem_aliases_iff.mp h
  rfl

theorem Record.oid_eq_of_mem_aliasKeys {record record' : Record ω β} {key : ProviderKey}
    (h : key ∈ record.aliasKeys) (h' : key ∈ record'.aliasKeys) : record.oid = record'.oid := by
  obtain ⟨s, form, rfl⟩ := ProviderKey.mem_aliases_iff.mp h
  obtain ⟨s', form', heq⟩ := ProviderKey.mem_aliases_iff.mp h'
  exact (ProviderKey.alias.inj heq).2.1

theorem Record.eq_engineKey_iff {record : Record ω β} {name : String} :
    .service .signature name = record.engineKey ↔ record.name = name :=
  ⟨fun h => (ProviderKey.service.inj h).2.symm, fun h => by rw [← h]; rfl⟩

theorem Record.alias_mem_aliasKeys_iff {record : Record ω β} {s : Service} {oid : Oid}
    {form : AliasForm} : .alias s oid form ∈ record.aliasKeys ↔ record.oid = oid := by
  constructor
  · intro h
    obtain ⟨s', form', heq⟩ := ProviderKey.mem_aliases_iff.mp h
    exact (ProviderKey.alias.inj heq).2.1.symm
  · intro h
    exact ProviderKey.mem_aliases_iff.mpr ⟨s, form, by rw [h]⟩

theorem Record.service_notMem_aliasKeys {record : Record ω β} {s : Service} {name : String} :
    .service s name ∉ record.aliasKeys := by
  intro h
  obtain ⟨s', form', heq⟩ := ProviderKey.mem_aliases_iff.mp h
  cases heq

theorem Record.nodup_aliasKeys (record : Record ω β) : record.aliasKeys.Nodup := by
  unfold aliasKeys ProviderKey.aliases
  simp [Service.all, AliasForm.all]

/-- What a provider holds, and what it lets go of. -/
@[ext]
structure Holdings (ω β : Type) where
  held? : ProviderKey → Option (ProviderEntry ω β)
  converter? : Oid → Option (Adapter ω β)
  removable : ProviderKey → Bool

namespace Holdings

variable {h h' : Holdings ω β} {key key' : ProviderKey} {e : ProviderEntry ω β}

/-- Whether there is an entry that must not be removed. -/
def keeps (h : Holdings ω β) (key : ProviderKey) : Bool :=
  (h.held? key).isSome && !h.removable key

/-- Holds an entry under a key, or none. -/
def put (h : Holdings ω β) (key : ProviderKey) (e? : Option (ProviderEntry ω β)) :
    Holdings ω β :=
  { h with held? := fun key' => if key' = key then e? else h.held? key' }

/-- Holds a converter for an object identifier, or none. -/
def putConverter (h : Holdings ω β) (oid : Oid) (adapter? : Option (Adapter ω β)) :
    Holdings ω β :=
  { h with converter? := fun oid' => if oid' = oid then adapter? else h.converter? oid' }

/-- Holds an entry under a key, unless the one that is there is kept. -/
def replace (h : Holdings ω β) (key : ProviderKey) (e : ProviderEntry ω β) : Holdings ω β :=
  if h.keeps key then h else h.put key (some e)

/-- Holds an entry under one key after another. -/
def replaceAll (h : Holdings ω β) (keys : List ProviderKey) (e : ProviderEntry ω β) :
    Holdings ω β :=
  keys.foldl (fun h key => h.replace key e) h

/-- What is held once a record has been published. -/
def publish (h : Holdings ω β) (record : Record ω β) : Holdings ω β :=
  ((h.put record.engineKey (some (.engine (.ofRecord record)))).replaceAll record.aliasKeys
    (.alias record.name)).putConverter record.oid (some record.adapter)

/-- What is held once records have been published one after the other. -/
def publishAll (h : Holdings ω β) (records : List (Record ω β)) : Holdings ω β :=
  records.foldl publish h

/-! ### One key -/

theorem held?_put (e? : Option (ProviderEntry ω β)) :
    (h.put key e?).held? key' = if key' = key then e? else h.held? key' := rfl

theorem converter?_putConverter {oid oid' : Oid} (adapter? : Option (Adapter ω β)) :
    (h.putConverter oid adapter?).converter? oid' =
      if oid' = oid then adapter? else h.converter? oid' := rfl

theorem put_put (e? e?' : Option (ProviderEntry ω β)) :
    (h.put key e?).put key e?' = h.put key e?' := by
  refine Holdings.ext (funext fun key' => ?_) rfl rfl
  show (if key' = key then e?' else if key' = key then e? else h.held? key') =
    if key' = key then e?' else h.held? key'
  by_cases hkey : key' = key
  · rw [if_pos hkey, if_pos hkey]
  · rw [if_neg hkey, if_neg hkey, if_neg hkey]

theorem putConverter_putConverter {oid : Oid} (adapter? adapter?' : Option (Adapter ω β)) :
    (h.putConverter oid adapter?).putConverter oid adapter?' = h.putConverter oid adapter?' := by
  refine Holdings.ext rfl (funext fun oid' => ?_) rfl
  show (if oid' = oid then adapter?' else if oid' = oid then adapter? else h.converter? oid') =
    if oid' = oid then adapter?' else h.converter? oid'
  by_cases hoid : oid' = oid
  · rw [if_pos hoid, if_pos hoid]
  · rw [if_neg hoid, if_neg hoid, if_neg hoid]

theorem keeps_eq_false_of_removable (hremovable : h.removable key = true) :
    h.keeps key = false := by
  rw [keeps, hremovable, Bool.not_true, Bool.and_false]

theorem keeps_put_of_ne (ne : key' ≠ key) (e? : Option (ProviderEntry ω β)) :
    (h.put key e?).keeps key' = h.keeps key' := by
  rw [keeps, keeps, held?_put, if_neg ne]
  rfl

theorem keeps_replace_of_ne (ne : key' ≠ key) : (h.replace key e).keeps key' = h.keeps key' := by
  unfold replace
  split
  · rfl
  · exact keeps_put_of_ne ne _

theorem held?_replace : (h.replace key e).held? key' =
    if key' = key ∧ h.keeps key = false then some e else h.held? key' := by
  unfold replace
  cases hkept : h.keeps key with
  | true => rw [if_pos rfl, if_neg fun hkey => Bool.noConfusion hkey.2]
  | false =>
    rw [if_neg Bool.false_ne_true]
    by_cases hkey : key' = key
    · rw [if_pos ⟨hkey, rfl⟩, held?_put, if_pos hkey]
    · rw [if_neg fun heq => hkey heq.1, held?_put, if_neg hkey]

/-! ### Many keys -/

/-- Only entries are replaced. -/
theorem exists_replaceAll_eq (keys : List ProviderKey) :
    ∃ held?, h.replaceAll keys e = { h with held? := held? } := by
  induction keys generalizing h with
  | nil => exact ⟨h.held?, rfl⟩
  | cons key keys ih =>
    -- the first key changes at most its own entry, and the others start from there
    have hfirst : ∃ held?, h.replace key e = { h with held? := held? } := by
      unfold replace
      split
      · exact ⟨h.held?, rfl⟩
      · exact ⟨_, rfl⟩
    obtain ⟨first, hfirst⟩ := hfirst
    obtain ⟨rest, hrest⟩ := @ih (h.replace key e)
    refine ⟨rest, ?_⟩
    rw [replaceAll, List.foldl_cons]
    refine hrest.trans ?_
    rw [hfirst]

@[simp] theorem removable_replaceAll (keys : List ProviderKey) :
    (h.replaceAll keys e).removable = h.removable := by
  obtain ⟨held?, heq⟩ := h.exists_replaceAll_eq keys
  rw [heq]

@[simp] theorem converter?_replaceAll (keys : List ProviderKey) :
    (h.replaceAll keys e).converter? = h.converter? := by
  obtain ⟨held?, heq⟩ := h.exists_replaceAll_eq keys
  rw [heq]

theorem held?_replaceAll {keys : List ProviderKey} (nodup : keys.Nodup) :
    (h.replaceAll keys e).held? key' =
      if key' ∈ keys ∧ h.keeps key' = false then some e else h.held? key' := by
  -- the keys are all different, so replacing under one decides nothing about the others
  induction keys generalizing h with
  | nil => rw [if_neg fun hkey => List.not_mem_nil hkey.1]; rfl
  | cons key keys ih =>
    obtain ⟨hnotMem, hnodup⟩ := List.nodup_cons.mp nodup
    rw [replaceAll, List.foldl_cons]
    refine (ih hnodup).trans ?_
    by_cases hkey : key' = key
    · -- the key does not come again, so its entry is the one it has just got
      rw [if_neg fun hmem => hnotMem (hkey ▸ hmem.1), held?_replace]
      refine if_congr ?_ rfl rfl
      rw [hkey]
      exact and_congr_left fun _ => ⟨fun _ => List.mem_cons_self, fun _ => rfl⟩
    · have hold : (h.replace key e).held? key' = h.held? key' := by
        -- any other key is left to the rest, with what it had
        rw [held?_replace, if_neg fun heq => hkey heq.1]
      rw [keeps_replace_of_ne hkey, hold]
      refine if_congr (and_congr_left fun _ => ?_) rfl rfl
      rw [List.mem_cons, or_iff_right hkey]

/-! ### One record -/

theorem held?_publish {record : Record ω β} :
    (h.publish record).held? key =
      if key = record.engineKey then some (.engine (.ofRecord record))
      else if key ∈ record.aliasKeys ∧ h.keeps key = false then some (.alias record.name)
      else h.held? key := by
  rw [publish, putConverter]
  refine (held?_replaceAll record.nodup_aliasKeys).trans ?_
  -- the aliases come behind the engine, and the converter is no entry at all
  by_cases hkey : key = record.engineKey
  · -- the engine's key is none of the aliases
    rw [if_neg fun hmem => Record.ne_engineKey_of_mem_aliasKeys hmem.1 record hkey, if_pos hkey,
      held?_put, if_pos hkey]
  · rw [keeps_put_of_ne hkey, if_neg hkey, held?_put, if_neg hkey]

theorem converter?_publish {record : Record ω β} {oid : Oid} :
    (h.publish record).converter? oid =
      if oid = record.oid then some record.adapter else h.converter? oid := by
  rw [publish, converter?_putConverter, converter?_replaceAll]
  rfl

@[simp] theorem removable_publish (record : Record ω β) :
    (h.publish record).removable = h.removable :=
  removable_replaceAll record.aliasKeys

/-- A record changes only what is kept of its own keys. -/
theorem keeps_publish_of_ne {record : Record ω β} (hengine : key ≠ record.engineKey)
    (halias : key ∉ record.aliasKeys) : (h.publish record).keeps key = h.keeps key := by
  rw [keeps, keeps, held?_publish, if_neg hengine, if_neg fun hmem => halias hmem.1,
    removable_publish]

/-- Records with different object identifiers leave each other's aliases alone. -/
theorem keeps_publish_of_mem_aliasKeys {record a : Record ω β} (ne : record.oid ≠ a.oid)
    (hkey : key ∈ a.aliasKeys) : (h.publish record).keeps key = h.keeps key :=
  keeps_publish_of_ne (Record.ne_engineKey_of_mem_aliasKeys hkey record)
    fun hmem => ne (Record.oid_eq_of_mem_aliasKeys hmem hkey)

/-! ### All records -/

@[simp] theorem removable_publishAll (records : List (Record ω β)) :
    (h.publishAll records).removable = h.removable := by
  induction records generalizing h with
  | nil => rfl
  | cons record rest ih => exact ih.trans (removable_publish record)

theorem keeps_publishAll_of_mem_aliasKeys {records : List (Record ω β)} {a : Record ω β}
    (ne : ∀ record ∈ records, record.oid ≠ a.oid) (hkey : key ∈ a.aliasKeys) :
    (h.publishAll records).keeps key = h.keeps key := by
  induction records generalizing h with
  | nil => rfl
  | cons record rest ih =>
    obtain ⟨hfirst, hrest⟩ := List.forall_mem_cons.mp ne
    exact (ih hrest).trans (keeps_publish_of_mem_aliasKeys hfirst hkey)

/-- **The effect of publishing records**: every engine and every converter is there, every alias is
unless one was kept in its place, and nothing else has changed. -/
structure Published (records : List (Record ω β)) (h h' : Holdings ω β) : Prop where
  engine : ∀ record ∈ records, h'.held? record.engineKey = some (.engine (.ofRecord record))
  converter : ∀ record ∈ records, h'.converter? record.oid = some record.adapter
  aliased : ∀ record ∈ records, ∀ key ∈ record.aliasKeys, h.keeps key = false →
    h'.held? key = some (.alias record.name)
  kept : ∀ record ∈ records, ∀ key ∈ record.aliasKeys, h.keeps key = true →
    h'.held? key = h.held? key
  other : ∀ key, (∀ record ∈ records, key ≠ record.engineKey ∧ key ∉ record.aliasKeys) →
    h'.held? key = h.held? key
  otherConverter : ∀ oid, (∀ record ∈ records, oid ≠ record.oid) →
    h'.converter? oid = h.converter? oid
  removable : h'.removable = h.removable

/-- Every key is that of an engine of theirs, or of an alias of theirs, or none of the two. -/
theorem key_cases (records : List (Record ω β)) (key : ProviderKey) :
    (∃ record ∈ records, key = record.engineKey) ∨
      (∃ record ∈ records, key ∈ record.aliasKeys) ∨
        ∀ record ∈ records, key ≠ record.engineKey ∧ key ∉ record.aliasKeys := by
  by_cases hengine : ∃ record ∈ records, key = record.engineKey
  · exact .inl hengine
  · by_cases halias : ∃ record ∈ records, key ∈ record.aliasKeys
    · exact .inr (.inl halias)
    · exact .inr (.inr fun record hrecord =>
        ⟨fun heq => hengine ⟨record, hrecord, heq⟩, fun hmem => halias ⟨record, hrecord, hmem⟩⟩)

theorem published_nil (h : Holdings ω β) : Published [] h h where
  engine _ hrecord := absurd hrecord List.not_mem_nil
  converter _ hrecord := absurd hrecord List.not_mem_nil
  aliased _ hrecord := absurd hrecord List.not_mem_nil
  kept _ hrecord := absurd hrecord List.not_mem_nil
  other _ _ := rfl
  otherConverter _ _ := rfl
  removable := rfl

/-- One more record in front, with none of its keys among those of the others. -/
theorem Published.cons {record : Record ω β} {rest : List (Record ω β)}
    (published : Published rest (h.publish record) h')
    (names : ∀ a ∈ rest, record.name ≠ a.name) (oids : ∀ a ∈ rest, record.oid ≠ a.oid) :
    Published (record :: rest) h h' := by
  -- no later record has a key of the first
  have hengine : ∀ a ∈ rest, record.engineKey ≠ a.engineKey ∧ record.engineKey ∉ a.aliasKeys :=
    fun a ha => ⟨fun heq => names a ha (ProviderKey.service.inj heq).2,
      fun hmem => Record.ne_engineKey_of_mem_aliasKeys hmem record rfl⟩
  have halias : ∀ key ∈ record.aliasKeys, ∀ a ∈ rest, key ≠ a.engineKey ∧ key ∉ a.aliasKeys :=
    fun key hkey a ha => ⟨Record.ne_engineKey_of_mem_aliasKeys hkey a,
      fun hmem => oids a ha (Record.oid_eq_of_mem_aliasKeys hkey hmem)⟩
  -- and the other way round
  have hrest : ∀ a ∈ rest, ∀ key ∈ a.aliasKeys, key ≠ record.engineKey ∧ key ∉ record.aliasKeys :=
    fun a ha key hkey => ⟨Record.ne_engineKey_of_mem_aliasKeys hkey record,
      fun hmem => oids a ha (Record.oid_eq_of_mem_aliasKeys hmem hkey)⟩
  refine ⟨?_, ?_, ?_, ?_, ?_, ?_, ?_⟩
  -- the first record's own keys go by what it did, all others by what the rest did behind it
  · refine List.forall_mem_cons.mpr ⟨?_, published.engine⟩
    rw [published.other _ hengine, held?_publish, if_pos rfl]
  · refine List.forall_mem_cons.mpr ⟨?_, published.converter⟩
    rw [published.otherConverter _ oids, converter?_publish, if_pos rfl]
  · refine List.forall_mem_cons.mpr ⟨fun key hkey hkept => ?_, fun a ha key hkey hkept => ?_⟩
    · rw [published.other _ (halias key hkey), held?_publish,
        if_neg (Record.ne_engineKey_of_mem_aliasKeys hkey record), if_pos ⟨hkey, hkept⟩]
    · -- the first record does not decide what is kept of the others
      have hsame := keeps_publish_of_mem_aliasKeys (h := h) (oids a ha) hkey
      exact published.aliased a ha key hkey (hsame.trans hkept)
  · refine List.forall_mem_cons.mpr ⟨fun key hkey hkept => ?_, fun a ha key hkey hkept => ?_⟩
    · rw [published.other _ (halias key hkey), held?_publish,
        if_neg (Record.ne_engineKey_of_mem_aliasKeys hkey record),
        if_neg fun hmem => Bool.false_ne_true (hmem.2.symm.trans hkept)]
    · obtain ⟨hne, hnotMem⟩ := hrest a ha key hkey
      have hsame := keeps_publish_of_mem_aliasKeys (h := h) (oids a ha) hkey
      rw [published.kept a ha key hkey (hsame.trans hkept), held?_publish, if_neg hne,
        if_neg fun hmem => hnotMem hmem.1]
  · intro key hkey
    obtain ⟨⟨hne, hnotMem⟩, hothers⟩ := List.forall_mem_cons.mp hkey
    rw [published.other key hothers, held?_publish, if_neg hne, if_neg fun hmem => hnotMem hmem.1]
  · intro oid hoid
    obtain ⟨hne, hothers⟩ := List.forall_mem_cons.mp hoid
    rw [published.otherConverter oid hothers, converter?_publish, if_neg hne]
  · rw [published.removable, removable_publish]

/-- **Records that do not collide do not undo one another.** -/
theorem published_publishAll {records : List (Record ω β)} (distinct : Registry.Distinct records)
    (h : Holdings ω β) : Published records h (h.publishAll records) := by
  -- the rest starts from what the first record leaves, which is why `h` varies
  induction records generalizing h with
  | nil => exact published_nil h
  | cons record rest ih =>
    obtain ⟨hrest, names, oids⟩ := Registry.Distinct.of_cons distinct
    exact (ih hrest (h.publish record)).cons names oids

end Holdings

end SignatureCatalog
