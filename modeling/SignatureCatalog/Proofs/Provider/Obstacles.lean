import SignatureCatalog.Proofs.Provider.Honest
import SignatureCatalog.Sample.HashScheme

/-!
# What stands in the way of a record

Publishing decides twice whether a key may be cleared. The check that comes first looks for entries
that cannot be removed, so that a key under which nothing is held is never in the way. The writes
then clear every key before they add under it, whether anything is held there or not, and take a
refusal in two ways: an alias is added all the same, and for the engine the refusal ends it.

The two come apart over one key only. Where nothing is held under the engine's key and the provider
does not let that key be cleared, it is *reserved*: the check passes, and the first write is refused
(`Publication.engineReserved`). So a record fails if the check finds something
(`Holdings.FindsKept`), and also if its engine's key is reserved (`Honest.publish_fails_iff`). An
empty provider that keeps all aliases in place accepts any record, and an empty one that allows no
removal at all accepts none (`publish_fails_where_nothing_is_held`).
-/

namespace SignatureCatalog

variable {π ω β : Type}

/-! ### What the check finds, and what it does not -/

namespace Holdings

variable {h : Holdings ω β} {leniency : Leniency} {record : Record ω β} {key : ProviderKey}

/-- An entry that matters is held and cannot be removed: the engine, or under `strict` an alias. -/
def FindsKept (h : Holdings ω β) (leniency : Leniency) (record : Record ω β) : Prop :=
  h.keeps record.engineKey = true ∨
    leniency = .strict ∧ ∃ key ∈ record.aliasKeys, h.keeps key = true

/-- Nothing is held under the key, and the key cannot be cleared. -/
def Reserves (h : Holdings ω β) (key : ProviderKey) : Prop :=
  h.held? key = none ∧ h.removable key = false

/-- A key that cannot be cleared is kept or reserved. -/
theorem removable_eq_false_iff :
    h.removable key = false ↔ h.keeps key = true ∨ h.Reserves key := by
  rw [keeps, Reserves, Bool.and_eq_true, Bool.not_eq_true', ← or_and_right,
    Option.isSome_iff_ne_none, and_iff_right (ne_or_eq _ _)]

/-- Nothing is kept among keys under which nothing is held. -/
theorem keeps_eq_false_of_free (hfree : h.held? key = none) : h.keeps key = false := by
  rw [keeps, hfree, Option.isSome_none, Bool.false_and]

/-- Where a record's keys are free, the check finds nothing. -/
theorem not_findsKept_of_free (hengine : h.held? record.engineKey = none)
    (haliases : ∀ key ∈ record.aliasKeys, h.held? key = none) : ¬h.FindsKept leniency record := by
  rintro (hkept | ⟨-, key, hkey, hkept⟩)
  · rw [keeps_eq_false_of_free hengine] at hkept
    cases hkept
  · rw [keeps_eq_false_of_free (haliases key hkey)] at hkept
    cases hkept

/-- What publishing a record comes to: its result, what is held afterwards, and the log. -/
inductive Publication (reports : ProviderKey → Slot → Prop) (h : Holdings ω β)
    (leniency : Leniency) (record : Record ω β) :
    Except Error Unit → Holdings ω β → List Event → Prop
  /-- The check finds the engine. -/
  | engineKept : h.keeps record.engineKey = true →
    Publication reports h leniency record (.error (.removalUnsupported (.entry record.engineKey))) h
      [.publishing record.toIdentity record.oid.wellKnownName?]
  /-- The check finds an alias, and reports the first. -/
  | aliasKept (key : ProviderKey) : h.keeps record.engineKey = false → leniency = .strict →
    record.aliasKeys.find? h.keeps = some key →
    Publication reports h leniency record (.error (.duplicateRegistration (.entry key))) h
      [.publishing record.toIdentity record.oid.wellKnownName?]
  /-- The check finds nothing, and the provider refuses to clear the engine's key. -/
  | engineReserved (slot : Slot) : ¬h.FindsKept leniency record → h.Reserves record.engineKey →
    Publication reports h leniency record (.error (.removalUnsupported slot)) h
      [.publishing record.toIdentity record.oid.wellKnownName?]
  /-- Everything is in place, except for aliases that are kept. -/
  | published (warnings : List Event) : ¬h.FindsKept leniency record →
    h.removable record.engineKey = true →
    Warns reports leniency record.name (record.aliasKeys.filter h.keeps) warnings →
    Publication reports h leniency record (.ok ()) (h.publish record)
      (.publishing record.toIdentity record.oid.wellKnownName? :: warnings)

/-- Publishing fails where the check finds something or the engine's key is reserved. -/
theorem Publication.fails_iff {reports : ProviderKey → Slot → Prop} {result : Except Error Unit}
    {after : Holdings ω β} {es : List Event}
    (publication : h.Publication reports leniency record result after es) :
    (∃ e, result = .error e) ↔ h.FindsKept leniency record ∨ h.Reserves record.engineKey := by
  -- each outcome carries what it takes to say on which side it is
  cases publication with
  | engineKept hkept => exact iff_of_true ⟨_, rfl⟩ (.inl (.inl hkept))
  | aliasKept key _ hstrict hkey =>
    refine iff_of_true ⟨_, rfl⟩ (.inl (.inr ⟨hstrict, key, List.mem_of_find?_eq_some hkey, ?_⟩))
    exact List.find?_some hkey
  | engineReserved slot _ hreserves => exact iff_of_true ⟨_, rfl⟩ (.inr hreserves)
  | published warnings hfinds hremovable _ =>
    have hreserves : ¬h.Reserves record.engineKey := fun hreserves => by
      rw [hreserves.2] at hremovable
      cases hremovable
    exact iff_of_false (fun ⟨e, herror⟩ => nomatch herror) (not_or.mpr ⟨hfinds, hreserves⟩)

end Holdings

/-! ### Every outcome of publishing -/

namespace Provider.Honest

open Act

variable {p : Provider π ω β} {holds : π → Holdings ω β} {reports : ProviderKey → Slot → Prop}
  (honest : p.Honest holds reports) {h : Holdings ω β} {leniency : Leniency} {record : Record ω β}

include honest

/-- An engine that is kept is found by the check. -/
theorem checkConflicts_of_kept {engine : ProviderKey} {aliases : List ProviderKey}
    (hengine : h.keeps engine = true) :
    Ensures holds h (p.checkConflicts leniency engine aliases) fun result after es =>
      result = .error (.removalUnsupported (.entry engine)) ∧ after = h ∧ es = [] := by
  refine .bind ((honest.isStuck engine).mono ?_)
  rintro _ _ _ ⟨rfl, rfl, rfl⟩
  rw [hengine, if_pos rfl]
  exact ensures_pure ⟨rfl, rfl, rfl⟩

/-- An entry that cannot be removed is not replaced: the addition is not reached. -/
theorem replace_of_stuck {key : ProviderKey} (e : ProviderEntry ω β)
    (hstuck : h.removable key = false) :
    Ensures holds h (p.replace key e) fun result after es =>
      (∃ slot, result = .error (.removalUnsupported slot)) ∧ after = h ∧ es = [] := by
  refine .andThen_of_error ((honest.askRemove_of_stuck hstuck).mono ?_)
  rintro _ _ _ ⟨⟨slot, rfl⟩, rfl, rfl⟩
  exact ⟨_, rfl, ⟨slot, rfl⟩, rfl, rfl⟩

/-- An engine that is kept is reported, under every leniency. -/
theorem publish_of_kept (hengine : h.keeps record.engineKey = true) :
    Ensures holds h (p.publish leniency record) fun result after es =>
      result = .error (.removalUnsupported (.entry record.engineKey)) ∧ after = h ∧
        es = [.publishing record.toIdentity record.oid.wellKnownName?] := by
  refine .bind (ensures_log ?_)
  refine .andThen_of_error ((honest.checkConflicts_of_kept hengine).mono ?_)
  rintro _ _ _ ⟨rfl, rfl, rfl⟩
  exact ⟨_, rfl, rfl, rfl, rfl⟩

/-- Where nothing is kept that matters, the check passes and clearing the engine's key is refused
after all if it cannot be cleared. -/
theorem publish_of_stuck (hkept : h.keeps record.engineKey = false)
    (hstuck : h.removable record.engineKey = false)
    (hclear : leniency = .strict → ∀ key ∈ record.aliasKeys, h.keeps key = false) :
    Ensures holds h (p.publish leniency record) fun result after es =>
      (∃ slot, result = .error (.removalUnsupported slot)) ∧ after = h ∧
        es = [.publishing record.toIdentity record.oid.wellKnownName?] := by
  refine .bind (ensures_log ?_)
  refine .andThen_of_ok ((honest.checkConflicts_of_clear hkept hclear).mono ?_)
  rintro _ _ _ ⟨rfl, rfl, rfl⟩
  refine ⟨(), rfl, .andThen_of_error ((honest.replace_of_stuck _ hstuck).mono ?_)⟩
  rintro _ _ _ ⟨⟨slot, rfl⟩, rfl, rfl⟩
  exact ⟨_, rfl, ⟨slot, rfl⟩, rfl, rfl⟩

/-- **Publishing into an honest provider comes to one of four things**, and what is held at the
start says to which. -/
theorem ensures_publication :
    Ensures holds h (p.publish leniency record) (h.Publication reports leniency record) := by
  cases hengine : h.keeps record.engineKey with
  | true =>
    refine (honest.publish_of_kept hengine).mono ?_
    rintro _ _ _ ⟨rfl, rfl, rfl⟩
    exact .engineKept hengine
  | false =>
    by_cases haliases : leniency = .strict ∧ ∃ key ∈ record.aliasKeys, h.keeps key = true
    -- under `strict` an alias that is kept is found, and the first of them is reported
    · obtain ⟨rfl, hkept⟩ := haliases
      obtain ⟨key, hkey⟩ := Option.isSome_iff_exists.mp (List.find?_isSome.mpr hkept)
      refine (honest.publish_of_obstructed hengine hkey).mono ?_
      rintro _ _ _ ⟨rfl, rfl, rfl⟩
      exact .aliasKept key hengine rfl hkey
    · -- the check passes, and the engine's key decides
      have hclear : leniency = .strict → ∀ key ∈ record.aliasKeys, h.keeps key = false := by
        intro hstrict key hkey
        rw [← Bool.not_eq_true]
        exact fun hkept => haliases ⟨hstrict, key, hkey, hkept⟩
      have hfinds : ¬h.FindsKept leniency record := by
        rintro (hkept | hkept)
        · rw [hengine] at hkept
          cases hkept
        · exact haliases hkept
      cases hremovable : h.removable record.engineKey with
      | true =>
        refine (honest.publish_of_clear hremovable hclear).mono ?_
        rintro _ _ _ ⟨rfl, rfl, warnings, rfl, hwarns⟩
        exact .published warnings hfinds hremovable hwarns
      | false =>
        -- the check would have found an entry there, so nothing is held under the key
        have hreserves : h.Reserves record.engineKey :=
          (Holdings.removable_eq_false_iff.mp hremovable).resolve_left fun hkept =>
            hfinds (.inl hkept)
        refine (honest.publish_of_stuck hengine hremovable hclear).mono ?_
        rintro _ _ _ ⟨⟨slot, rfl⟩, rfl, rfl⟩
        exact .engineReserved slot hfinds hreserves

/-- **What can make publishing fail**, for an honest provider in any state: something that the check
finds, or an engine's key that is reserved. Where none of the record's keys is taken, only the
latter is left, and whether aliases may be removed makes no difference. -/
theorem publish_fails_iff (s : π) (leniency : Leniency) (record : Record ω β) :
    let h := holds s
    let done := (p.publish leniency record).run s
    h.Publication reports leniency record done.value (holds done.world) (events done.marks) ∧
      ((∃ e, done.value = .error e) ↔
        h.FindsKept leniency record ∨ h.Reserves record.engineKey) ∧
      (h.held? record.engineKey = none → (∀ key ∈ record.aliasKeys, h.held? key = none) →
        (done.value = .ok () ↔ h.removable record.engineKey = true)) := by
  intro h done
  have publication :
      h.Publication reports leniency record done.value (holds done.world) (events done.marks) :=
    honest.ensures_publication s rfl
  have fails := publication.fails_iff
  refine ⟨publication, fails, fun hengine haliases => ?_⟩
  have hfinds : ¬h.FindsKept leniency record := Holdings.not_findsKept_of_free hengine haliases
  -- with all keys free it is the engine's key alone that can be in the way
  have hreserves : h.Reserves record.engineKey ↔ h.removable record.engineKey = false :=
    and_iff_right hengine
  rw [or_iff_right hfinds, hreserves] at fails
  cases hvalue : done.value with
  | ok =>
    have hremovable : h.removable record.engineKey ≠ false := fun hstuck => by
      obtain ⟨e, herror⟩ := fails.mpr hstuck
      rw [hvalue] at herror
      cases herror
    exact iff_of_true rfl (eq_true_of_ne_false hremovable)
  | error e =>
    rw [fails.mp ⟨e, hvalue⟩]
    exact iff_of_false nofun nofun

end Provider.Honest

/-! ### The most general honest provider -/

/-- The provider whose state is what it holds. -/
def Holdings.provider : Provider (Holdings ω β) ω β where
  entry key h := (h.held? key, h)
  addEntry key e h := match h.held? key with
    | none => (.ok (), h.put key (some e))
    | some _ => (.error (.duplicateRegistration (.entry key)), h)
  removeEntry key h := match h.removable key with
    | true => (.ok (h.held? key), h.put key none)
    | false => (.error (.removalUnsupported (.entry key)), h)
  isRemovable key h := (h.removable key, h)
  addConverter oid adapter h := match h.converter? oid with
    | none => (.ok (), h.putConverter oid (some adapter))
    | some _ => (.error (.duplicateRegistration (.converter oid)), h)
  removeConverter oid h := (h.converter? oid, h.putConverter oid none)

/-- **Any holdings are those of an honest provider**, whatever it lets go of. -/
theorem Holdings.honest_provider :
    (provider (ω := ω) (β := β)).Honest id fun key slot => slot = .entry key where
  entry _ _ := ⟨rfl, rfl⟩
  isRemovable _ _ := ⟨rfl, rfl⟩
  add_free key e h hfree := by
    have hfree : h.held? key = none := hfree
    simp [provider, hfree]
  add_taken key e h htaken := by
    -- the entry is named, since the provider decides by looking at it
    obtain ⟨e', htaken⟩ := Option.ne_none_iff_exists'.mp htaken
    have htaken : h.held? key = some e' := htaken
    simp [provider, htaken]
  remove_removable key h hremovable := by
    have hremovable : h.removable key = true := hremovable
    simp [provider, hremovable]
  remove_stuck key h hstuck := by
    have hstuck : h.removable key = false := hstuck
    simp [provider, hstuck]
  addConverter_free oid adapter h hfree := by
    have hfree : h.converter? oid = none := hfree
    simp [provider, hfree]
  addConverter_taken oid adapter h htaken := by
    obtain ⟨adapter', htaken⟩ := Option.ne_none_iff_exists'.mp htaken
    have htaken : h.converter? oid = some adapter' := htaken
    simp [provider, htaken]
  removeConverter _ _ := rfl

/-- Nothing is held, and these keys may be cleared. -/
def Holdings.bare (removable : ProviderKey → Bool) : Holdings ω β :=
  ⟨fun _ => none, fun _ => none, removable⟩

/-- Where an empty provider lets go of engines but of no alias, a record is published into it with
all of its aliases, even under `strict`. -/
theorem Provider.Honest.publish_fails_iff_aliases_locked :
    let record : Record Unit Sample.KeyBody :=
      ⟨⟨"XYZ-SIG", ⟨[0x2a, 0x03, 0x04]⟩, ⟨0xfeb3⟩⟩,
        Sample.HashScheme.adapter id ⟨⟨[0x2a, 0x03, 0x04]⟩, .flat⟩ "xyz", .flat⟩
    let h : Holdings Unit Sample.KeyBody := .bare fun key => !key.isAlias
    let done := (Holdings.provider.publish .strict record).run h
    Holdings.provider.Honest (ω := Unit) (β := Sample.KeyBody) id
        (fun key slot => slot = .entry key) ∧
      done.value = .ok () ∧
      ∀ key ∈ record.aliasKeys, done.world.held? key = some (.alias "XYZ-SIG") := by
  intro record h done
  have hok : done.value = .ok () :=
    ((Holdings.honest_provider.publish_fails_iff h .strict record).2.2 rfl fun _ _ => rfl).mpr rfl
  refine ⟨Holdings.honest_provider, hok, fun key hkey => ?_⟩
  -- no alias was kept before, so all of them are in place
  have hworld : done.world = h.publish record :=
    (Holdings.honest_provider.publish_of_clear rfl (fun _ _ _ => rfl) h rfl).2.1
  have published : Holdings.Published [record] h (h.publish record) :=
    Holdings.published_publishAll (List.pairwise_singleton _ _) h
  rw [hworld]
  exact published.aliased record List.mem_cons_self key hkey rfl

/-- A provider that allows no removal at all refuses every record, although it holds nothing: there
is nothing that the check could find, and the engine's key is reserved. -/
theorem Provider.Honest.publish_fails_where_nothing_is_held :
    let record : Record Unit Sample.KeyBody :=
      ⟨⟨"XYZ-SIG", ⟨[0x2a, 0x03, 0x04]⟩, ⟨0xfeb3⟩⟩,
        Sample.HashScheme.adapter id ⟨⟨[0x2a, 0x03, 0x04]⟩, .flat⟩ "xyz", .flat⟩
    let h : Holdings Unit Sample.KeyBody := .bare fun _ => false
    let done := (Holdings.provider.publish .warn record).run h
    Holdings.provider.Honest (ω := Unit) (β := Sample.KeyBody) id
        (fun key slot => slot = .entry key) ∧
      ¬h.FindsKept .warn record ∧
      done.value = .error (.removalUnsupported (.entry record.engineKey)) := by
  intro record h done
  exact ⟨Holdings.honest_provider, Holdings.not_findsKept_of_free rfl fun _ _ => rfl, rfl⟩

end SignatureCatalog
