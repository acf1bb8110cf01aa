import SignatureCatalog.Proofs.Provider.Obstacles

/-!
# Publishing is all or nothing

Publishing a record comes to twenty writes, of which none is taken back, so it is all or nothing
only where no write fails behind one that has succeeded. This module shows it for every honest
provider, `Holdings.provider` being the most general of them: one that is what it holds.

What decides is known before the first write. A record is *blocked* (`Holdings.Blocks`) if its
engine's key cannot be cleared, or if an alias of it is kept and the leniency is `strict`:

* the check that comes first reads what is held and finds everything that is kept
  (`checkConflicts_of_kept`, `checkConflicts_of_obstructed`);
* it does not find an engine's key that is free and cannot be cleared, since nothing is kept there.
  Clearing that key is the first write, and it is refused (`replace_of_stuck`);
* behind it every key is free by the time something is added under it, or it is an alias that is
  kept, and then the failure of the addition is tolerated (`publish_of_clear`).

So a blocked record fails before anything has changed (`publish_of_blocked`), any other is published
(`publish_of_not_blocked`), and `publish_atomic` puts the two together. Records that do not collide
do not block one another, so that whether all of them can be published is known at the start as well
(`publishAll_eq_ok_iff`).
-/

namespace SignatureCatalog

variable {π ω β : Type}

/-! ### What blocks a record -/

namespace Holdings

/-- The engine's key cannot be cleared, or an alias is kept and that matters. -/
def Blocks (h : Holdings ω β) (leniency : Leniency) (record : Record ω β) : Prop :=
  h.removable record.engineKey = false ∨
    leniency = .strict ∧ ∃ key ∈ record.aliasKeys, h.keeps key = true

variable {h : Holdings ω β} {leniency : Leniency} {record a : Record ω β}

theorem removable_of_not_blocks (hclear : ¬h.Blocks leniency record) :
    h.removable record.engineKey = true := by
  rw [← Bool.not_eq_false]
  exact fun hstuck => hclear (.inl hstuck)

theorem keeps_eq_false_of_not_blocks (hclear : ¬h.Blocks leniency record)
    (hstrict : leniency = .strict) : ∀ key ∈ record.aliasKeys, h.keeps key = false := by
  intro key hkey
  rw [← Bool.not_eq_true]
  exact fun hkept => hclear (.inr ⟨hstrict, key, hkey, hkept⟩)

/-- What blocks a record is what the check finds, or else that the engine's key is reserved. -/
theorem blocks_iff : h.Blocks leniency record ↔
    h.FindsKept leniency record ∨ h.Reserves record.engineKey := by
  rw [Blocks, FindsKept, removable_eq_false_iff, or_right_comm]

/-- Another record that is published neither blocks a record nor clears its way. -/
theorem blocks_publish_iff (ne : record.oid ≠ a.oid) :
    (h.publish record).Blocks leniency a ↔ h.Blocks leniency a := by
  unfold Blocks
  rw [removable_publish]
  refine or_congr_right (and_congr_right fun _ => exists_congr fun key => ?_)
  refine and_congr_right fun hkey => ?_
  rw [keeps_publish_of_mem_aliasKeys ne hkey]

end Holdings

namespace Provider.Honest

open Act

variable {p : Provider π ω β} {holds : π → Holdings ω β} {reports : ProviderKey → Slot → Prop}
  (honest : p.Honest holds reports) {h : Holdings ω β} {leniency : Leniency} {record : Record ω β}

include honest

/-! ### All or nothing -/

/-- **A blocked record fails, and nothing has changed.** -/
theorem publish_of_blocked (hblocked : h.Blocks leniency record) :
    Ensures holds h (p.publish leniency record) fun result after _ =>
      (∃ e, result = .error e) ∧ after = h := by
  refine honest.ensures_publication.mono ?_
  intro result after es publication
  -- of the ways publishing can end, all but one leave what is held as it was
  have hfails : ∃ e, result = .error e :=
    publication.fails_iff.mpr (Holdings.blocks_iff.mp hblocked)
  cases publication with
  | engineKept | aliasKept | engineReserved => exact ⟨hfails, rfl⟩
  | published =>
    obtain ⟨e, herror⟩ := hfails
    cases herror

/-- **Any other record is published.** -/
theorem publish_of_not_blocked (hclear : ¬h.Blocks leniency record) :
    Ensures holds h (p.publish leniency record) fun result after _ =>
      result = .ok () ∧ after = h.publish record := by
  refine (honest.publish_of_clear (Holdings.removable_of_not_blocks hclear)
    (Holdings.keeps_eq_false_of_not_blocks hclear)).mono ?_
  rintro _ _ _ ⟨rfl, rfl, -⟩
  exact ⟨rfl, rfl⟩

/-- What is held after publishing tells whether it succeeded, and what it was told by what was held
before. -/
theorem publish_cases (s : π) (leniency : Leniency) (record : Record ω β) :
    let done := (p.publish leniency record).run s
    ((holds s).Blocks leniency record ∧ (∃ e, done.value = .error e) ∧
        holds done.world = holds s) ∨
      (¬(holds s).Blocks leniency record ∧ done.value = .ok () ∧
        holds done.world = (holds s).publish record) := by
  by_cases hblocked : (holds s).Blocks leniency record
  · exact .inl ⟨hblocked, honest.publish_of_blocked hblocked s rfl⟩
  · exact .inr ⟨hblocked, honest.publish_of_not_blocked hblocked s rfl⟩

/-- **Publishing records succeeds exactly if none of them is blocked at the start.** -/
theorem publishAll_eq_ok_iff {records : List (Record ω β)}
    (distinct : Registry.Distinct records) (s : π) :
    ((p.publishAll leniency records).run s).value = .ok () ↔
      ∀ record ∈ records, ¬(holds s).Blocks leniency record := by
  induction records generalizing s with
  | nil => exact iff_of_true rfl fun _ hrecord => absurd hrecord List.not_mem_nil
  | cons record rest ih =>
    obtain ⟨hrest, -, oids⟩ := distinct.of_cons
    rw [publishAll, List.forall_mem_cons]
    rcases honest.publish_cases s leniency record with
      ⟨hblocked, ⟨e, herror⟩, -⟩ | ⟨hclear, hfirst, hholds⟩
    -- a record that is blocked ends it, and is one of those that ought not to be
    · rw [run_andThen_of_error herror]
      exact iff_of_false nofun fun hclear => hclear.1 hblocked
    · -- the rest begins with what the first record leaves, which makes no difference to it
      rw [run_andThen_of_ok hfirst, and_iff_right hclear]
      refine (ih hrest _).trans (forall₂_congr fun a ha => not_congr ?_)
      rw [hholds]
      exact Holdings.blocks_publish_iff (oids a ha)

/-- Records that have been published one after the other have all been published. -/
theorem holds_publishAll_of_ok {records : List (Record ω β)} {s : π}
    (hok : ((p.publishAll leniency records).run s).value = .ok ()) :
    holds ((p.publishAll leniency records).run s).world = (holds s).publishAll records := by
  induction records generalizing s with
  | nil => rfl
  | cons record rest ih =>
    rw [publishAll] at hok ⊢
    rcases honest.publish_cases s leniency record with ⟨-, ⟨e, herror⟩, -⟩ | ⟨-, hfirst, hholds⟩
    · -- a record that fails would have ended it
      rw [run_andThen_of_error herror] at hok
      cases hok
    · rw [run_andThen_of_ok hfirst] at hok ⊢
      refine (ih hok).trans ?_
      rw [hholds]
      rfl

/-- What is held once a registry has been published, where that succeeded. -/
theorem published_of_configure {r : Registry ω β} (reachable : r.Reachable) {s : π}
    (configured : ((p.configure leniency r).run s).value = .ok ()) :
    Holdings.Published r.records (holds s) (holds ((p.configure leniency r).run s).world) := by
  have hworld : holds ((p.configure leniency r).run s).world = (holds s).publishAll r.records :=
    honest.holds_publishAll_of_ok configured
  rw [hworld]
  exact Holdings.published_publishAll reachable.distinct (holds s)

end Provider.Honest

/-- **Publishing a record is all or nothing**, into any honest provider, in whatever state it is.
Publishing that fails leaves every entry and every converter as it was; publishing that succeeds has
put all in place; and it fails exactly if the record is blocked. Tables are honest, whether they let
go of aliases or not. -/
theorem Provider.publish_atomic :
    (∀ {π ω β : Type} (p : Provider π ω β) (holds : π → Holdings ω β)
        (reports : ProviderKey → Slot → Prop), p.Honest holds reports →
      ∀ (s : π) (leniency : Leniency) (record : Record ω β),
        let done := (p.publish leniency record).run s
        (∀ e, done.value = .error e → holds done.world = holds s) ∧
          (done.value = .ok () → holds done.world = (holds s).publish record) ∧
          ((∃ e, done.value = .error e) ↔ (holds s).Blocks leniency record)) ∧
      ∀ {ω β : Type}, (ProviderTable.provider (ω := ω) (β := β)).Honest ProviderTable.holdings
        fun key slot => slot = .entry key := by
  refine ⟨?_, ProviderTable.honest⟩
  intro π ω β p holds reports honest s leniency record done
  rcases honest.publish_cases s leniency record with
    ⟨hblocked, ⟨e, herror⟩, hsame⟩ | ⟨hclear, hok, hpublished⟩
  -- either case settles all three, as a result is a failure or it is not
  · refine ⟨fun _ _ => hsame, fun hok => ?_, fun _ => hblocked, fun _ => ⟨e, herror⟩⟩
    rw [herror] at hok
    cases hok
  · refine ⟨fun e herror => ?_, fun _ => hpublished, fun herror => ?_, fun hblocked => ?_⟩
    · rw [hok] at herror
      cases herror
    · obtain ⟨e, herror⟩ := herror
      rw [hok] at herror
      cases herror
    · exact absurd hblocked hclear

/-- A table that holds an alias and does not let it go refuses the record that wants it under
`strict`, and is left as it was. -/
theorem Provider.publish_atomic_alias_kept :
    let record : Record Unit Sample.KeyBody :=
      ⟨⟨"XYZ-SIG", ⟨[0x2a, 0x03, 0x04]⟩, ⟨0xfeb3⟩⟩,
        Sample.HashScheme.adapter id ⟨⟨[0x2a, 0x03, 0x04]⟩, .flat⟩ "xyz", .flat⟩
    let key := ProviderKey.alias .keyFactory ⟨[0x2a, 0x03, 0x04]⟩ .prefixed
    let t : ProviderTable Unit Sample.KeyBody :=
      ((ProviderTable.empty true).addEntry key (.alias "OLD-SIG")).2
    let done := (ProviderTable.provider.publish .strict record).run t
    ProviderTable.provider.Honest (ω := Unit) (β := Sample.KeyBody) ProviderTable.holdings
        (fun key slot => slot = .entry key) ∧
      done.value = .error (.duplicateRegistration (.entry key)) ∧
      done.world.holdings = t.holdings := by
  intro record key t done
  have hfailed : done.value = .error (.duplicateRegistration (.entry key)) := rfl
  -- that it fails is a matter of running it, that it changes nothing is not
  have atomic := publish_atomic.1 ProviderTable.provider ProviderTable.holdings _
    ProviderTable.honest t .strict record
  exact ⟨ProviderTable.honest, hfailed, atomic.1 _ hfailed⟩

end SignatureCatalog
