import Mathlib.Data.List.Find
import SignatureCatalog.Proofs.Provider.Honest

/-!
# Configuring a table

What publishing all records of a registry into a table comes to, whatever the table held before.

A record is *obstructed* if one of its aliases is kept and the leniency is `strict`; nothing else
stands in its way, since a table lets go of everything but aliases. Records that are not obstructed
are published one after the other (`Honest.publishAll_of_clear`), and what the first records publish
obstructs none of the later ones, so that it can be told at the start which record is the first to
fail. `ProviderTable.configure_effect` is the whole: the registry may have any history, and where a
record is obstructed it says what has been published by then.
-/

namespace SignatureCatalog

variable {π ω β : Type}

/-! ### One part after the other -/

theorem Act.andThen_assoc {μ ε α γ δ : Type} (act : Act μ ω (Except ε α))
    (next : α → Act μ ω (Except ε γ)) (last : γ → Act μ ω (Except ε δ)) :
    (act.andThen next).andThen last = act.andThen fun a => (next a).andThen last := by
  simp only [andThen, bind_assoc]
  refine bind_congr fun result => ?_
  cases result with
  | ok a => rfl
  | error e => exact pure_bind _ _

theorem Provider.publishAll_append (p : Provider π ω β) (leniency : Leniency)
    (records records' : List (Record ω β)) :
    p.publishAll leniency (records ++ records') =
      (p.publishAll leniency records).andThen fun _ => p.publishAll leniency records' := by
  induction records with
  | nil => exact (pure_bind _ _).symm
  | cons record rest ih =>
    rw [List.cons_append, publishAll, publishAll, ih, Act.andThen_assoc]

/-! ### What is logged -/

/-- Where a provider reports keys as they are, the warnings are known. -/
theorem Warns.eq_of_entry {leniency : Leniency} {name : String} {kept : List ProviderKey}
    {es : List Event} (h : Warns (fun key slot => slot = .entry key) leniency name kept es) :
    es = if leniency = .warn then kept.map fun key => .keepingAlias (.entry key) name else [] := by
  unfold Warns at h
  split at h
  · next hwarn =>
    rw [if_pos hwarn]
    induction h with
    | nil => rfl
    | cons hfirst _ ih =>
      obtain ⟨slot, rfl, rfl⟩ := hfirst
      rw [List.map_cons, ih]
  · next hwarn => rw [if_neg hwarn, h]

namespace Holdings

/-- What is logged when records are published: each record, followed under `warn` by a warning for
each of its aliases that is kept, by service and then by spelling. -/
def publicationLog (h : Holdings ω β) (leniency : Leniency) (records : List (Record ω β)) :
    List Event :=
  records.flatMap fun record =>
    .publishing record.toIdentity record.oid.wellKnownName? ::
      if leniency = .warn then
        (record.aliasKeys.filter h.keeps).map fun key => .keepingAlias (.entry key) record.name
      else []

/-- A record that shares no object identifier with the others changes nothing about their log. -/
theorem publicationLog_publish {h : Holdings ω β} {leniency : Leniency} {record : Record ω β}
    {rest : List (Record ω β)} (oids : ∀ a ∈ rest, record.oid ≠ a.oid) :
    (h.publish record).publicationLog leniency rest = h.publicationLog leniency rest := by
  unfold publicationLog
  refine List.flatMap_congr fun a ha => ?_
  have hsame : a.aliasKeys.filter (h.publish record).keeps = a.aliasKeys.filter h.keeps :=
    List.filter_congr fun key hkey => keeps_publish_of_mem_aliasKeys (oids a ha) hkey
  rw [hsame]

end Holdings

/-! ### Publishing all records -/

namespace Provider.Honest

open Act

variable {p : Provider π ω β} {holds : π → Holdings ω β}
  (honest : p.Honest holds fun key slot => slot = .entry key) {h : Holdings ω β}
  {leniency : Leniency}

include honest

/-- **Records that nothing obstructs are published**, all of them. -/
theorem publishAll_of_clear {records : List (Record ω β)} (distinct : Registry.Distinct records)
    (hengine : ∀ record ∈ records, h.removable record.engineKey = true)
    (hclear : leniency = .strict →
      ∀ record ∈ records, ∀ key ∈ record.aliasKeys, h.keeps key = false) :
    Ensures holds h (p.publishAll leniency records) fun result after es =>
      result = .ok () ∧ after = h.publishAll records ∧ es = h.publicationLog leniency records := by
  induction records generalizing h with
  | nil => exact ensures_pure ⟨rfl, rfl, rfl⟩
  | cons record rest ih =>
    obtain ⟨hrest, -, oids⟩ := distinct.of_cons
    refine .andThen_of_ok ((honest.publish_of_clear (hengine record List.mem_cons_self)
      fun hstrict => hclear hstrict record List.mem_cons_self).mono ?_)
    rintro _ _ _ ⟨rfl, rfl, warnings, rfl, hwarns⟩
    refine ⟨(), rfl, (ih hrest ?_ ?_).mono ?_⟩
    -- what the first record publishes takes neither a key nor an alias from the others
    · intro a ha
      rw [Holdings.removable_publish]
      exact hengine a (List.mem_cons_of_mem _ ha)
    · intro hstrict a ha key hkey
      rw [Holdings.keeps_publish_of_mem_aliasKeys (oids a ha) hkey]
      exact hclear hstrict a (List.mem_cons_of_mem _ ha) key hkey
    · rintro _ _ _ ⟨rfl, rfl, rfl⟩
      refine ⟨rfl, rfl, ?_⟩
      -- the log of the rest is told by what was held at the start
      rw [Holdings.publicationLog_publish oids, hwarns.eq_of_entry]
      rfl

/-- **The first record that is obstructed ends it.** Those before it have been published. -/
theorem publishAll_of_obstructed {before rest : List (Record ω β)} {record : Record ω β}
    {key : ProviderKey} (distinct : Registry.Distinct (before ++ record :: rest))
    (hengine : ∀ a ∈ before ++ record :: rest, h.removable a.engineKey = true)
    (hclear : ∀ a ∈ before, ∀ key ∈ a.aliasKeys, h.keeps key = false)
    (hkey : record.aliasKeys.find? h.keeps = some key) :
    Ensures holds h (p.publishAll .strict (before ++ record :: rest)) fun result after es =>
      result = .error (.duplicateRegistration (.entry key)) ∧ after = h.publishAll before ∧
        es = h.publicationLog .strict before ++
          [.publishing record.toIdentity record.oid.wellKnownName?] := by
  obtain ⟨hbefore, -, hothers⟩ := List.pairwise_append.mp distinct
  have oids : ∀ a ∈ before, a.oid ≠ record.oid := fun a ha heq => by
    have hfree := hothers a ha record List.mem_cons_self
    rw [Identity.collidesWith_iff.mpr (.inr (.inl heq))] at hfree
    cases hfree
  -- the records before leave what is kept of this one's aliases
  have hkey' : record.aliasKeys.find? (h.publishAll before).keeps = some key := by
    rw [← hkey]
    exact List.find?_congr fun key hkey => Holdings.keeps_publishAll_of_mem_aliasKeys oids hkey
  have hremovable : (h.publishAll before).removable record.engineKey = true := by
    rw [Holdings.removable_publishAll]
    exact hengine record (List.mem_append_right _ List.mem_cons_self)
  have hengineKept := Holdings.keeps_eq_false_of_removable hremovable
  -- the records before are published, and this one fails
  rw [publishAll_append]
  refine .andThen_of_ok ((honest.publishAll_of_clear hbefore
    (fun a ha => hengine a (List.mem_append_left _ ha)) fun _ => hclear).mono ?_)
  rintro _ _ _ ⟨rfl, rfl, rfl⟩
  refine ⟨(), rfl, .andThen_of_error ((honest.publish_of_obstructed hengineKept hkey').mono ?_)⟩
  rintro _ _ _ ⟨rfl, rfl, rfl⟩
  exact ⟨_, rfl, rfl, rfl, rfl⟩

end Provider.Honest

/-! ### Tables -/

namespace ProviderTable

variable {t : ProviderTable ω β} {leniency : Leniency} {records : List (Record ω β)}

/-- A table lets go of every engine. -/
theorem removable_holdings_engineKey (record : Record ω β) :
    t.holdings.removable record.engineKey = true := by
  show (!(t.refusesAliasRemoval && false)) = true
  rw [Bool.and_false, Bool.not_false]

/-- It keeps the aliases that it holds if it refuses to have aliases removed. -/
theorem keeps_holdings_of_mem_aliasKeys {record : Record ω β} {key : ProviderKey}
    (h : key ∈ record.aliasKeys) :
    t.holdings.keeps key = (t.refusesAliasRemoval && (t.get? key).isSome) := by
  obtain ⟨s, form, rfl⟩ := ProviderKey.mem_aliases_iff.mp h
  show ((t.get? _).isSome && !!(t.refusesAliasRemoval && true)) = _
  rw [Bool.not_not, Bool.and_true, Bool.and_comm]

/-- Some record's alias is held by a table that does not let it go, and that matters. -/
def Obstructs (t : ProviderTable ω β) (leniency : Leniency) (records : List (Record ω β)) : Prop :=
  leniency = .strict ∧ t.refusesAliasRemoval = true ∧
    ∃ record ∈ records, ∃ key ∈ record.aliasKeys, (t.get? key).isSome = true

/-- What obstructs records is an alias of the first record that has one in the table. -/
theorem Obstructs.exists_first (h : t.Obstructs leniency records) :
    ∃ before record rest key, records = before ++ record :: rest ∧
      (∀ a ∈ before, ∀ key ∈ a.aliasKeys, t.get? key = none) ∧
      record.aliasKeys.find? (fun key => (t.get? key).isSome) = some key := by
  obtain ⟨-, -, a, ha, key, hkey, hsome⟩ := h
  -- some record has an alias in the table, so there is a first one, and of it a first alias
  have hfirst : (records.find? fun a =>
      a.aliasKeys.any fun key => (t.get? key).isSome).isSome = true := by
    rw [List.find?_isSome]
    exact ⟨a, ha, List.any_eq_true.mpr ⟨key, hkey, hsome⟩⟩
  obtain ⟨record, hrecord⟩ := Option.isSome_iff_exists.mp hfirst
  obtain ⟨hany, before, rest, hrecords, hbefore⟩ := List.find?_eq_some_iff_append.mp hrecord
  obtain ⟨key', hkey'⟩ := Option.isSome_iff_exists.mp
    (List.find?_isSome.mpr (List.any_eq_true.mp hany))
  refine ⟨before, record, rest, key', hrecords, fun a ha key hkey => ?_, hkey'⟩
  have hnone := hbefore a ha
  rw [Bool.not_eq_true', List.any_eq_false] at hnone
  exact Option.not_isSome_iff_eq_none.mp (hnone key hkey)

theorem keeps_eq_false_of_not_obstructs (h : ¬t.Obstructs leniency records)
    (hstrict : leniency = .strict) :
    ∀ record ∈ records, ∀ key ∈ record.aliasKeys, t.holdings.keeps key = false := by
  intro record hrecord key hkey
  rw [keeps_holdings_of_mem_aliasKeys hkey]
  by_contra hkept
  rw [Bool.not_eq_false, Bool.and_eq_true] at hkept
  -- an alias that is kept is held in a table that does not let it go, and so obstructs
  exact h ⟨hstrict, hkept.1, record, hrecord, key, hkey, hkept.2⟩

/-- **What configuring a table comes to.** It succeeds unless a record is obstructed; then every
record has been published, every alias that was kept is as it was, everything else is as it was, and
under `warn` the log has a warning for each alias that was kept. If a record is obstructed, then the
first alias that is held of the first such record is reported, the records before it have been
published, and nothing else has changed. -/
theorem configure_effect (history : List (Registry.Change ω β × ω)) (t : ProviderTable ω β)
    (leniency : Leniency) :
    let r := Registry.ofHistory history
    let done := (provider.configure leniency r).run t
    (¬t.Obstructs leniency r.records →
      done.value = .ok () ∧ Holdings.Published r.records t.holdings done.world.holdings ∧
        events done.marks = t.holdings.publicationLog leniency r.records) ∧
    (t.Obstructs leniency r.records → ∃ before record rest key,
      r.records = before ++ record :: rest ∧
        (∀ a ∈ before, ∀ key ∈ a.aliasKeys, t.get? key = none) ∧
        record.aliasKeys.find? (fun key => (t.get? key).isSome) = some key ∧
        done.value = .error (.duplicateRegistration (.entry key)) ∧
        Holdings.Published before t.holdings done.world.holdings ∧
        events done.marks = t.holdings.publicationLog leniency before ++
          [.publishing record.toIdentity record.oid.wellKnownName?]) := by
  intro r done
  have distinct : Registry.Distinct r.records := (Registry.reachable_ofHistory history).distinct
  constructor
  · intro hclear
    obtain ⟨hvalue, hworld, hlog⟩ := honest.publishAll_of_clear distinct
      (fun record _ => removable_holdings_engineKey record)
      (keeps_eq_false_of_not_obstructs hclear) t rfl
    refine ⟨hvalue, ?_, hlog⟩
    show Holdings.Published _ _ (holdings ((provider.publishAll leniency r.records).run t).world)
    rw [hworld]
    exact Holdings.published_publishAll distinct t.holdings
  · intro hobstructs
    obtain ⟨before, record, rest, key, hrecords, hbefore, hkey⟩ := hobstructs.exists_first
    obtain ⟨rfl, hrefuses, -⟩ := hobstructs
    -- in a table that refuses removal, an alias is kept if it is held
    have hkept : record.aliasKeys.find? t.holdings.keeps = some key := by
      rw [← hkey]
      refine List.find?_congr fun key hkey => ?_
      rw [keeps_holdings_of_mem_aliasKeys hkey, hrefuses, Bool.true_and]
    rw [hrecords] at distinct
    obtain ⟨hvalue, hworld, hlog⟩ := honest.publishAll_of_obstructed distinct
      (fun record _ => removable_holdings_engineKey record)
      (fun a ha key hkey => by
        rw [keeps_holdings_of_mem_aliasKeys hkey, hbefore a ha key hkey]
        exact Bool.and_false _) hkept t rfl
    rw [← hrecords] at hvalue hworld hlog
    refine ⟨before, record, rest, key, hrecords, hbefore, hkey, hvalue, ?_, hlog⟩
    show Holdings.Published _ _ (holdings ((provider.publishAll .strict r.records).run t).world)
    rw [hworld]
    exact Holdings.published_publishAll (List.pairwise_append.mp distinct).1 t.holdings

end ProviderTable

end SignatureCatalog
