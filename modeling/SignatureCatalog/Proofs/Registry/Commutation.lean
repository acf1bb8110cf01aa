import SignatureCatalog.Proofs.Registry.SameRecords

/-!
# Overrides that do not collide commute

An override takes away every record that collides with the new one, and puts the new one where the
first of them stood. Of two overrides the second meets what the first has left: it finds fewer
records in its way, if both collide with the same old one, and it puts its record elsewhere. If the
two new records do not collide with each other, the order in which they come is seen nowhere but in
the order of the records.

Both orders take away the records that collide with either of the two and add both, so the sides are
compared by way of a description that does not mention the order: `perm_records_overrideBoth` for
the records that are left, and `perm_displaced_overrideBoth` for those that have given way. What the
registries answer is then a matter of `Reachable.answersAlike`.
-/

namespace SignatureCatalog

variable {ω β α : Type}

/-- What is taken out first, and what is then taken out of the rest, is what is taken out for either
reason. -/
theorem perm_filter_append_filter (p q : α → Bool) (l : List α) :
    (l.filter p ++ (l.filter fun a => !p a).filter q).Perm (l.filter fun a => p a || q a) := by
  have hfirst : (l.filter fun a => p a || q a).filter p = l.filter p := by
    rw [List.filter_filter]
    exact List.filter_congr fun a _ => by cases p a <;> rfl
  have hsecond : (l.filter fun a => p a || q a).filter (fun a => !p a) =
      (l.filter fun a => !p a).filter q := by
    rw [List.filter_filter, List.filter_filter]
    exact List.filter_congr fun a _ => by cases p a <;> cases q a <;> rfl
  rw [← hfirst, ← hsecond]
  exact List.filter_append_perm p _

/-- In this world the adapter declares the interpretation that the record says. -/
def Record.DeclaredIn (record : Record ω β) (w : ω) : Prop :=
  (record.adapter.publicKeyEncoding.run w).value = record.publicKeyEncoding

/-- A call in such a world makes the record. -/
theorem Record.DeclaredIn.asked_eq {record : Record ω β} {w : ω} (declared : record.DeclaredIn w) :
    Record.asked record.toIdentity record.adapter w = record := by
  rw [asked, declared]

namespace Registry

variable {r : Registry ω β} {a b : Record ω β} {wa wb w : ω}

/-- **Every record has been declared**: its interpretation is what its adapter said when the record
was made. -/
theorem Reachable.exists_declaredIn (h : r.Reachable) : ∀ a ∈ r.records, ∃ w, a.DeclaredIn w := by
  induction h with
  | empty => exact nofun
  | register _ identity adapter world accepted ih =>
    obtain ⟨-, rfl⟩ := value_run_register_eq_ok_iff.mp accepted
    intro a ha
    rcases List.mem_append.mp ha with ha | ha
    · exact ih a ha
    · rw [List.mem_singleton.mp ha]
      -- the world it was made in; later worlds may have the adapter say something else
      exact ⟨world, rfl⟩
  | @override r _ identity adapter world ih =>
    intro a ha
    rw [value_run_override, records_ofRecords,
      List.mem_insertIdx (r.firstCollision_le_length identity)] at ha
    rcases ha with rfl | ha
    · exact ⟨world, rfl⟩
    · exact ih a (List.mem_filter.mp ha).1

/-- Overrides with two records, one after the other, each in the world it meets: the registry they
lead to, and all records that have given way. -/
def overrideBoth (r : Registry ω β) (first second : Record ω β × ω) :
    Registry ω β × List (Record ω β) :=
  let between := ((r.override first.1.toIdentity first.1.adapter).run first.2).value
  let last := ((between.1.override second.1.toIdentity second.1.adapter).run second.2).value
  (last.1, between.2 ++ last.2)

/-- The second override meets the records that the first has left. -/
theorem overrideBoth_eq (r : Registry ω β) (first second : Record ω β × ω) :
    r.overrideBoth first second =
      let between := ofRecords ((r.compatible first.1.toIdentity).insertIdx
        (r.firstCollision first.1.toIdentity)
        (Record.asked first.1.toIdentity first.1.adapter first.2))
      (ofRecords ((between.compatible second.1.toIdentity).insertIdx
        (between.firstCollision second.1.toIdentity)
        (Record.asked second.1.toIdentity second.1.adapter second.2)),
        r.colliding first.1.toIdentity ++ between.colliding second.1.toIdentity) := by
  rw [overrideBoth, value_run_override, value_run_override]

theorem Reachable.overrideBoth (h : r.Reachable) (first second : Record ω β × ω) :
    (r.overrideBoth first second).1.Reachable :=
  (h.override _ _ _).override _ _ _

/-- After an override there is the new record, and there are those it is compatible with. -/
theorem perm_records_override (r : Registry ω β) (declared : a.DeclaredIn w) :
    ((r.override a.toIdentity a.adapter).run w).value.1.records.Perm
      (a :: r.compatible a.toIdentity) := by
  rw [value_run_override, declared.asked_eq]
  exact List.perm_insertIdx _ _ (r.firstCollision_le_length _)

/-- After two overrides there are both new records, and those that are compatible with both. -/
theorem perm_records_overrideBoth (unrelated : a.collidesWith b.toIdentity = false)
    (ha : a.DeclaredIn wa) (hb : b.DeclaredIn wb) :
    (r.overrideBoth (a, wa) (b, wb)).1.records.Perm (b :: a :: r.records.filter fun record =>
      !(record.collidesWith a.toIdentity || record.collidesWith b.toIdentity)) := by
  have hfirst := perm_records_override r ha
  have hsecond := perm_records_override ((r.override a.toIdentity a.adapter).run wa).value.1 hb
  refine hsecond.trans (.cons b ?_)
  -- the second override meets the first record, and lets it stand
  have hkept : (!a.collidesWith b.toIdentity) = true := by rw [unrelated, Bool.not_false]
  refine (hfirst.filter _).trans ?_
  rw [List.filter_cons, if_pos hkept, compatible, List.filter_filter]
  refine .cons a (.of_eq (List.filter_congr fun record _ => ?_))
  rw [Bool.not_or, Bool.and_comm]

/-- What gives way to two overrides is what collides with either of the new records. -/
theorem perm_displaced_overrideBoth (unrelated : a.collidesWith b.toIdentity = false)
    (ha : a.DeclaredIn wa) (wb : ω) :
    (r.overrideBoth (a, wa) (b, wb)).2.Perm (r.records.filter fun record =>
      record.collidesWith a.toIdentity || record.collidesWith b.toIdentity) := by
  have hfirst := perm_records_override r ha
  have hnot : ¬a.collidesWith b.toIdentity = true := by rw [unrelated]; exact Bool.false_ne_true
  -- the first record does not give way to the second, so only what was there before does
  have hsecond : (((r.override a.toIdentity a.adapter).run wa).value.1.colliding
      b.toIdentity).Perm ((r.compatible a.toIdentity).filter fun record =>
        record.collidesWith b.toIdentity) := by
    refine (hfirst.filter _).trans ?_
    rw [List.filter_cons, if_neg hnot]
  rw [value_run_override] at hsecond
  rw [overrideBoth_eq]
  exact (hsecond.append_left (r.colliding a.toIdentity)).trans (perm_filter_append_filter _ _ _)

/-- **Two overrides in either order.** `ab` and `ba` are what the two orders lead to. -/
structure OrderForgotten (r : Registry ω β) (a b : Record ω β)
    (ab ba : Registry ω β × List (Record ω β)) : Prop where
  /-- Both orders leave the new records and the old ones that collide with neither. -/
  mem_records_iff : ∀ record, record ∈ ab.1.records ↔ record = a ∨ record = b ∨
    record ∈ r.records ∧ record.collidesWith a.toIdentity = false ∧
      record.collidesWith b.toIdentity = false
  same : SameRecords ab.1 ba.1
  answers : AnswersAlike ab.1 ba.1
  /-- The same schemes are offered. -/
  schemes : ab.1.dispatch.supportedSchemes.Perm ba.1.dispatch.supportedSchemes
  /-- Both orders displace the old records that collide with either. -/
  mem_displaced_iff : ∀ record, record ∈ ab.2 ↔ record ∈ r.records ∧
    (record.collidesWith a.toIdentity = true ∨ record.collidesWith b.toIdentity = true)
  displaced : ab.2.Perm ba.2
  /-- None of them is displaced twice. -/
  once : ab.2.Nodup ∧ ba.2.Nodup

/-- **Overrides with unrelated algorithms commute**, after any history, as far as any lookup can
tell. The two calls may meet other worlds when they come in the other order, as long as the adapters
declare the same there. -/
theorem overrides_commute (history : List (Change ω β × ω)) {a b : Record ω β}
    (unrelated : a.collidesWith b.toIdentity = false) {wa wb wa' wb' : ω}
    (ha : a.DeclaredIn wa) (hb : b.DeclaredIn wb) (ha' : a.DeclaredIn wa')
    (hb' : b.DeclaredIn wb') :
    OrderForgotten (ofHistory history) a b ((ofHistory history).overrideBoth (a, wa) (b, wb))
      ((ofHistory history).overrideBoth (b, wb') (a, wa')) := by
  have h : (ofHistory history).Reachable := reachable_ofHistory history
  have unrelated' : b.collidesWith a.toIdentity = false := by
    rw [Identity.collidesWith_comm, unrelated]
  have hab := h.overrideBoth (a, wa) (b, wb)
  have hba := h.overrideBoth (b, wb') (a, wa')
  -- the two descriptions differ in the order in which they name `a` and `b`
  have hleft : ((ofHistory history).records.filter fun record =>
      !(record.collidesWith b.toIdentity || record.collidesWith a.toIdentity)) =
      (ofHistory history).records.filter fun record =>
        !(record.collidesWith a.toIdentity || record.collidesWith b.toIdentity) :=
    List.filter_congr fun record _ => by rw [Bool.or_comm]
  have hgone : ((ofHistory history).records.filter fun record =>
      record.collidesWith b.toIdentity || record.collidesWith a.toIdentity) =
      (ofHistory history).records.filter fun record =>
        record.collidesWith a.toIdentity || record.collidesWith b.toIdentity :=
    List.filter_congr fun record _ => Bool.or_comm _ _
  have leftAB := perm_records_overrideBoth (r := ofHistory history) unrelated ha hb
  have leftBA := perm_records_overrideBoth (r := ofHistory history) unrelated' hb' ha'
  rw [hleft] at leftBA
  have goneAB := perm_displaced_overrideBoth (r := ofHistory history) unrelated ha wb
  have goneBA := perm_displaced_overrideBoth (r := ofHistory history) unrelated' hb' wa'
  rw [hgone] at goneBA
  have same : SameRecords ((ofHistory history).overrideBoth (a, wa) (b, wb)).1
      ((ofHistory history).overrideBoth (b, wb') (a, wa')).1 := by
    intro record
    -- both lists begin with the two new records, and go on alike
    exact (leftAB.trans ((List.Perm.swap a b _).trans leftBA.symm)).mem_iff
  -- what is displaced is a part of the records as they were, and none of these was there twice
  have nodup := h.nodup_records.filter fun record =>
    record.collidesWith a.toIdentity || record.collidesWith b.toIdentity
  refine ⟨fun record => ?_, same, hab.answersAlike hba same, hab.perm_supportedSchemes hba same,
    fun record => ?_, goneAB.trans goneBA.symm, goneAB.nodup_iff.mpr nodup,
    goneBA.nodup_iff.mpr nodup⟩
  · rw [leftAB.mem_iff, List.mem_cons, List.mem_cons, or_left_comm, List.mem_filter,
      Bool.not_eq_true', Bool.or_eq_false_iff]
  · rw [goneAB.mem_iff, List.mem_filter, Bool.or_eq_true]

/-- Two new records collide with one and the same old record, one by its name and one by its object
identifier. In either order it is displaced once, and only the places of the records differ. -/
theorem overrides_commute_shared_collision :
    let adapter (oid : Oid) : Adapter Unit Sample.KeyBody :=
      Sample.HashScheme.adapter id ⟨oid, .flat⟩ "xyz"
    let record (name : String) (oid : Oid) (code : UInt16) : Record Unit Sample.KeyBody :=
      ⟨⟨name, oid, ⟨code⟩⟩, adapter oid, .flat⟩
    let old := record "N" ⟨[0x2a, 0x03, 0x04]⟩ 1
    let other := record "P" ⟨[0x2a, 0x03, 0x06]⟩ 2
    let a := record "N" ⟨[0x2a, 0x03, 0x05]⟩ 3
    let b := record "Q" ⟨[0x2a, 0x03, 0x04]⟩ 4
    let history : List (Change Unit Sample.KeyBody × Unit) :=
      [(.register old.toIdentity old.adapter, ()), (.register other.toIdentity other.adapter, ())]
    let ab := (ofHistory history).overrideBoth (a, ()) (b, ())
    let ba := (ofHistory history).overrideBoth (b, ()) (a, ())
    (a.collidesWith b.toIdentity = false ∧ a.DeclaredIn () ∧ b.DeclaredIn ()) ∧
      OrderForgotten (ofHistory history) a b ab ba ∧ ab.2 = [old] ∧ ba.2 = [old] ∧
      ab.1.records = [a, other, b] ∧ ba.1.records = [b, other, a] := by
  intro adapter record old other a b history ab ba
  have unrelated : a.collidesWith b.toIdentity = false := by decide
  -- `a` takes the place of `old` for its name, `b` for its identifier
  have hab : ab = (ofRecords [a, other, b], [old]) := overrideBoth_eq _ _ _
  have hba : ba = (ofRecords [b, other, a], [old]) := overrideBoth_eq _ _ _
  refine ⟨⟨unrelated, rfl, rfl⟩, overrides_commute history unrelated rfl rfl rfl rfl,
    ?_, ?_, ?_, ?_⟩
  · rw [hab]
  · rw [hba]
  · rw [hab, records_ofRecords]
  · rw [hba, records_ofRecords]

end Registry

end SignatureCatalog
