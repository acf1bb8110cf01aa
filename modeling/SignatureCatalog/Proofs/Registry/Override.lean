import Mathlib.Data.List.Perm.Subperm
import SignatureCatalog.Proofs.Registry.Identifiers
import SignatureCatalog.Sample.HashScheme

/-!
# What an override displaces

An override works by places: it notes where the colliding records stand, takes them out from the
last to the first, and puts the new record where the first of them stood. `Displaces` says what that
comes to without mentioning places. What has given way is what collides with the new record, what is
left is the rest in its old order, and the new record stands behind exactly those that came before
everything that gave way.

The identifiers follow. No two records share one, so there is at most one record to give way for
each of the three that the new record bears, and an identifier that only a displaced record bore is
unknown afterwards. Where nothing gives way an override is a registration
(`Reachable.run_register_of_free`).
-/

namespace SignatureCatalog

variable {ω β : Type}

/-- Where the first of the elements stood that give way is behind all that came before it. -/
theorem Displacement.insertIdx_findIdx_eq {α : Type} (p : α → Bool) (a : α) (l : List α) :
    (l.filter fun b => !p b).insertIdx (l.findIdx p) a =
      (l.takeWhile fun b => !p b) ++ a :: (l.dropWhile fun b => !p b).filter fun b => !p b := by
  -- along the elements that stay, until the first that gives way
  induction l with
  | nil => rfl
  | cons b l ih =>
    rw [List.findIdx_cons, List.takeWhile_cons, List.dropWhile_cons]
    cases hb : p b with
    | true =>
      -- `b` is the first that gives way
      rfl
    | false =>
      rw [List.filter_cons_of_pos (by rw [hb]; rfl)]
      exact congrArg (b :: ·) ih

namespace Registry

variable {r : Registry ω β} {identity : Identity} {adapter : Adapter ω β} {w : ω}

/-- The records that give way to an identity bear one of its identifiers. -/
theorem mem_colliding_iff {a : Record ω β} :
    a ∈ r.colliding identity ↔ a ∈ r.records ∧
      (a.Bears (.name identity.name) ∨ a.Bears (.oid identity.oid) ∨
        a.Bears (.scheme identity.scheme)) := by
  rw [colliding, List.mem_filter, Identity.collidesWith_iff]
  rfl

/-- **At most three records give way**: the ones that the three lookups find. -/
theorem Reachable.length_colliding_le (h : r.Reachable) (identity : Identity) :
    (r.colliding identity).length ≤ 3 := by
  -- each of the three lookups finds one record at most
  let found (identifier : Identifier) : List (Record ω β) :=
    (r.lookup identifier).toOption.toList
  have mem_found {a : Record ω β} {identifier : Identifier} (ha : a ∈ r.records)
      (bears : a.Bears identifier) : a ∈ found identifier := by
    show a ∈ (r.lookup identifier).toOption.toList
    rw [h.lookup_eq_ok_iff.mpr ⟨ha, bears⟩]
    exact List.mem_singleton_self a
  have length_found (identifier : Identifier) : (found identifier).length ≤ 1 := by
    show (r.lookup identifier).toOption.toList.length ≤ 1
    cases r.lookup identifier with
    | error e => exact Nat.zero_le 1
    | ok a => exact Nat.le_refl 1
  have subset : r.colliding identity ⊆ found (.name identity.name) ++
      (found (.oid identity.oid) ++ found (.scheme identity.scheme)) := by
    intro a ha
    obtain ⟨hmem, hname | hoid | hscheme⟩ := mem_colliding_iff.mp ha
    · exact List.mem_append_left _ (mem_found hmem hname)
    · exact List.mem_append_right _ (List.mem_append_left _ (mem_found hmem hoid))
    · exact List.mem_append_right _ (List.mem_append_right _ (mem_found hmem hscheme))
  have nodup : (r.colliding identity).Nodup :=
    h.exactLookup_name.distinct.of_map.filter _
  -- no record counts twice, so there are no more of them than in the three lists
  have hle := (nodup.subperm subset).length_le
  rw [List.length_append, List.length_append] at hle
  have hname := length_found (.name identity.name)
  have hoid := length_found (.oid identity.oid)
  have hscheme := length_found (.scheme identity.scheme)
  omega

/-- **The new record displaces what collides with it**, and everything else is as before. -/
structure Displaces (r : Registry ω β) (record : Record ω β)
    (after : Registry ω β × List (Record ω β)) : Prop where
  /-- Worked off by places, no place lies behind the end when its turn comes. -/
  in_range : Displacement.displace? (fun a => a.collidesWith record.toIdentity) record r.records =
    some (after.1.records, after.2)
  /-- What has given way shares one of the three identifiers, and comes in its old order. -/
  displaced : after.2 = r.records.filter fun a =>
    a.name = record.name ∨ a.oid = record.oid ∨ a.scheme = record.scheme
  displaced_nodup : after.2.Nodup
  length_displaced : after.2.length ≤ 3
  /-- The new record stands where the first of them stood. -/
  records : after.1.records =
    (r.records.takeWhile fun a => !a.collidesWith record.toIdentity) ++
      record :: (r.records.dropWhile fun a => !a.collidesWith record.toIdentity).filter
        fun a => !a.collidesWith record.toIdentity
  /-- Whoever has not given way is there as before, in the same order. -/
  survivors : (r.records.filter fun a => !a.collidesWith record.toIdentity).Sublist after.1.records
  mem_records_iff : ∀ a, a ∈ after.1.records ↔ a = record ∨ a ∈ r.records ∧ a ∉ after.2
  records_nodup : after.1.records.Nodup
  size : after.1.size + after.2.length = r.size + 1
  /-- All identifiers lead to their bearers, that of survivors and those of the new record. -/
  found : ∀ a ∈ after.1.records, ∀ identifier, a.Bears identifier → after.1.LeadsTo identifier a
  /-- An identifier of a displaced record is unknown, unless the new record bears it as well. -/
  forgotten : ∀ a ∈ after.2, ∀ identifier, a.Bears identifier → ¬record.Bears identifier →
    after.1.IsUnknown identifier

/-- An override displaces what collides. -/
theorem Reachable.displaces (h : r.Reachable) (identity : Identity) (adapter : Adapter ω β)
    (w : ω) :
    r.Displaces (Record.asked identity adapter w) ((r.override identity adapter).run w).value := by
  have h' : ((r.override identity adapter).run w).value.1.Reachable :=
    h.override identity adapter w
  have hmem (a : Record ω β) : a ∈ (r.compatible identity).insertIdx (r.firstCollision identity)
      (Record.asked identity adapter w) ↔
        a = Record.asked identity adapter w ∨ a ∈ r.records ∧ a ∉ r.colliding identity := by
    have hcollides : a ∈ r.compatible identity ↔ a ∈ r.records ∧ a ∉ r.colliding identity := by
      rw [compatible, colliding, List.mem_filter, List.mem_filter, not_and, Bool.not_eq_true']
      exact and_congr_right fun ha => by rw [imp_iff_right ha, Bool.not_eq_true]
    rw [List.mem_insertIdx (r.firstCollision_le_length identity), hcollides]
  -- whoever collides and whoever does not are all there are
  have hsize : (r.compatible identity).length + (r.colliding identity).length =
      r.records.length := by
    rw [← (List.filter_append_perm (fun a => a.collidesWith identity) r.records).length_eq,
      List.length_append, Nat.add_comm]
    rfl
  -- what is known of every reachable registry, said of the one afterwards
  have nodup' := h'.exactLookup_name.distinct.of_map
  have found' := fun a ha identifier => @Reachable.leadsTo _ _ _ a identifier h' ha
  have unknown' := fun identifier => @Reachable.isUnknown _ _ _ identifier h'
  rw [value_run_override] at nodup' found' unknown' ⊢
  rw [records_ofRecords] at nodup' found'
  constructor
  case in_range => exact Displacement.displace?_eq_some _ _ _
  case displaced => exact List.filter_congr fun a _ => rfl
  case displaced_nodup => exact h.exactLookup_name.distinct.of_map.filter _
  case length_displaced => exact h.length_colliding_le identity
  case records => exact Displacement.insertIdx_findIdx_eq _ _ _
  case survivors => exact List.sublist_insertIdx _ _ _
  case mem_records_iff => exact hmem
  case records_nodup => exact nodup'
  case size =>
    show ((r.compatible identity).insertIdx _ _).length + (r.colliding identity).length = _
    rw [List.length_insertIdx_of_le_length (r.firstCollision_le_length identity),
      Nat.add_right_comm, hsize]
    rfl
  case found => exact found'
  case forgotten =>
    intro a ha identifier bears unborne
    -- who could still bear it is the new record, or an old one that has stayed
    refine unknown' identifier ?_
    rintro ⟨b, hb, bears'⟩
    rw [records_ofRecords, hmem] at hb
    rcases hb with rfl | ⟨hb, hsurvives⟩
    · exact unborne bears'
    · -- an old record that bears it is `a` itself, which has given way
      rw [h.eq_of_bears hb (mem_colliding_iff.mp ha).1 bears' bears] at hsurvives
      exact hsurvives ha

/-- **Where nothing is in the way an override is a registration**, in all that it does. -/
theorem Reachable.run_register_of_free (h : r.Reachable)
    (free : ((r.override identity adapter).run w).value.2 = []) :
    let change := (r.override identity adapter).run w
    (r.register identity adapter).run w = ⟨.ok change.value.1, change.world, change.marks⟩ := by
  intro change
  rw [value_run_override] at free
  have compatible : ∀ a ∈ r.records, a.collidesWith identity = false := fun a ha =>
    Bool.eq_false_iff.mpr (List.filter_eq_nil_iff.mp free a ha)
  -- a registration looks into the tables, not at the records
  have admitted : r.conflict? identity = none := by
    rw [h.eq_ofRecords]
    exact conflict?_eq_none_iff.mpr compatible
  -- the new record has come to stand at the end, which is where a registration puts it
  have hdisplace : Displacement.displace (fun a => a.collidesWith identity)
      (Record.asked identity adapter w) r.records =
        (r.records ++ [Record.asked identity adapter w], []) := by
    have hall : r.records.filter (fun a => !a.collidesWith identity) = r.records :=
      List.filter_eq_self.mpr fun a ha => by rw [compatible a ha]; rfl
    have hend : r.records.findIdx (fun a => a.collidesWith identity) = r.records.length :=
      List.findIdx_eq_length.mpr compatible
    rw [Displacement.displace_eq, hall, hend, List.insertIdx_length_self]
    exact congrArg _ free
  have hasked : Record.asked identity adapter w =
    ⟨identity, adapter, (adapter.publicKeyEncoding.run w).value⟩ := rfl
  rw [hasked] at hdisplace
  simp only [change, Registry.register, Registry.override, Act.run_bind, Record.run_make, admitted,
    hdisplace]
  rfl

/-- **What an override does**, to any registry that changes have led to: the new record displaces
what collides with it, and where nothing does it is registered. -/
theorem override_displaces (history : List (Change ω β × ω)) (identity : Identity)
    (adapter : Adapter ω β) (w : ω) :
    let r := ofHistory history
    let change := (r.override identity adapter).run w
    r.Displaces (Record.asked identity adapter w) change.value ∧
      (change.value.2 = [] → (r.register identity adapter).run w =
        ⟨.ok change.value.1, change.world, change.marks⟩) := by
  intro r change
  have h : r.Reachable := reachable_ofHistory history
  exact ⟨h.displaces identity adapter w, h.run_register_of_free⟩

/-- Three records of five give way, each for another identifier. -/
theorem override_displaces_scattered :
    let adapter : Adapter Unit Sample.KeyBody :=
      Sample.HashScheme.adapter id ⟨⟨[0x2a, 0x03, 0x04]⟩, .flat⟩ "xyz"
    let identity (name : String) (arc : UInt8) (scheme : UInt16) : Identity :=
      ⟨name, ⟨[0x2a, 0x03, arc]⟩, ⟨scheme⟩⟩
    let algorithms := [(identity "A" 1 1, adapter), (identity "B" 2 2, adapter),
      (identity "C" 3 3, adapter), (identity "D" 4 4, adapter), (identity "E" 5 5, adapter)]
    let r := ofHistory (algorithms.map fun a => (.register a.1 a.2, ()))
    let record := Record.asked (identity "D" 2 5) adapter ()
    let after := ((r.override (identity "D" 2 5) adapter).run ()).value
    r.Displaces record after ∧
      after.2.map (·.name) = ["B", "D", "E"] ∧ after.1.records.map (·.name) = ["A", "D", "C"] ∧
      after.1.IsUnknown (.name "B") ∧ after.1.LeadsTo (.oid record.oid) record := by
  intro adapter identity algorithms r record after
  have displaces := (override_displaces (algorithms.map fun a => (.register a.1 a.2, ()))
    (identity "D" 2 5) adapter ()).1
  have hrecords : r.records = algorithms.map fun a => .asked a.1 a.2 () :=
    records_ofHistory_of_distinct () (by decide)
  -- the records are known, and with them who is displaced and who stays
  have displaced : after.2.map (·.name) = ["B", "D", "E"] := by
    rw [displaces.displaced, hrecords]
    decide
  have records : after.1.records.map (·.name) = ["A", "D", "C"] := by
    rw [displaces.records, hrecords]
    decide
  have unknown : after.1.IsUnknown (.name "B") := by
    have hmem : "B" ∈ after.2.map (·.name) := by
      rw [displaced]
      decide
    obtain ⟨old, hold, hname⟩ := List.mem_map.mp hmem
    exact displaces.forgotten old hold (.name "B") hname (by decide : "D" ≠ "B")
  have hmem : record ∈ after.1.records := (displaces.mem_records_iff record).mpr (.inl rfl)
  exact ⟨displaces, displaced, records, unknown, displaces.found record hmem (.oid record.oid) rfl⟩

end Registry

end SignatureCatalog
