import SignatureCatalog.Proofs.Registry.Index

/-!
# No two records collide

The invariant of the registry. `Distinct` says of a list of records that no two of them share a
name, an object identifier or a scheme. It holds of the empty list, and each of the two changes
keeps it, for a reason of its own:

* a registration adds a record at the end only after the three indexes have no place for its
  identifiers, and by exactness of the indexes no record collides with it then
  (`conflict?_eq_none_iff`);
* an override first takes away every record that collides with the new one, so that what is left
  has room for it anywhere (`Distinct.insertIdx`). Where the new record is put does not matter to
  the invariant, since collision is symmetric.

`Reachable.distinct` follows by induction on the changes. `Registry.ofHistory` describes the same
registries by the calls that lead to them, refused registrations among them
(`reachable_iff_exists_history`).
-/

namespace SignatureCatalog

variable {ω β : Type}

/-- The record of an identity and an adapter, which says in this world how its payloads are read. -/
def Record.asked (identity : Identity) (adapter : Adapter ω β) (world : ω) : Record ω β :=
  ⟨identity, adapter, (adapter.publicKeyEncoding.run world).value⟩

@[simp] theorem Record.toIdentity_asked (identity : Identity) (adapter : Adapter ω β) (world : ω) :
    (Record.asked identity adapter world).toIdentity = identity := rfl

namespace Registry

/-! ### What a change comes to -/

/-- A registration is refused for the first identifier that is taken, and else adds one record at
the end. -/
theorem value_run_register (r : Registry ω β) (identity : Identity) (adapter : Adapter ω β)
    (world : ω) :
    ((r.register identity adapter).run world).value =
      match r.conflict? identity with
      | some identifier => .error (.duplicateRegistration (.identifier identifier))
      | none => .ok (ofRecords (r.records ++ [Record.asked identity adapter world])) := by
  simp only [register, Act.run_bind, Record.run_make]
  cases r.conflict? identity <;> rfl

theorem value_run_register_eq_ok_iff {r r' : Registry ω β} {identity : Identity}
    {adapter : Adapter ω β} {world : ω} :
    ((r.register identity adapter).run world).value = .ok r' ↔
      r.conflict? identity = none ∧
        r' = ofRecords (r.records ++ [Record.asked identity adapter world]) := by
  rw [value_run_register]
  cases r.conflict? identity with
  | some identifier => simp
  | none => simp [eq_comm]

/-- The records that stand in the way of an identity. -/
def colliding (r : Registry ω β) (identity : Identity) : List (Record ω β) :=
  r.records.filter fun record => record.collidesWith identity

/-- The records that do not stand in the way of an identity. -/
def compatible (r : Registry ω β) (identity : Identity) : List (Record ω β) :=
  r.records.filter fun record => !record.collidesWith identity

/-- How many records stand before the first that is in the way; all of them if none is. -/
def firstCollision (r : Registry ω β) (identity : Identity) : Nat :=
  r.records.findIdx fun record => record.collidesWith identity

/-- An override puts the new record among those it is compatible with, and yields the others. -/
theorem value_run_override (r : Registry ω β) (identity : Identity) (adapter : Adapter ω β)
    (world : ω) :
    ((r.override identity adapter).run world).value =
      (ofRecords ((r.compatible identity).insertIdx (r.firstCollision identity)
        (Record.asked identity adapter world)), r.colliding identity) := by
  have hdisplace := Displacement.displace_eq (fun existing => existing.collidesWith identity)
    (Record.asked identity adapter world) r.records
  exact congrArg (fun change => (ofRecords change.1, change.2)) hdisplace

/-- Nothing keeps an algorithm out exactly if no index knows any of its identifiers. -/
theorem conflict?_eq_none_iff_contains {r : Registry ω β} {identity : Identity} :
    r.conflict? identity = none ↔ r.byName.contains identity.name = false ∧
      r.byOid.contains identity.oid = false ∧ r.byScheme.contains identity.scheme = false := by
  unfold conflict?
  cases r.byName.contains identity.name <;> cases r.byOid.contains identity.oid <;>
    cases r.byScheme.contains identity.scheme <;> simp

/-- An algorithm is let in exactly if no record collides with it: the indexes speak for the
records. -/
theorem conflict?_eq_none_iff {records : List (Record ω β)} {identity : Identity} :
    (ofRecords records).conflict? identity = none ↔
      ∀ record ∈ records, record.collidesWith identity = false := by
  rw [conflict?_eq_none_iff_contains]
  -- an index has no place for an identifier exactly if no record has it
  simp only [ofRecords, contains_indexBy_eq_false_iff]
  simp only [← Bool.not_eq_true, Identity.collidesWith_iff, not_or]
  exact ⟨fun h record hr => ⟨h.1 record hr, h.2.1 record hr, h.2.2 record hr⟩,
    fun h => ⟨fun record hr => (h record hr).1, fun record hr => (h record hr).2.1,
      fun record hr => (h record hr).2.2⟩⟩

/-- The new record of an override stands inside the list: whatever comes before the first collision
is compatible. -/
theorem firstCollision_le_length (r : Registry ω β) (identity : Identity) :
    r.firstCollision identity ≤ (r.compatible identity).length :=
  Displacement.findIdx_le_length_filter _ _

/-! ### The invariant -/

/-- No two of the records collide. -/
def Distinct (records : List (Record ω β)) : Prop :=
  records.Pairwise fun a b => a.collidesWith b.toIdentity = false

theorem distinct_nil : Distinct ([] : List (Record ω β)) := List.Pairwise.nil

/-- Records that do not collide have different values of each identifier. -/
theorem Distinct.nodup_map {κ : Type} {records : List (Record ω β)} (h : Distinct records)
    (identifier : Record ω β → κ)
    (shared : ∀ a b : Record ω β, identifier a = identifier b → a.collidesWith b.toIdentity) :
    (records.map identifier).Nodup := by
  refine List.pairwise_map.mpr (h.imp fun {a b} hab heq => ?_)
  rw [shared a b heq] at hab
  cases hab

/-- A record that collides with none may come last. -/
theorem Distinct.append_singleton {records : List (Record ω β)} {record : Record ω β}
    (h : Distinct records) (free : ∀ a ∈ records, a.collidesWith record.toIdentity = false) :
    Distinct (records ++ [record]) := by
  refine List.pairwise_append.mpr ⟨h, List.pairwise_singleton _ _, fun a ha b hb => ?_⟩
  rw [List.mem_singleton] at hb
  subst hb
  exact free a ha

/-- A record that collides with none may come anywhere. -/
theorem Distinct.insertIdx {records : List (Record ω β)} {record : Record ω β} {place : Nat}
    (h : Distinct records) (free : ∀ a ∈ records, a.collidesWith record.toIdentity = false)
    (le : place ≤ records.length) : Distinct (records.insertIdx place record) := by
  -- distinctness is symmetric, so it may be checked with the new record in front
  have symm : ∀ {a b : Record ω β}, a.collidesWith b.toIdentity = false →
      b.collidesWith a.toIdentity = false := by
    intro a b hab
    rwa [Identity.collidesWith_comm]
  refine ((List.perm_insertIdx record records le).pairwise_iff symm).mpr ?_
  exact List.pairwise_cons.mpr ⟨fun a ha => symm (free a ha), h⟩

/-- Any part of the records is as distinct as all of them. -/
theorem Distinct.filter {records : List (Record ω β)} (h : Distinct records)
    (p : Record ω β → Bool) : Distinct (records.filter p) :=
  List.Pairwise.filter p h

/-- The first of several records has a name and an object identifier of its own. -/
theorem Distinct.of_cons {record : Record ω β} {rest : List (Record ω β)}
    (h : Distinct (record :: rest)) :
    Distinct rest ∧ (∀ a ∈ rest, record.name ≠ a.name) ∧ ∀ a ∈ rest, record.oid ≠ a.oid := by
  obtain ⟨hfirst, hrest⟩ := List.pairwise_cons.mp h
  -- sharing any of the three identifiers is colliding
  have hne : ∀ a ∈ rest,
      ¬(record.name = a.name ∨ record.oid = a.oid ∨ record.scheme = a.scheme) := by
    intro a ha hshared
    rw [← Identity.collidesWith_iff, hfirst a ha] at hshared
    cases hshared
  exact ⟨hrest, fun a ha heq => hne a ha (.inl heq), fun a ha heq => hne a ha (.inr (.inl heq))⟩

/-- **No two records of a reachable registry collide.** -/
theorem Reachable.distinct {r : Registry ω β} (h : r.Reachable) : Distinct r.records := by
  induction h with
  | empty => exact distinct_nil
  | @register r r' hr identity adapter world accepted ih =>
    obtain ⟨free, rfl⟩ := value_run_register_eq_ok_iff.mp accepted
    rw [hr.eq_ofRecords] at free
    -- nothing was in the way in the indexes, and these are made from the records
    exact ih.append_singleton (conflict?_eq_none_iff.mp free)
  | @override r hr identity adapter world ih =>
    rw [value_run_override]
    -- what collides has been taken away, so what is left does not
    refine (ih.filter _).insertIdx (fun a ha => ?_) (r.firstCollision_le_length identity)
    simpa using (List.mem_filter.mp ha).2

/-! ### Histories -/

/-- A call that asks for a change. -/
inductive Change (ω β : Type) where
  | register (identity : Identity) (adapter : Adapter ω β)
  | override (identity : Identity) (adapter : Adapter ω β)

/-- The registry after a call in a given world. A registration that is refused leaves the registry
as it was. -/
def after (r : Registry ω β) : Change ω β × ω → Registry ω β
  | (.register identity adapter, world) =>
    match ((r.register identity adapter).run world).value with
    | .ok r' => r'
    | .error _ => r
  | (.override identity adapter, world) => ((r.override identity adapter).run world).value.1

/-- The registry after calls on the empty one, each in the world it meets. -/
def ofHistory (history : List (Change ω β × ω)) : Registry ω β :=
  history.foldl after empty

theorem ofHistory_append_singleton (history : List (Change ω β × ω)) (call : Change ω β × ω) :
    ofHistory (history ++ [call]) = (ofHistory history).after call := by
  simp [ofHistory]

/-- One more call leads from a reachable registry to a reachable one. -/
theorem Reachable.after {r : Registry ω β} (h : r.Reachable) (call : Change ω β × ω) :
    (r.after call).Reachable := by
  obtain ⟨change, world⟩ := call
  cases change with
  | register identity adapter =>
    unfold Registry.after
    dsimp only
    split
    · next r' accepted => exact h.register identity adapter world accepted
    · -- a refusal leaves the registry, which was reachable before
      exact h
  | override identity adapter => exact h.override identity adapter world

theorem reachable_ofHistory (history : List (Change ω β × ω)) : (ofHistory history).Reachable := by
  -- by induction from the end, as `ofHistory` makes the calls in order
  induction history using List.reverseRecOn with
  | nil => exact .empty
  | append_singleton history call ih =>
    rw [ofHistory_append_singleton]
    exact ih.after call

/-- **Algorithms that do not collide can all be registered**, one after the other. -/
theorem records_ofHistory_of_distinct {algorithms : List (Identity × Adapter ω β)} (world : ω)
    (distinct : algorithms.Pairwise fun a b => a.1.collidesWith b.1 = false) :
    (ofHistory (algorithms.map fun a => (.register a.1 a.2, world))).records =
      algorithms.map fun a => .asked a.1 a.2 world := by
  induction algorithms using List.reverseRecOn with
  | nil => rfl
  | append_singleton algorithms a ih =>
    obtain ⟨hbefore, -, hlast⟩ := List.pairwise_append.mp distinct
    have records := ih hbefore
    have h := reachable_ofHistory (algorithms.map fun a => (.register a.1 a.2, world))
    -- what is registered so far are the earlier algorithms, and none of them collides with `a`
    have accepted : (ofHistory (algorithms.map fun a =>
        (.register a.1 a.2, world))).conflict? a.1 = none := by
      rw [h.eq_ofRecords, records]
      refine conflict?_eq_none_iff.mpr fun record hrecord => ?_
      obtain ⟨b, hb, rfl⟩ := List.mem_map.mp hrecord
      exact hlast b hb a (List.mem_singleton_self a)
    rw [List.map_append, List.map_append, ← records, List.map_singleton, List.map_singleton,
      ofHistory_append_singleton, after, value_run_register, accepted, records_ofRecords]

/-- **Reachable registries are those with a history.** -/
theorem reachable_iff_exists_history {r : Registry ω β} :
    r.Reachable ↔ ∃ history, r = ofHistory history := by
  constructor
  · intro h
    induction h with
    | empty => exact ⟨[], rfl⟩
    | @register r r' _ identity adapter world accepted ih =>
      obtain ⟨history, rfl⟩ := ih
      -- accepted registrations are calls, so no more is needed than to put this one last
      refine ⟨history ++ [(.register identity adapter, world)], ?_⟩
      rw [ofHistory_append_singleton, Registry.after, accepted]
    | @override r _ identity adapter world ih =>
      obtain ⟨history, rfl⟩ := ih
      refine ⟨history ++ [(.override identity adapter, world)], ?_⟩
      rw [ofHistory_append_singleton, Registry.after]
  · rintro ⟨history, rfl⟩
    exact reachable_ofHistory history

end Registry

end SignatureCatalog
