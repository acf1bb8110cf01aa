import Mathlib.Data.List.Induction
import Mathlib.Data.List.Nodup
import SignatureCatalog.Registry.Basic

/-!
# Indexes are exact

An index leads from an identifier to a place among the records, and a lookup hands back the record
at that place. Nothing in the types says that the place exists, or that the record there has the
identifier that was asked for. Both hold of every index that `Registry.indexBy` builds
(`indexBy_get?_eq_none_iff`, `getElem?_of_indexBy_get?`), whatever the records are: the index is
built record by record, so the proofs are inductions that add a record at the end.

What needs more is that the lookup finds *every* record. A later record takes the place of an
earlier one under the same identifier, so a record is found by its identifier only where no other
record has it. `ExactLookup` is the whole property; `exactLookup_of_nodup` derives it from the
identifiers being distinct.
-/

namespace SignatureCatalog.Registry

variable {ω β κ : Type} [DecidableEq κ] [Ord κ] {identifier : Record ω β → κ}
  {records : List (Record ω β)}

/-! ### Places -/

theorem indexBy_nil : indexBy identifier [] = ∅ := rfl

/-- One more record at the end is one more entry, for the place behind all others. -/
theorem indexBy_append_singleton (record : Record ω β) :
    indexBy identifier (records ++ [record]) =
      (indexBy identifier records).insert (identifier record) records.length := by
  simp [indexBy, List.zipIdx_append]

/-- The index has no place exactly for the identifiers that no record has. -/
theorem indexBy_get?_eq_none_iff {x : κ} :
    (indexBy identifier records).get? x = none ↔ ∀ record ∈ records, identifier record ≠ x := by
  -- from the end, as the index is built: the last record hides the earlier ones
  induction records using List.reverseRecOn with
  | nil => rw [indexBy_nil, FiniteMap.get?_empty]; simp
  | append_singleton records record ih =>
    rw [indexBy_append_singleton, FiniteMap.get?_insert]
    by_cases h : x = identifier record
    · simp [h]
    · rw [if_neg h, ih]
      simp only [List.forall_mem_append, List.forall_mem_singleton, ne_eq, eq_comm (b := x), h,
        not_false_eq_true, and_true]

/-- The index knows an identifier exactly if a record has it. -/
theorem contains_indexBy_eq_false_iff {x : κ} :
    (indexBy identifier records).contains x = false ↔
      ∀ record ∈ records, identifier record ≠ x := by
  rw [← indexBy_get?_eq_none_iff, FiniteMap.contains, Option.isSome_eq_false_iff,
    Option.isNone_iff_eq_none]

/-- The record at the place that the index gives is there, and it has the identifier. -/
theorem getElem?_of_indexBy_get? {x : κ} {place : Nat}
    (h : (indexBy identifier records).get? x = some place) :
    ∃ record, records[place]? = some record ∧ identifier record = x := by
  induction records using List.reverseRecOn with
  | nil => rw [indexBy_nil, FiniteMap.get?_empty] at h; cases h
  | append_singleton records record ih =>
    rw [indexBy_append_singleton, FiniteMap.get?_insert] at h
    by_cases hx : x = identifier record
    · rw [if_pos hx, Option.some.injEq] at h
      subst h
      exact ⟨record, by simp, hx.symm⟩
    · rw [if_neg hx] at h
      obtain ⟨found, hfound, hid⟩ := ih h
      -- the earlier places are not moved by a record at the end
      have hlt : place < records.length := (List.getElem?_eq_some_iff.mp hfound).1
      exact ⟨found, by rw [List.getElem?_append_left hlt, hfound], hid⟩

/-! ### Lookups -/

/-- The lookup through an index: the record at its place. -/
def lookupBy (identifier : Record ω β → κ) (records : List (Record ω β)) (x : κ) :
    Option (Record ω β) :=
  ((indexBy identifier records).get? x).bind fun place => records[place]?

/-- A record at the end is what is found under its identifier; nothing else changes. -/
theorem lookupBy_append_singleton (record : Record ω β) (x : κ) :
    lookupBy identifier (records ++ [record]) x =
      if x = identifier record then some record else lookupBy identifier records x := by
  unfold lookupBy
  rw [indexBy_append_singleton, FiniteMap.get?_insert]
  by_cases h : x = identifier record
  · simp [h]
  · rw [if_neg h, if_neg h]
    -- the place is an old one, and the record there has not moved
    cases hplace : (indexBy identifier records).get? x with
    | none => rfl
    | some place =>
      obtain ⟨found, hfound, -⟩ := getElem?_of_indexBy_get? hplace
      have hlt : place < records.length := (List.getElem?_eq_some_iff.mp hfound).1
      rw [Option.bind_some, Option.bind_some, List.getElem?_append_left hlt]

/-- A lookup fails exactly for the identifiers that no record has: where the index has a place there
is a record. -/
theorem lookupBy_eq_none_iff {x : κ} :
    lookupBy identifier records x = none ↔ ∀ record ∈ records, identifier record ≠ x := by
  unfold lookupBy
  cases h : (indexBy identifier records).get? x with
  | none => simpa using indexBy_get?_eq_none_iff.mp h
  | some place =>
    obtain ⟨record, hrecord, hid⟩ := getElem?_of_indexBy_get? h
    rw [Option.bind_some, hrecord]
    simp only [reduceCtorEq, false_iff, not_forall]
    exact ⟨record, List.mem_of_getElem? hrecord, fun hne => hne hid⟩

/-- What a lookup finds is one of the records, with the identifier that was asked for. -/
theorem mem_of_lookupBy {x : κ} {record : Record ω β}
    (h : lookupBy identifier records x = some record) :
    record ∈ records ∧ identifier record = x := by
  obtain ⟨place, hplace, hrecord⟩ := Option.bind_eq_some_iff.mp h
  obtain ⟨found, hfound, hid⟩ := getElem?_of_indexBy_get? hplace
  rw [hfound, Option.some.injEq] at hrecord
  subst hrecord
  exact ⟨List.mem_of_getElem? hfound, hid⟩

/-- Where identifiers are distinct, a lookup finds the very record that has the identifier. -/
theorem lookupBy_eq_some_iff (nodup : (records.map identifier).Nodup) {x : κ}
    {record : Record ω β} :
    lookupBy identifier records x = some record ↔ record ∈ records ∧ identifier record = x := by
  refine ⟨mem_of_lookupBy, fun ⟨hmem, hid⟩ => ?_⟩
  -- it finds some record with the identifier, and there is only the one
  cases h : lookupBy identifier records x with
  | none => exact absurd hid (lookupBy_eq_none_iff.mp h record hmem)
  | some found =>
    obtain ⟨hmem', hid'⟩ := mem_of_lookupBy h
    rw [List.inj_on_of_nodup_map nodup hmem' hmem (hid'.trans hid.symm)]

/-- **Exactness of a lookup.** No two records share an identifier, the index points at records only,
the lookup finds a record exactly where the records have one, and fails with the identifier that was
asked for everywhere else. -/
structure ExactLookup (records : List (Record ω β)) (identifier : Record ω β → κ)
    (index : FiniteMap κ Nat) (lookup : κ → Except Error (Record ω β))
    (kind : κ → Identifier) : Prop where
  /-- No two records have the same identifier. -/
  distinct : (records.map identifier).Nodup
  /-- The index does not point past the records. -/
  place_lt : ∀ x place, index.get? x = some place → place < records.length
  /-- A record is found exactly if it is one of the records and has the identifier. -/
  found_iff : ∀ x record, lookup x = .ok record ↔ record ∈ records ∧ identifier record = x
  /-- Nothing is found exactly if no record has the identifier, and the error carries it. -/
  notFound_iff : ∀ x e, lookup x = .error e ↔
    e = .notFound (kind x) ∧ ∀ record ∈ records, identifier record ≠ x

/-- Distinct identifiers make the lookup through their index exact. -/
theorem exactLookup_of_nodup (nodup : (records.map identifier).Nodup) (kind : κ → Identifier) :
    ExactLookup records identifier (indexBy identifier records)
      (fun x => match lookupBy identifier records x with
        | some record => .ok record
        | none => .error (.notFound (kind x))) kind where
  distinct := nodup
  place_lt := by
    intro x place h
    obtain ⟨record, hrecord, -⟩ := getElem?_of_indexBy_get? h
    exact (List.getElem?_eq_some_iff.mp hrecord).1
  found_iff := by
    intro x record
    rw [← lookupBy_eq_some_iff nodup]
    cases h : lookupBy identifier records x with
    | none => simp
    | some found => simp
  notFound_iff := by
    intro x e
    rw [← lookupBy_eq_none_iff]
    cases h : lookupBy identifier records x with
    | none => simp [eq_comm]
    | some found => simp

end SignatureCatalog.Registry
