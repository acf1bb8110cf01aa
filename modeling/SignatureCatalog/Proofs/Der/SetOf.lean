import Mathlib.Data.List.Nodup
import Mathlib.Data.List.Perm.Basic
import SignatureCatalog.Der.SetOf

/-!
# Sets repair their order

A set that is read may list its elements in any order; `SetOf.ofList?` puts them in theirs, one
after the other, and refuses a list in which an element comes twice. With an order that is
transitive and tells any two elements apart there is one way to list a set that ascends, so the
repair forgets the order it started from and nothing else: `ofList?_eq_some_iff` says that what
comes out is *the* ascending list of the elements that went in, and `ofList?_eq_none_iff` that
nothing comes out exactly for lists with a repetition.
-/

namespace SignatureCatalog.Der.SetOf

open Std

variable {α : Type} {cmp : α → α → Ordering} {a : α} {items set set' : List α}

theorem ne_of_lt [ReflCmp cmp] {b : α} (h : cmp a b = .lt) : a ≠ b := by
  rintro rfl
  have hself : cmp a a = .eq := ReflCmp.compare_self
  rw [h] at hself
  cases hself

/-! ### One more element -/

theorem perm_of_insert? (h : insert? cmp a set = some set') : set'.Perm (a :: set) := by
  -- along the set, as the element is carried to its place
  induction set generalizing set' with
  | nil =>
    obtain rfl : [a] = set' := Option.some.inj h
    exact .refl _
  | cons b rest ih =>
    unfold insert? at h
    split at h
    · obtain rfl : a :: b :: rest = set' := Option.some.inj h
      exact .refl _
    · cases h
    · obtain ⟨tail, htail, rfl⟩ := Option.map_eq_some_iff.mp h
      exact ((ih htail).cons b).trans (.swap a b rest)

theorem Ascending.of_insert? [TransCmp cmp] (h : Ascending cmp set)
    (hinsert : insert? cmp a set = some set') : Ascending cmp set' := by
  induction set generalizing set' with
  | nil =>
    obtain rfl : [a] = set' := Option.some.inj hinsert
    exact List.pairwise_singleton _ _
  | cons b rest ih =>
    obtain ⟨hfirst, hrest⟩ := List.pairwise_cons.mp h
    unfold insert? at hinsert
    split at hinsert
    · next hlt =>
      obtain rfl : a :: b :: rest = set' := Option.some.inj hinsert
      -- what is behind the first element is behind the new one too
      refine List.pairwise_cons.mpr ⟨fun c hc => ?_, h⟩
      rcases List.mem_cons.mp hc with rfl | hc
      · exact hlt
      · exact TransCmp.lt_trans hlt (hfirst c hc)
    · cases hinsert
    · next hgt =>
      obtain ⟨tail, htail, rfl⟩ := Option.map_eq_some_iff.mp hinsert
      -- the first element stays the first, before the new one and before the others
      refine List.pairwise_cons.mpr ⟨fun c hc => ?_, ih hrest htail⟩
      rcases (mem_insert? htail).mp hc with rfl | hc
      · exact OrientedCmp.lt_of_gt hgt
      · exact hfirst c hc

/-- Only an element that is there is refused. -/
theorem insert?_eq_none_iff [TransCmp cmp] [LawfulEqCmp cmp] (h : Ascending cmp set) :
    insert? cmp a set = none ↔ a ∈ set := by
  induction set with
  | nil => exact iff_of_false (Option.some_ne_none [a]) List.not_mem_nil
  | cons b rest ih =>
    obtain ⟨hfirst, hrest⟩ := List.pairwise_cons.mp h
    rw [insert?, List.mem_cons]
    split
    · next hlt =>
      refine iff_of_false (Option.some_ne_none _) fun hmem => ?_
      -- an element before the first one is none of them
      have hself : cmp a a = .lt := by
        rcases hmem with rfl | hmem
        · exact hlt
        · exact TransCmp.lt_trans hlt (hfirst a hmem)
      exact ne_of_lt hself rfl
    · next heq => exact ⟨fun _ => .inl (LawfulEqCmp.eq_of_compare heq), fun _ => rfl⟩
    · next hgt =>
      -- the first element is another, so the question is put to those behind it
      have hne : a ≠ b := (ne_of_lt (OrientedCmp.lt_of_gt hgt)).symm
      rw [Option.map_eq_none_iff, ih hrest, or_iff_right hne]

/-! ### All elements -/

theorem ofList?_spec [TransCmp cmp] (h : ofList? cmp items = some set) :
    Ascending cmp set ∧ set.Perm items := by
  induction items generalizing set with
  | nil =>
    obtain rfl : [] = set := Option.some.inj h
    exact ⟨ascending_nil cmp, .refl _⟩
  | cons a rest ih =>
    obtain ⟨others, hothers, hinsert⟩ := Option.bind_eq_some_iff.mp h
    obtain ⟨hascending, hperm⟩ := ih hothers
    exact ⟨hascending.of_insert? hinsert, (perm_of_insert? hinsert).trans (hperm.cons a)⟩

theorem ofList?_eq_none_iff [TransCmp cmp] [LawfulEqCmp cmp] :
    ofList? cmp items = none ↔ ¬items.Nodup := by
  induction items with
  | nil => exact ⟨nofun, fun h => absurd List.nodup_nil h⟩
  | cons a rest ih =>
    rw [ofList?, List.nodup_cons]
    cases hrest : ofList? cmp rest with
    | none =>
      -- what is refused among the others is refused with one more
      have hrepeated := ih.mp hrest
      exact ⟨fun _ h => hrepeated h.2, fun _ => rfl⟩
    | some others =>
      obtain ⟨hascending, hperm⟩ := ofList?_spec hrest
      -- the others are all distinct, so only the new one can be there twice
      have hnodup : rest.Nodup := by
        by_contra hrepeated
        rw [ih.mpr hrepeated] at hrest
        cases hrest
      rw [Option.bind_some, insert?_eq_none_iff hascending, hperm.mem_iff, not_and_or, not_not,
        or_iff_left (not_not.mpr hnodup)]

/-- A set can be listed in one way only. -/
theorem Ascending.eq_of_perm [TransCmp cmp] [LawfulEqCmp cmp] (h : Ascending cmp set)
    (h' : Ascending cmp set') (hperm : set.Perm set') : set = set' := by
  -- no two elements can be before one another in the two lists
  have antisymm : ∀ a b, a ∈ set → b ∈ set' → cmp a b = .lt → cmp b a = .lt → a = b :=
    fun _ _ _ _ hlt hgt => absurd hgt (OrientedCmp.not_lt_of_lt hlt)
  exact hperm.eq_of_pairwise antisymm h h'

theorem Ascending.nodup [TransCmp cmp] (h : Ascending cmp set) : set.Nodup :=
  List.Pairwise.imp ne_of_lt h

/-- **The repair of a list.** What comes out is the ascending list of what went in. -/
theorem ofList?_eq_some_iff [TransCmp cmp] [LawfulEqCmp cmp] :
    ofList? cmp items = some set ↔ Ascending cmp set ∧ set.Perm items := by
  refine ⟨ofList?_spec, fun ⟨hascending, hperm⟩ => ?_⟩
  cases h : ofList? cmp items with
  | none => exact absurd (hperm.nodup_iff.mp hascending.nodup) (ofList?_eq_none_iff.mp h)
  | some found =>
    obtain ⟨hascending', hperm'⟩ := ofList?_spec h
    rw [hascending.eq_of_perm hascending' (hperm.trans hperm'.symm)]

end SignatureCatalog.Der.SetOf
