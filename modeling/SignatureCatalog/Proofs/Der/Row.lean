import SignatureCatalog.Proofs.Der.Exact
import SignatureCatalog.Proofs.Der.SetOf

/-!
# Rows and sets

An exact decoder reads a value from one string of octets only. A set is read from several, one for
each order of its elements: its content is a row of elements (`Row`) in any order, none of them
twice. `SetOf.reads_contentDecoder` says so, for whatever octets the elements are read from.
-/

namespace SignatureCatalog.Der

/-! ### Rows and sets -/

/-- Values one behind the other. -/
inductive Row {α : Type} (g : Grammar α) : Grammar (List α) where
  | nil : Row g [] []
  | cons {a : α} {items : List α} {octets rest : Bytes} (first : g a octets)
      (others : Row g items rest) : Row g (a :: items) (octets ++ rest)

/-- Values with one encoding each make up a row of encodings. -/
theorem row_exact_iff {α : Type} {ok : α → Prop} {encode : α → Bytes} {items : List α}
    {octets : Bytes} :
    Row (fun a octets => ok a ∧ octets = encode a) items octets ↔
      (∀ a ∈ items, ok a) ∧ octets = items.flatMap encode := by
  constructor
  · intro h
    induction h with
    | nil => exact ⟨nofun, rfl⟩
    | cons first _ ih =>
      obtain ⟨ha, rfl⟩ := first
      obtain ⟨hitems, rfl⟩ := ih
      exact ⟨List.forall_mem_cons.mpr ⟨ha, hitems⟩, List.flatMap_cons.symm⟩
  · rintro ⟨hitems, rfl⟩
    induction items with
    | nil => exact .nil
    | cons a items ih =>
      obtain ⟨ha, hitems⟩ := List.forall_mem_cons.mp hitems
      rw [List.flatMap_cons]
      exact .cons ⟨ha, rfl⟩ (ih hitems)

namespace SetOf

open Decoder

variable {α : Type} {d : Decoder α} {g : Grammar α} {cmp : α → α → Ordering}

/-- Where every element takes octets, as many steps as there are octets in the window read a row of
elements up to the end of it. -/
theorem elements_eq_ok_iff (hd : Reads d g) (ne : ∀ a octets, g a octets → octets ≠ [])
    {steps : Nat} {c c' : Cursor} {items : List α} (hsteps : c.rest.length ≤ steps)
    (hend : c'.rest = []) :
    elements d steps c = .ok (items, c') ↔ ∃ octets, Row g items octets ∧ c.Passes octets c' := by
  -- an empty window holds the empty row and no other
  have empty {c : Cursor} {items : List α} (hempty : c.rest = []) :
      (items = [] ∧ c' = c) ↔ ∃ octets, Row g items octets ∧ c.Passes octets c' := by
    constructor
    · rintro ⟨rfl, rfl⟩
      exact ⟨[], .nil, Cursor.passes_nil_iff.mpr rfl⟩
    · rintro ⟨octets, hrow, hpasses⟩
      have hoctets : octets = [] := by
        have hrest := hpasses.rest_eq
        rw [hempty] at hrest
        exact (List.append_eq_nil_iff.mp hrest.symm).1
      cases hrow with
      | nil => exact ⟨rfl, Cursor.passes_nil_iff.mp hpasses⟩
      | cons first _ => exact absurd (List.append_eq_nil_iff.mp hoctets).1 (ne _ _ first)
  -- on the steps: each takes an element off the window, and there is room for them all
  induction steps generalizing c items with
  | zero =>
    rw [elements, pure_eq_ok_iff]
    exact empty (List.length_eq_zero_iff.mp (Nat.le_zero.mp hsteps))
  | succ steps ih =>
    rw [elements, bind_eq_ok_iff]
    by_cases hlength : c.rest.length = 0
    · rw [← empty (List.length_eq_zero_iff.mp hlength), ← pure_eq_ok_iff]
      -- the loop stops at the end of the window, with steps to spare
      constructor
      · rintro ⟨n, c₁, hremaining, h⟩
        cases hremaining
        rwa [if_pos hlength] at h
      · intro h
        exact ⟨_, c, rfl, by rwa [if_pos hlength]⟩
    · constructor
      · rintro ⟨n, c₁, hremaining, h⟩
        cases hremaining
        rw [if_neg hlength] at h
        obtain ⟨a, c₁, hfirst, h⟩ := bind_eq_ok_iff.mp h
        obtain ⟨rest, c₂, hothers, h⟩ := bind_eq_ok_iff.mp h
        obtain ⟨rfl, rfl⟩ := pure_eq_ok_iff.mp h
        obtain ⟨octets, hoctets, hpasses⟩ := (hd c a c₁ trivial).mp hfirst
        -- the first element takes octets, so the steps that are left are enough for the others
        have hless := hpasses.length_rest_lt (ne a octets hoctets)
        have hrest : c₁.rest.length ≤ steps := by omega
        obtain ⟨others, hrow, hpasses'⟩ := (ih hrest).mp hothers
        exact ⟨octets ++ others, .cons hoctets hrow,
          Cursor.passes_append_iff.mpr ⟨c₁, hpasses, hpasses'⟩⟩
      · rintro ⟨octets, hrow, hpasses⟩
        -- a row of which the first element stands next is read one element at a time
        refine ⟨_, c, rfl, ?_⟩
        rw [if_neg hlength]
        cases hrow with
        | nil =>
          -- the window is not empty, and the empty row would leave it as it is
          obtain rfl := Cursor.passes_nil_iff.mp hpasses
          exact absurd (congrArg List.length hend) hlength
        | @cons a items octets others first hrow =>
          obtain ⟨c₁, hpasses, hpasses'⟩ := Cursor.passes_append_iff.mp hpasses
          have hless := hpasses.length_rest_lt (ne a octets first)
          have hrest : c₁.rest.length ≤ steps := by omega
          refine bind_eq_ok_iff.mpr ⟨a, c₁, (hd c a c₁ trivial).mpr ⟨octets, first, hpasses⟩, ?_⟩
          exact bind_eq_ok_iff.mpr ⟨items, c', (ih hrest).mpr ⟨others, hrow, hpasses'⟩,
            pure_eq_ok_iff.mpr ⟨rfl, rfl⟩⟩

/-- The octets of a set: a row of its elements, in any order. -/
def Unordered (cmp : α → α → Ordering) (g : Grammar α) : Grammar (List α) :=
  fun set octets => Ascending cmp set ∧ ∃ items, set.Perm items ∧ Row g items octets

/-- **The content of a set is read in any order.** -/
theorem reads_contentDecoder [Std.TransCmp cmp] [Std.LawfulEqCmp cmp] (hd : Reads d g)
    (ne : ∀ a octets, g a octets → octets ≠ []) (n : Nat) :
    Reads (contentDecoder cmp d n) fun set octets =>
      Unordered cmp g set octets ∧ octets.length = n := by
  refine reads_within fun c set c' hwindow hend => ?_
  rw [bind_eq_ok_iff]
  constructor
  · rintro ⟨items, c₁, hitems, hset⟩
    -- the elements are read first, in the order in which they stand, and then put in order
    cases hrepaired : ofList? cmp items with
    | none =>
      rw [hrepaired] at hset
      exact absurd hset fail_ne_ok
    | some repaired =>
      rw [hrepaired] at hset
      obtain ⟨rfl, rfl⟩ := pure_eq_ok_iff.mp hset
      obtain ⟨hascending, hperm⟩ := ofList?_eq_some_iff.mp hrepaired
      obtain ⟨octets, hrow, hpasses⟩ :=
        (elements_eq_ok_iff hd ne (Nat.le_of_eq hwindow) hend).mp hitems
      exact ⟨octets, ⟨hascending, items, hperm, hrow⟩, hpasses⟩
  · rintro ⟨octets, ⟨hascending, items, hperm, hrow⟩, hpasses⟩
    -- whichever order they stand in, the repair comes out at the set
    have hrepaired := ofList?_eq_some_iff.mpr ⟨hascending, hperm⟩
    refine ⟨items, c', ?_, ?_⟩
    · exact (elements_eq_ok_iff hd ne (Nat.le_of_eq hwindow) hend).mpr ⟨octets, hrow, hpasses⟩
    · rw [hrepaired]
      exact pure_eq_ok_iff.mpr ⟨rfl, rfl⟩

end SetOf

end SignatureCatalog.Der
