/-!
# Displacement

Putting a new element into a list in place of all those that give way to it. It goes by places: the
places of those that give way are noted first, the elements are taken out one after the other, and
the new one is put where the first of them stood. A removal moves whatever stands behind it, so the
places are worked off from the last to the first, and the place for the new element is noted before
anything moves.

Every step is a partial operation on lists, since a place may lie behind the end. `displace?` is the
procedure with these checks, and `displace?_eq_some` says what it comes to; in particular no check
ever fails, which is what makes `displace` total.
-/

namespace SignatureCatalog.Displacement

variable {α : Type}

/-- The places of the elements that satisfy a predicate, in ascending order. -/
def placesOf (p : α → Bool) (l : List α) : List Nat :=
  (l.zipIdx.filter fun entry => p entry.1).map Prod.snd

/-- Takes out the elements at the given places, one after the other. A place counts in what the
removals before it have left, and must not lie behind the end of that. -/
def takeOut? : List Nat → List α → Option (List α × List α)
  | [], l => some ([], l)
  | place :: places, l => do
    let a ← l[place]?
    let (taken, rest) ← takeOut? places (l.eraseIdx place)
    return (a :: taken, rest)

/-- Puts an element at a place, which may be the end of the list but not lie behind it. -/
def putAt? (place : Nat) (a : α) (l : List α) : Option (List α) :=
  if place ≤ l.length then some (l.insertIdx place a) else none

/-- Puts `a` where the first of the elements stood that satisfy `p`, or at the end if none does, and
takes all of these out. They come second, in their order. -/
def displace? (p : α → Bool) (a : α) (l : List α) : Option (List α × List α) := do
  let places := placesOf p l
  let place := places.head?.getD l.length
  let (taken, rest) ← takeOut? places.reverse l
  return (← putAt? place a rest, taken.reverse)

/-! ### Places -/

/-- An element in front moves all places by one. -/
theorem placesOf_cons (p : α → Bool) (a : α) (l : List α) :
    placesOf p (a :: l) =
      if p a then 0 :: (placesOf p l).map (· + 1) else (placesOf p l).map (· + 1) := by
  have hrest : ((l.zipIdx 1).filter fun entry => p entry.1).map Prod.snd =
      (placesOf p l).map (· + 1) := by
    rw [List.zipIdx_succ, List.filter_map, List.map_map, placesOf, List.map_map]
    rfl
  rw [placesOf, List.zipIdx_cons, List.filter_cons]
  split
  · rw [List.map_cons, hrest]
  · exact hrest

/-- The first place is that of the first element that satisfies the predicate; without one it is the
end of the list. -/
theorem head?_placesOf (p : α → Bool) (l : List α) :
    (placesOf p l).head?.getD l.length = l.findIdx p := by
  induction l with
  | nil => rfl
  | cons a l ih =>
    rw [placesOf_cons, List.findIdx_cons]
    cases p a with
    | true => rfl
    | false =>
      rw [if_neg Bool.false_ne_true, List.head?_map, cond_false, ← ih]
      cases (placesOf p l).head? <;> rfl

/-! ### Removals -/

/-- The places behind the first element are places in the rest. -/
theorem takeOut?_map_succ (places : List Nat) (a : α) (l : List α) :
    takeOut? (places.map (· + 1)) (a :: l) =
      (takeOut? places l).map fun result => (result.1, a :: result.2) := by
  induction places generalizing l with
  | nil => rfl
  | cons place places ih =>
    -- removing behind `a` leaves `a` in front of the same removal from the rest
    rw [List.map_cons, takeOut?, takeOut?, List.getElem?_cons_succ, List.eraseIdx_cons_succ, ih]
    cases l[place]? with
    | none => rfl
    | some b => cases takeOut? places (l.eraseIdx place) <;> rfl

/-- More places are worked off in what the first ones have left. -/
theorem takeOut?_append {places : List Nat} {l taken rest : List α}
    (h : takeOut? places l = some (taken, rest)) (more : List Nat) :
    takeOut? (places ++ more) l =
      (takeOut? more rest).map fun result => (taken ++ result.1, result.2) := by
  induction places generalizing l taken with
  | nil =>
    rw [takeOut?, Option.some.injEq, Prod.mk.injEq] at h
    obtain ⟨rfl, rfl⟩ := h
    cases hmore : takeOut? more l <;> exact hmore
  | cons place places ih =>
    rw [takeOut?] at h
    rw [List.cons_append, takeOut?]
    -- the first removal has found `a`, and the others worked in what it left
    obtain ⟨a, ha, h⟩ := Option.bind_eq_some_iff.mp h
    obtain ⟨⟨taken', rest'⟩, htaken, h⟩ := Option.bind_eq_some_iff.mp h
    cases h
    rw [ha, ih htaken]
    cases takeOut? more rest <;> rfl

/-- **From the last place to the first, every removal finds its element.** What is taken out is what
satisfies the predicate, and what is left is the rest. -/
theorem takeOut?_reverse_placesOf (p : α → Bool) (l : List α) :
    takeOut? (placesOf p l).reverse l = some ((l.filter p).reverse, l.filter fun a => !p a) := by
  induction l with
  | nil => rfl
  | cons a l ih =>
    -- the places behind `a` are worked off before `a` moves
    have behind : takeOut? ((placesOf p l).map (· + 1)).reverse (a :: l) =
        some ((l.filter p).reverse, a :: l.filter fun a => !p a) := by
      rw [← List.map_reverse, takeOut?_map_succ, ih]
      rfl
    rw [placesOf_cons, List.filter_cons, List.filter_cons]
    cases p a with
    | true =>
      -- then `a` goes last, from the very front of what is left
      rw [if_pos rfl, if_pos rfl, if_neg (by decide), List.reverse_cons, List.reverse_cons,
        takeOut?_append behind]
      rfl
    | false => exact behind

/-! ### The whole -/

/-- Whatever comes before the first that gives way stays, so its place is there after the
removals. -/
theorem findIdx_le_length_filter (p : α → Bool) (l : List α) :
    l.findIdx p ≤ (l.filter fun a => !p a).length := by
  induction l with
  | nil => exact Nat.le_refl _
  | cons a l ih =>
    rw [List.findIdx_cons, List.filter_cons]
    cases p a with
    | true => exact Nat.zero_le _
    | false => exact Nat.succ_le_succ ih

/-- **Displacement succeeds**, with those that give way taken out and the new element at the place
of the first of them. -/
theorem displace?_eq_some (p : α → Bool) (a : α) (l : List α) :
    displace? p a l =
      some ((l.filter fun a => !p a).insertIdx (l.findIdx p) a, l.filter p) := by
  rw [displace?, takeOut?_reverse_placesOf]
  dsimp only [Option.bind_eq_bind, Option.bind_some]
  rw [head?_placesOf, putAt?, if_pos (findIdx_le_length_filter p l), List.reverse_reverse]
  rfl

theorem isSome_displace? (p : α → Bool) (a : α) (l : List α) : (displace? p a l).isSome := by
  rw [displace?_eq_some]
  rfl

/-- Displacement, as the total operation that it is. -/
def displace (p : α → Bool) (a : α) (l : List α) : List α × List α :=
  (displace? p a l).get (isSome_displace? p a l)

theorem displace_eq (p : α → Bool) (a : α) (l : List α) :
    displace p a l = ((l.filter fun a => !p a).insertIdx (l.findIdx p) a, l.filter p) :=
  Option.get_of_eq_some _ (displace?_eq_some p a l)

end SignatureCatalog.Displacement
