/-!
# Finite maps

A finite map is a list of entries in ascending order of their keys. Everything that is known about
one goes through `get?`: `get?_insert` and `get?_erase` say that an operation on one key changes the
answer for that key and for no other. Neither needs the order to be lawful, since keys are compared
for equality first; the order decides only how the entries are listed.
-/

namespace SignatureCatalog

/-- A finite map from `κ` to `ν`. -/
structure FiniteMap (κ ν : Type) where
  entries : List (κ × ν)

namespace FiniteMap

variable {κ ν : Type} [DecidableEq κ]

/-- The map without entries. -/
def empty : FiniteMap κ ν := ⟨[]⟩

instance : EmptyCollection (FiniteMap κ ν) := ⟨empty⟩

instance : Inhabited (FiniteMap κ ν) := ⟨empty⟩

/-- How many entries there are. -/
def size (m : FiniteMap κ ν) : Nat :=
  m.entries.length

/-- What the map holds under a key. -/
def get? (m : FiniteMap κ ν) (k : κ) : Option ν :=
  m.entries.lookup k

/-- Whether the map holds anything under a key. -/
def contains (m : FiniteMap κ ν) (k : κ) : Bool :=
  (m.get? k).isSome

/-- Puts an entry in its place; one with the same key gives way. -/
def insertEntry [Ord κ] (k : κ) (v : ν) : List (κ × ν) → List (κ × ν)
  | [] => [(k, v)]
  | (other, w) :: rest =>
    if k = other then (k, v) :: rest
    else if compare k other = .lt then (k, v) :: (other, w) :: rest
    else (other, w) :: insertEntry k v rest

/-- Puts a value under a key, whatever was there before. -/
def insert [Ord κ] (m : FiniteMap κ ν) (k : κ) (v : ν) : FiniteMap κ ν :=
  ⟨insertEntry k v m.entries⟩

/-- Takes away what is under a key. -/
def erase (m : FiniteMap κ ν) (k : κ) : FiniteMap κ ν :=
  ⟨m.entries.filter fun entry => entry.1 ≠ k⟩

/-! ### Looking up -/

@[simp] theorem get?_empty (k : κ) : (∅ : FiniteMap κ ν).get? k = none := rfl

/-- Insertion changes the answer for one key. -/
theorem get?_insert [Ord κ] (m : FiniteMap κ ν) (k k' : κ) (v : ν) :
    (m.insert k v).get? k' = if k' = k then some v else m.get? k' := by
  obtain ⟨entries⟩ := m
  simp only [get?, insert]
  induction entries with
  | nil => simp only [insertEntry, List.lookup_cons]; split <;> simp_all
  | cons entry rest ih =>
    obtain ⟨other, w⟩ := entry
    unfold insertEntry
    split
    · next h => subst h; simp only [List.lookup_cons]; split <;> simp_all
    · split
      · simp only [List.lookup_cons]; split <;> simp_all
      · simp only [List.lookup_cons]
        split <;> simp_all
        next h => intro h'; simp_all

/-- Erasure changes the answer for one key. -/
theorem get?_erase (m : FiniteMap κ ν) (k k' : κ) :
    (m.erase k).get? k' = if k' = k then none else m.get? k' := by
  obtain ⟨entries⟩ := m
  simp only [get?, erase]
  induction entries with
  | nil => simp
  | cons entry rest ih =>
    obtain ⟨other, w⟩ := entry
    simp only [List.filter_cons, List.lookup_cons]
    by_cases h : other = k
    · -- The entry goes, and with it the answer for its own key only.
      subst h
      by_cases h' : k' = other
      · subst h'; simpa using ih
      · have hne : (k' == other) = false := beq_eq_false_iff_ne.2 h'
        simpa [h', hne] using ih
    · -- The entry stays, so that the answer for its key is the same as before.
      by_cases h' : k' = other
      · subst h'; simp [h]
      · have hne : (k' == other) = false := beq_eq_false_iff_ne.2 h'
        simpa [h, hne, List.lookup_cons] using ih

end FiniteMap

end SignatureCatalog
