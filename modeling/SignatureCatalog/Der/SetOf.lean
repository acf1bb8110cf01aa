import SignatureCatalog.Der.Value

/-!
# Sets

The elements of a SET OF stand in ascending order and no two are equal. A set is kept as the list of
its elements, `SetOf.Ascending` says that the list is one; `SetOf.insert?` adds an element to a set
and refuses one that is there already. Reading takes elements in any order and repairs it.
-/

namespace SignatureCatalog.Der.SetOf

variable {α : Type}

/-- The elements ascend strictly. -/
def Ascending (cmp : α → α → Ordering) (elements : List α) : Prop :=
  elements.Pairwise fun a b => cmp a b = .lt

/-- Puts an element in its place, unless an equal one is there. -/
def insert? (cmp : α → α → Ordering) (a : α) : List α → Option (List α)
  | [] => some [a]
  | b :: rest =>
    match cmp a b with
    | .lt => some (a :: b :: rest)
    | .eq => none
    | .gt => (insert? cmp a rest).map (b :: ·)

/-- The set of the listed elements, unless two of them are equal. -/
def ofList? (cmp : α → α → Ordering) : List α → Option (List α)
  | [] => some []
  | a :: rest => (ofList? cmp rest).bind (insert? cmp a)

/-- Adds an element to a set; an equal one is a fault. -/
def insert (cmp : α → α → Ordering) (a : α) (elements : List α) : Except Error (List α) :=
  match insert? cmp a elements with
  | some elements => .ok elements
  | none => .error ⟨.duplicateElement, none⟩

/-- Reads elements up to the end of the window. An element takes octets, so as many steps as there
are octets are enough. -/
def elements (d : Decoder α) : (steps : Nat) → Decoder (List α)
  | 0 => pure []
  | steps + 1 => do
    if (← Decoder.remaining) = 0 then pure []
    else
      let a ← d
      let rest ← elements d steps
      pure (a :: rest)

/-- Reads the content of a set of the given length. -/
def contentDecoder (cmp : α → α → Ordering) (d : Decoder α) (n : Nat) : Decoder (List α) :=
  Decoder.within n do
    let items ← elements d n
    -- Only now is it clear that every element could be read: that comes before any repetition.
    match ofList? cmp items with
    | some set => pure set
    | none => Decoder.fail .duplicateElement

@[simp] theorem ascending_nil (cmp : α → α → Ordering) : Ascending cmp [] := List.Pairwise.nil

/-- An element that is inserted is there, and nothing else is new. -/
theorem mem_insert? {cmp : α → α → Ordering} {a x : α} {elements result : List α}
    (h : insert? cmp a elements = some result) : x ∈ result ↔ x = a ∨ x ∈ elements := by
  induction elements generalizing result with
  | nil => cases h; simp
  | cons b rest ih =>
    unfold insert? at h
    split at h
    · cases h; simp
    · cases h
    · obtain ⟨tail, htail, rfl⟩ := Option.map_eq_some_iff.1 h
      simp only [List.mem_cons, ih htail]
      constructor
      · rintro (h | h | h) <;> simp [h]
      · rintro (h | h | h) <;> simp [h]

end SignatureCatalog.Der.SetOf
