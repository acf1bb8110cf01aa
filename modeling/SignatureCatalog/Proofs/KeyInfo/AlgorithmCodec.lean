import SignatureCatalog.KeyInfo.Algorithm
import SignatureCatalog.Proofs.Der.Element

/-!
# Algorithm identifiers are read exactly

The content of an algorithm identifier is a row of one or two elements (`elements`, `content_eq`).
Nothing but the end of the content tells whether the second one, the parameters, is there, so the
content is read exactly only in a window of its own. The length in front of it provides one, and
with it the decoder is exact (`exact_decoder`).
-/

namespace SignatureCatalog.AlgorithmIdentifier

open Der

variable {a : AlgorithmIdentifier} {v : Value}

/-! ### The content -/

/-- The elements of the SEQUENCE: the object identifier, then the parameters if there are any. -/
def elements (a : AlgorithmIdentifier) : List Value :=
  ⟨.objectIdentifier, a.oid.content⟩ :: a.parameters.toList

theorem content_eq (a : AlgorithmIdentifier) : a.content = a.elements.flatMap Value.encode := by
  obtain ⟨oid, parameters⟩ := a
  cases parameters with
  | none => rfl
  | some v => exact (congrArg (_ ++ ·) (List.append_nil v.encode)).symm

theorem content_eq_append_elim (a : AlgorithmIdentifier) :
    a.content = ObjectIdentifier.encode a.oid ++ a.parameters.elim [] Value.encode := by
  obtain ⟨oid, parameters⟩ := a
  cases parameters <;> rfl

theorem length_elements (a : AlgorithmIdentifier) :
    a.elements.length = 1 ∨ a.elements.length = 2 := by
  obtain ⟨oid, parameters⟩ := a
  cases parameters with
  | none => exact .inl rfl
  | some v => exact .inr rfl

theorem mem_elements_of_parameters (h : a.parameters = some v) : v ∈ a.elements := by
  rw [elements, h]
  exact List.mem_cons_of_mem _ (List.mem_singleton.mpr rfl)

theorem length_le_of_mem_elements (h : v ∈ a.elements) : v.content.length ≤ a.content.length := by
  rw [content_eq]
  exact Value.length_content_le_of_mem h

/-- An algorithm identifier is known by its content. -/
theorem eq_of_content_eq {b : AlgorithmIdentifier} (hmax : a.content.length ≤ maxLength)
    (h : a.content = b.content) : a = b := by
  rw [content_eq] at h hmax
  rw [content_eq b] at h
  obtain ⟨hoid, hparameters⟩ := List.cons.inj (Value.eq_of_flatMap_encode_eq hmax h)
  -- the two rows have the same elements: the identifier, and what is left of either row
  obtain ⟨-, hoid⟩ := Value.mk.inj hoid
  have hparameters := congrArg List.head? hparameters
  rw [Option.head?_toList, Option.head?_toList] at hparameters
  obtain ⟨⟨oid⟩, parameters⟩ := a
  obtain ⟨⟨oid'⟩, parameters'⟩ := b
  rw [mk.injEq]
  exact ⟨congrArg Oid.mk hoid, hparameters⟩

/-! ### Reading -/

/-- Where the window ends behind them, parameters are read exactly, or found to be absent. -/
theorem exactAtEnd_parameters (oid : Oid) :
    Decoder.ExactAtEnd
      (do let parameters ← Decoder.field Value.optionalDecoder
          pure ⟨oid, parameters⟩ : Decoder AlgorithmIdentifier)
      (fun a => a.oid = oid ∧ ∀ v, a.parameters = some v → v.content.length ≤ maxLength)
      (fun a => a.parameters.elim [] Value.encode) := by
  refine (Value.exactAtEnd_optionalDecoder.field.map (mk oid) parameters (fun a => a.oid = oid)
    fun parameters a => ?_).congr (fun a => and_comm) fun _ _ => rfl
  obtain ⟨oid', parameters'⟩ := a
  -- the identifier has been read before, and the result shows that it is that one
  rw [mk.injEq, and_comm, eq_comm, eq_comm (a := oid)]

/-- **Algorithm identifiers are read exactly.** -/
theorem exact_decoder :
    Decoder.Exact decoder (fun a => a.oid.IsDecodable ∧ a.content.length ≤ maxLength) encode := by
  -- the content ends where the window does, which the parameters depend on
  have hcontent : Decoder.ExactAtEnd _ _ content :=
    (ObjectIdentifier.exact_decoder.field.bind oid exactAtEnd_parameters).congr
      (fun a => Iff.rfl) fun a _ => content_eq_append_elim a
  refine (Decoder.Exact.typed .sequence hcontent.within).congr (fun a => ?_) fun _ _ => rfl
  constructor
  · rintro ⟨hoid, hmax⟩
    -- the parameters are part of the content, so the limit on the content is enough
    refine ⟨⟨hoid, fun v hv => ?_⟩, hmax⟩
    exact Nat.le_trans (length_le_of_mem_elements (mem_elements_of_parameters hv)) hmax
  · rintro ⟨⟨hoid, -⟩, hmax⟩
    exact ⟨hoid, hmax⟩

end SignatureCatalog.AlgorithmIdentifier
