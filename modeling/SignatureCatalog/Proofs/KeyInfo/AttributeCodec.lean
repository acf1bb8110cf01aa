import SignatureCatalog.Proofs.Der.Row
import SignatureCatalog.Proofs.KeyInfo.AttributeOrder

/-!
# Attributes are read in any order

Attributes are written in the order in which they are listed, and within the length limit the list
is known by the octets (`Attributes.eq_of_content_eq`). They are read in any order: what is read are
the octets of a reordering, what is returned is the reordering that ascends
(`Attributes.reads_contentDecoder`).

Nothing is asked of the list that was written but that its object identifiers are decodable and the
octets are within the limit. Repetitions need not be ruled out, since a list in which something
comes twice has no reordering that ascends.
-/

namespace SignatureCatalog

open Der

namespace Attribute

variable {a b : Attribute}

/-! ### Encodings -/

/-- **An attribute is known by its content.** -/
theorem eq_of_content_eq (hmax : a.content.length ≤ maxLength) (h : a.content = b.content) :
    a = b := by
  have hvalues : (a.values.flatMap Value.encode).length ≤ maxLength :=
    Nat.le_trans a.length_values_le hmax
  rw [content_eq] at h hmax
  rw [content_eq b] at h
  -- the content is a row of two elements, an identifier and a set
  have helements := Value.eq_of_flatMap_encode_eq hmax h
  -- what stands in the set is a row of elements again
  simp only [elements, List.cons.injEq, Value.mk.injEq, true_and, and_true] at helements
  obtain ⟨hoid, hset⟩ := helements
  have hrow := Value.eq_of_flatMap_encode_eq hvalues hset
  cases a
  cases b
  rw [mk.injEq]
  exact ⟨congrArg Oid.mk hoid, hrow⟩

/-! ### Reading -/

/-- The attributes that are read from what was written: a decodable object identifier, and an
encoding within the limit. -/
def IsEncodable (a : Attribute) : Prop :=
  a.oid.IsDecodable ∧ a.content.length ≤ maxLength

/-- The octets an attribute is read from: the encoding, with the values in any order. -/
def AnyOrder : Grammar Attribute := fun a octets =>
  a.IsCanonical ∧ ∃ b : Attribute, b.unordered = a.unordered ∧ b.IsEncodable ∧ octets = b.encode

theorem reads_values :
    Decoder.Reads (Decoder.typed .set (SetOf.contentDecoder Value.compareDer Value.decoder))
      fun set octets => SetOf.Ascending Value.compareDer set ∧ ∃ items : List Value,
        items.Perm set ∧ (items.flatMap Value.encode).length ≤ maxLength ∧
          octets = encodeTyped .set (items.flatMap Value.encode) := by
  -- every value takes octets, so the loop over the elements comes to an end
  have hne : ∀ (v : Value) (octets : Bytes),
      v.content.length ≤ maxLength ∧ octets = v.encode → octets ≠ [] := by
    rintro v _ ⟨-, rfl⟩
    exact List.cons_ne_nil _ _
  refine (Decoder.Reads.typed .set
    (SetOf.reads_contentDecoder Value.exact_decoder.reads hne)).congr fun set octets => ?_
  constructor
  · rintro ⟨hascending, items, hperm, hmax, rfl⟩
    -- a limit on the set is one on each of its values, and the row asks for these
    have hitems : ∀ v ∈ items, v.content.length ≤ maxLength :=
      fun v hv => Nat.le_trans (Value.length_content_le_of_mem hv) hmax
    exact ⟨_, ⟨⟨hascending, items, hperm.symm, row_exact_iff.mpr ⟨hitems, rfl⟩⟩, hmax⟩, rfl⟩
  · rintro ⟨_, ⟨⟨hascending, items, hperm, hrow⟩, hmax⟩, rfl⟩
    obtain ⟨-, rfl⟩ := row_exact_iff.mp hrow
    exact ⟨hascending, items, hperm.symm, hmax, rfl⟩

/-- **An attribute is read with its values in any order.** -/
theorem reads_decoder : Decoder.Reads decoder AnyOrder := by
  have hoid := Decoder.Reads.field (Decoder.ExactBefore.reads ObjectIdentifier.exact_decoder)
  have hreads : Decoder.ReadsAtEnd _ _ := (Decoder.Reads.field reads_values).before
  have hcontent := hoid.bind fun oid => hreads.map (mk oid)
  refine (Decoder.Reads.typed .sequence (Decoder.ReadsAtEnd.within hcontent)).congr
    fun a octets => ?_
  constructor
  -- what is written is `b`: its identifier is that of `a`, its values are those of `a` reordered
  · rintro ⟨hcanonical, b, hunordered, ⟨hdecodable, hmax⟩, rfl⟩
    obtain ⟨hoid, hvalues⟩ := unordered_eq_iff.mp hunordered
    have hset := Nat.le_trans b.length_values_le hmax
    refine ⟨b.content, ⟨⟨b.oid, ObjectIdentifier.encode b.oid, b.encodeValues, ⟨hdecodable, rfl⟩,
      ⟨a.values, ⟨hcanonical, b.values, hvalues, hset, rfl⟩, ?_⟩, rfl⟩, hmax⟩, rfl⟩
    rw [hoid]
  · rintro ⟨_, ⟨⟨oid, _, _, ⟨hdecodable, rfl⟩, ⟨set, ⟨hascending, items, hperm, -, rfl⟩, rfl⟩,
      rfl⟩, hmax⟩, rfl⟩
    exact ⟨hascending, ⟨oid, items⟩, unordered_eq_iff.mpr ⟨rfl, hperm⟩, ⟨hdecodable, hmax⟩, rfl⟩

/-- A row of attributes, each with its values in any order. -/
theorem row_anyOrder_iff {items : Attributes} {octets : Bytes} :
    Row AnyOrder items octets ↔ (∀ a ∈ items, a.IsCanonical) ∧ ∃ written : Attributes,
      written.map unordered = items.map unordered ∧ (∀ b ∈ written, b.IsEncodable) ∧
        octets = written.content := by
  constructor
  · intro h
    -- along the row, where each attribute has been written with an order of its own
    induction h with
    | nil => exact ⟨nofun, [], rfl, nofun, rfl⟩
    | cons first _ ih =>
      obtain ⟨ha, b, hunordered, hb, rfl⟩ := first
      obtain ⟨hitems, written, hmap, hwritten, rfl⟩ := ih
      refine ⟨List.forall_mem_cons.mpr ⟨ha, hitems⟩, b :: written, ?_,
        List.forall_mem_cons.mpr ⟨hb, hwritten⟩, List.flatMap_cons.symm⟩
      rw [List.map_cons, List.map_cons, hunordered, hmap]
  · rintro ⟨hitems, written, hmap, hwritten, rfl⟩
    -- along the attributes as they come out, each with the one that was written for it
    induction items generalizing written with
    | nil =>
      obtain rfl : written = [] := List.map_eq_nil_iff.mp hmap
      exact .nil
    | cons a items ih =>
      obtain ⟨b, written, rfl, hunordered, hmap⟩ := List.map_eq_cons_iff.mp hmap
      obtain ⟨ha, hitems⟩ := List.forall_mem_cons.mp hitems
      obtain ⟨hb, hwritten⟩ := List.forall_mem_cons.mp hwritten
      rw [Attributes.content, List.flatMap_cons]
      exact .cons ⟨ha, b, hunordered, hb, rfl⟩ (ih hitems written hmap hwritten)

end Attribute

namespace Attributes

variable {l m : Attributes}

/-- **A list of attributes is known by its octets.** -/
theorem eq_of_content_eq (hmax : l.content.length ≤ maxLength) (h : l.content = m.content) :
    l = m := by
  -- as for rows of values, with an attribute split off at a time
  induction l generalizing m with
  | nil =>
    cases m with
    | nil => rfl
    | cons b m => cases h
  | cons a l ih =>
    cases m with
    | nil => cases h
    | cons b m =>
      have ha := Nat.le_trans (length_content_le_of_mem (List.mem_cons_self (a := a))) hmax
      have hb := length_content_le_of_mem (List.mem_cons_self (a := b) (l := m))
      rw [← h] at hb
      rw [content, content, List.flatMap_cons, List.flatMap_cons] at h
      -- the first encodings end at the same place, so what follows is the same as well
      obtain ⟨-, hcontent, hrest⟩ := encodeTyped_append_inj ha (Nat.le_trans hb hmax) h
      rw [content, List.flatMap_cons, List.length_append] at hmax
      have hrest : content l = content m := hrest
      rw [Attribute.eq_of_content_eq ha hcontent, ih (Nat.le_of_add_left_le hmax) hrest]

/-- The octets that attributes are read from: the attributes in any order, each with its values in
any order. -/
def AnyOrder : Grammar Attributes := fun l octets =>
  l.IsCanonical ∧ ∃ written : Attributes, written.Reorders l ∧ (∀ b ∈ written, b.IsEncodable) ∧
    octets = written.content

/-- **Attributes are read in any order.** -/
theorem reads_contentDecoder (n : Nat) :
    Decoder.Reads (contentDecoder n) fun l octets => AnyOrder l octets ∧ octets.length = n := by
  have hne : ∀ (a : Attribute) (octets : Bytes), a.AnyOrder octets → octets ≠ [] := by
    rintro a _ ⟨-, b, -, -, rfl⟩
    exact List.cons_ne_nil _ _
  refine (SetOf.reads_contentDecoder Attribute.reads_decoder hne n).congr fun l octets => ?_
  refine and_congr_left fun _ => ?_
  constructor
  · rintro ⟨⟨hascending, hcanonical⟩, written, hreorders, hwritten, rfl⟩
    -- the elements are read in the order in which they were written, each with its values repaired
    obtain ⟨items, hmap, hperm⟩ := hreorders.exists_map_eq
    refine ⟨hascending, items, hperm.symm, Attribute.row_anyOrder_iff.mpr ⟨fun a ha => ?_, written,
      hmap, hwritten, rfl⟩⟩
    exact hcanonical a (hperm.mem_iff.mp ha)
  · rintro ⟨hascending, items, hperm, hrow⟩
    obtain ⟨hcanonical, written, hmap, hwritten, rfl⟩ := Attribute.row_anyOrder_iff.mp hrow
    -- reordering the values and then the attributes is reordering at both levels
    refine ⟨⟨hascending, fun a ha => hcanonical a (hperm.mem_iff.mp ha)⟩, written, ?_, hwritten,
      rfl⟩
    rw [reorders_iff_perm, hmap]
    exact hperm.symm.map Attribute.unordered

end Attributes

end SignatureCatalog
