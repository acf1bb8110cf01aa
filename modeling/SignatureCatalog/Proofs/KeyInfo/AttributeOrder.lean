import Mathlib.Data.Multiset.Defs
import Mathlib.Logic.Function.Basic
import SignatureCatalog.KeyInfo.Attribute
import SignatureCatalog.Proofs.Der.Order
import SignatureCatalog.Proofs.Der.SetOf

/-!
# Attributes and their order

Attributes are sets of sets: a set of attributes, each with a set of values. Two lists of attributes
are *reorderings* of each other (`Attributes.Reorders`) if they differ by the order of the
attributes and by the order of the values of each.

* Attributes are ordered as their encodings are (`Attribute.compare_encode`), and so are values. A
  list ascends at both levels exactly if the encodings do, octet by octet, which is the order that
  DER asks for (`Attributes.isCanonical_iff_isDerOrdered`).
* Of the reorderings of a list one at most ascends (`Attributes.Reorders.eq`), and one does exactly
  if nothing comes twice (`Attributes.isDistinct_iff`).
-/

namespace SignatureCatalog

open Der

namespace Attribute

variable {a b : Attribute}

/-! ### The order of attributes -/

/-- The elements of the SEQUENCE: the object identifier, then the set of values. -/
def elements (a : Attribute) : List Value :=
  [⟨.objectIdentifier, a.oid.content⟩, ⟨.set, a.values.flatMap Value.encode⟩]

theorem content_eq (a : Attribute) : a.content = a.elements.flatMap Value.encode :=
  (congrArg (_ ++ ·) (List.append_nil a.encodeValues)).symm

theorem length_le_of_mem_elements {v : Value} (h : v ∈ a.elements) :
    v.content.length ≤ a.content.length := by
  rw [content_eq]
  exact Value.length_content_le_of_mem h

theorem length_values_le (a : Attribute) :
    (a.values.flatMap Value.encode).length ≤ a.content.length :=
  length_le_of_mem_elements (v := ⟨.set, _⟩) (List.mem_cons_of_mem _ List.mem_cons_self)

theorem length_le_of_mem_values {v : Value} (h : v ∈ a.values) :
    v.content.length ≤ a.content.length :=
  Nat.le_trans (Value.length_content_le_of_mem h) a.length_values_le

/-- **Attributes are ordered as their encodings are.** -/
theorem compare_encode (ha : a.content.length ≤ maxLength) (hb : b.content.length ≤ maxLength) :
    compare a.encode b.encode = a.compareDer b := by
  -- inside out: the values, the set of them, the content, the attribute
  have hvalues : compare (a.values.flatMap Value.encode) (b.values.flatMap Value.encode) =
      List.compareLex Value.compareDer a.values b.values :=
    Value.compare_flatMap_encode (fun v hv => Nat.le_trans (length_le_of_mem_values hv) ha)
      fun v hv => Nat.le_trans (length_le_of_mem_values hv) hb
  have hset : Bytes.shortlex (a.values.flatMap Value.encode) (b.values.flatMap Value.encode) =
      (compare a.encodeValues.length b.encodeValues.length).then
        (List.compareLex Value.compareDer a.values b.values) := by
    rw [Bytes.shortlex, hvalues, ← compare_length_encodeTyped .set .set]
    rfl
  have hcontent : compare a.content b.content =
      (compare a.oid b.oid).then ((compare a.encodeValues.length b.encodeValues.length).then
        (List.compareLex Value.compareDer a.values b.values)) := by
    have helements : compare a.content b.content =
        List.compareLex Value.compareDer a.elements b.elements := by
      rw [content_eq] at ha hb
      rw [content_eq, content_eq]
      exact Value.compare_flatMap_encode_of_length_le ha hb
    rw [helements, elements, elements, List.compareLex_cons_cons, List.compareLex_cons_cons,
      List.compareLex_nil_nil, Ordering.then_eq, Value.compareDer_mk, Value.compareDer_mk, hset]
    rfl
  calc compare a.encode b.encode
      = a.content.shortlex b.content := compare_encodeTyped ha hb
    _ = a.compareDer b := by rw [Bytes.shortlex, hcontent, compareDer]

/-- The order of attributes is transitive. -/
instance : Std.TransCmp compareDer :=
  inferInstanceAs (Std.TransCmp (compareLex (compareOn fun a : Attribute => a.content.length)
    (compareLex (compareOn fun a : Attribute => a.oid)
      (compareLex (compareOn fun a : Attribute => a.encodeValues.length)
        (Ordering.byKey (fun a : Attribute => a.values) (List.compareLex Value.compareDer))))))

/-- It tells any two attributes apart. -/
instance : Std.LawfulEqCmp compareDer where
  eq_of_compare {a b} h := by
    obtain ⟨-, h⟩ := Ordering.then_eq_eq.mp h
    obtain ⟨hoid, h⟩ := Ordering.then_eq_eq.mp h
    obtain ⟨-, hvalues⟩ := Ordering.then_eq_eq.mp h
    cases a
    cases b
    rw [mk.injEq]
    exact ⟨Std.LawfulEqCmp.eq_of_compare hoid, Std.LawfulEqCmp.eq_of_compare hvalues⟩

/-! ### Values in any order -/

/-- What is left of an attribute if the order of its values does not count. -/
def unordered (a : Attribute) : Oid × Multiset Value :=
  (a.oid, a.values)

theorem unordered_eq_iff :
    a.unordered = b.unordered ↔ a.oid = b.oid ∧ a.values.Perm b.values := by
  rw [unordered, unordered, Prod.mk.injEq, Multiset.coe_eq_coe]

theorem length_encode_of_unordered_eq (h : a.unordered = b.unordered) :
    a.encode.length = b.encode.length := by
  obtain ⟨hoid, hvalues⟩ := unordered_eq_iff.mp h
  -- the length of a row does not depend on the order of its members
  have hset := (hvalues.flatMap_right Value.encode).length_eq
  have hcontent : a.content.length = b.content.length := by
    rw [content, content, encodeValues, encodeValues, List.length_append, List.length_append, hoid,
      length_encodeTyped, length_encodeTyped, hset]
  rw [encode, encode, length_encodeTyped, length_encodeTyped, hcontent]

theorem eq_of_unordered_eq (ha : a.IsCanonical) (hb : b.IsCanonical)
    (h : a.unordered = b.unordered) : a = b := by
  obtain ⟨hoid, hvalues⟩ := unordered_eq_iff.mp h
  have heq : a.values = b.values := SetOf.Ascending.eq_of_perm ha hb hvalues
  cases a
  cases b
  rw [mk.injEq]
  exact ⟨hoid, heq⟩

theorem exists_isCanonical (h : a.values.Nodup) :
    ∃ b : Attribute, b.IsCanonical ∧ b.unordered = a.unordered := by
  -- the repair fails for repetitions only, and there are none
  cases hset : SetOf.ofList? Value.compareDer a.values with
  | none => exact absurd h (SetOf.ofList?_eq_none_iff.mp hset)
  | some set =>
    obtain ⟨hascending, hperm⟩ := SetOf.ofList?_spec hset
    exact ⟨⟨a.oid, set⟩, hascending, unordered_eq_iff.mpr ⟨rfl, hperm⟩⟩

end Attribute

namespace Attributes

variable {l m : Attributes}

theorem length_content_le_of_mem {a : Attribute} (h : a ∈ l) :
    a.content.length ≤ l.content.length :=
  calc a.content.length
      ≤ a.encode.length := length_le_encodeTyped
    _ ≤ l.content.length := length_le_flatMap_of_mem h

/-! ### The order that DER asks for -/

/-- The encodings of the attributes ascend strictly, octet by octet, and so do the encodings of the
values of each. -/
structure IsDerOrdered (l : Attributes) : Prop where
  attributes : SetOf.Ascending (fun a b => compare a.encode b.encode) l
  values : ∀ a ∈ l, SetOf.Ascending (fun v w => compare v.encode w.encode) a.values

/-- **The order of a set is the order of its encodings.** -/
theorem isCanonical_iff_isDerOrdered (hmax : l.content.length ≤ maxLength) :
    l.IsCanonical ↔ l.IsDerOrdered := by
  have hlength (a : Attribute) (ha : a ∈ l) : a.content.length ≤ maxLength :=
    Nat.le_trans (length_content_le_of_mem ha) hmax
  -- the two orders agree on members, which are all within the limit; nothing is said of others
  have hattributes : SetOf.Ascending Attribute.compareDer l ↔
      SetOf.Ascending (fun a b => compare a.encode b.encode) l := by
    refine List.Pairwise.iff_of_mem fun {a b} ha hb => ?_
    dsimp only
    rw [Attribute.compare_encode (hlength a ha) (hlength b hb)]
  have hvalues (a : Attribute) (ha : a ∈ l) : a.IsCanonical ↔
      SetOf.Ascending (fun v w => compare v.encode w.encode) a.values := by
    refine List.Pairwise.iff_of_mem fun {v w} hv hw => ?_
    dsimp only
    rw [Value.compare_encode (Nat.le_trans (Attribute.length_le_of_mem_values hv) (hlength a ha))
      (Nat.le_trans (Attribute.length_le_of_mem_values hw) (hlength a ha))]
  constructor
  · rintro ⟨hl, hcanonical⟩
    exact ⟨hattributes.mp hl, fun a ha => (hvalues a ha).mp (hcanonical a ha)⟩
  · rintro ⟨hl, hcanonical⟩
    exact ⟨hattributes.mpr hl, fun a ha => (hvalues a ha).mpr (hcanonical a ha)⟩

/-! ### Reorderings -/

/-- What is left of attributes if their order and the order of the values of each do not count. -/
def unordered (l : Attributes) : Multiset (Oid × Multiset Value) :=
  (l.map Attribute.unordered : List (Oid × Multiset Value))

/-- The same attributes in another order, each with its values in another order. -/
def Reorders (l m : Attributes) : Prop :=
  l.unordered = m.unordered

theorem reorders_iff_perm :
    l.Reorders m ↔ (l.map Attribute.unordered).Perm (m.map Attribute.unordered) :=
  Multiset.coe_eq_coe

namespace Reorders

theorem symm (h : l.Reorders m) : m.Reorders l :=
  Eq.symm h

/-- The attributes may be put in their order after the values are. -/
theorem exists_map_eq (h : l.Reorders m) :
    ∃ k : Attributes, l.map Attribute.unordered = k.map Attribute.unordered ∧ k.Perm m := by
  have hcomp := congrFun₂ (List.eq_map_comp_perm Attribute.unordered)
    (l.map Attribute.unordered) m
  exact hcomp.mpr (reorders_iff_perm.mp h)

theorem exists_mem {a : Attribute} (h : l.Reorders m) (ha : a ∈ l) :
    ∃ b ∈ m, b.unordered = a.unordered :=
  List.mem_map.mp ((reorders_iff_perm.mp h).mem_iff.mp (List.mem_map_of_mem ha))

/-- Whatever does not depend on the order of values is the same up to the order of attributes. -/
theorem map_perm {β : Type} {f : Attribute → β} (h : l.Reorders m)
    (hf : ∀ a b : Attribute, a.unordered = b.unordered → f a = f b) :
    (l.map f).Perm (m.map f) := by
  have hperm := reorders_iff_perm.mp h
  cases l with
  | nil =>
    obtain rfl : m = [] := List.map_eq_nil_iff.mp (List.nil_perm.mp hperm)
    exact .refl _
  | cons a l =>
    -- such an `f` is a function of what is left without the order
    have : Nonempty β := ⟨f a⟩
    obtain ⟨g, rfl⟩ := (Function.factorsThrough_iff f).mp fun a b => hf a b
    rw [← List.map_map, ← List.map_map]
    exact hperm.map g

theorem length_content (h : l.Reorders m) : l.content.length = m.content.length := by
  rw [content, content, List.length_flatMap, List.length_flatMap]
  exact (h.map_perm fun a b => Attribute.length_encode_of_unordered_eq).sum_nat

/-- **One order ascends at most.** -/
theorem eq (h : l.Reorders m) (hl : l.IsCanonical) (hm : m.IsCanonical) : l = m := by
  -- attributes that ascend are one in both lists if they are up to the order of values
  have hperm : l.Perm m := by
    refine (List.perm_ext_iff_of_nodup hl.1.nodup hm.1.nodup).mpr fun a =>
      ⟨fun ha => ?_, fun ha => ?_⟩
    · obtain ⟨b, hb, heq⟩ := h.exists_mem ha
      rwa [Attribute.eq_of_unordered_eq (hl.2 a ha) (hm.2 b hb) heq.symm]
    · obtain ⟨b, hb, heq⟩ := h.symm.exists_mem ha
      rwa [Attribute.eq_of_unordered_eq (hm.2 a ha) (hl.2 b hb) heq.symm]
  exact SetOf.Ascending.eq_of_perm hl.1 hm.1 hperm

end Reorders

/-! ### Repetitions -/

/-- No attribute comes twice, be it with its values in another order, and no value of an attribute
does. -/
structure IsDistinct (l : Attributes) : Prop where
  attributes : (l.map Attribute.unordered).Nodup
  values : ∀ a ∈ l, a.values.Nodup

/-- Where no value comes twice, the values of all attributes can be put in their order. -/
theorem exists_values_isCanonical (h : ∀ a ∈ l, a.values.Nodup) :
    ∃ k : Attributes, (∀ b ∈ k, b.IsCanonical) ∧
      k.map Attribute.unordered = l.map Attribute.unordered := by
  induction l with
  | nil => exact ⟨[], nofun, rfl⟩
  | cons a l ih =>
    obtain ⟨hfirst, hrest⟩ := List.forall_mem_cons.mp h
    obtain ⟨b, hb, heq⟩ := Attribute.exists_isCanonical hfirst
    obtain ⟨k, hk, hmap⟩ := ih hrest
    refine ⟨b :: k, List.forall_mem_cons.mpr ⟨hb, hk⟩, ?_⟩
    rw [List.map_cons, List.map_cons, heq, hmap]

/-- **A list can be put in order exactly if nothing comes twice in it.** -/
theorem isDistinct_iff : l.IsDistinct ↔ ∃ m : Attributes, m.IsCanonical ∧ l.Reorders m := by
  constructor
  · rintro ⟨hattributes, hvalues⟩
    -- first the values are put in order, then the attributes, which are all different still
    obtain ⟨k, hk, hmap⟩ := exists_values_isCanonical hvalues
    rw [← hmap] at hattributes
    cases hset : SetOf.ofList? Attribute.compareDer k with
    | none => exact absurd hattributes.of_map (SetOf.ofList?_eq_none_iff.mp hset)
    | some m =>
      obtain ⟨hascending, hperm⟩ := SetOf.ofList?_spec hset
      refine ⟨m, ⟨hascending, fun a ha => hk a (hperm.mem_iff.mp ha)⟩, ?_⟩
      rw [reorders_iff_perm, ← hmap]
      exact hperm.symm.map Attribute.unordered
  · rintro ⟨m, ⟨hascending, hcanonical⟩, hreorders⟩
    constructor
    · -- attributes that differ by the order of their values only would be one in `m`
      rw [(reorders_iff_perm.mp hreorders).nodup_iff]
      exact hascending.nodup.map_on fun a ha b hb =>
        Attribute.eq_of_unordered_eq (hcanonical a ha) (hcanonical b hb)
    · intro a ha
      -- the values of `a` are those of an attribute of `m`, in another order
      obtain ⟨b, hb, heq⟩ := hreorders.exists_mem ha
      obtain ⟨-, hperm⟩ := Attribute.unordered_eq_iff.mp heq
      exact hperm.nodup_iff.mp (SetOf.Ascending.nodup (hcanonical b hb))

end Attributes

end SignatureCatalog
