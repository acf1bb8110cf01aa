import Mathlib.Order.Monotone.Basic
import SignatureCatalog.Proofs.Der.Element

/-!
# The order of encodings

DER orders the elements of a set by their encodings, octet by octet. Nothing here compares
encodings: values are compared part by part, the length of a content before the content itself. The
two come to the same, for three reasons.

* A length as it is written comes before another exactly if it is smaller, whatever stands behind
  it (`compare_encodeLength_append`): the long form starts with a greater octet than the short one,
  and with a greater one the more octets follow.
* So encodings are ordered by their tags, then by the length of their contents, then by these, and
  only then by what follows (`compare_encodeTyped_append`).
* Since an encoding ends where its header says, rows of encodings are ordered element by element
  (`Value.compare_flatMap_encode`).

Everything holds within the length limit.
-/

namespace SignatureCatalog

namespace Bytes

/-! ### Octets -/

theorem compare_octet (x y : UInt8) : compare x y = compare x.toNat y.toNat := by
  simp [compare, compareOfLessAndEq, UInt8.lt_iff_toNat_lt, UInt8.toNat_inj]

/-- Strings of one length are compared before what follows them. -/
theorem compare_append {a b : Bytes} (hlength : a.length = b.length) (r s : Bytes) :
    compare (a ++ r) (b ++ s) = (compare a b).then (compare r s) := by
  -- octet by octet from the front, as strings of octets are compared
  induction a generalizing b with
  | nil =>
    obtain rfl := List.length_eq_zero_iff.mp hlength.symm
    rfl
  | cons x a ih =>
    obtain ⟨y, b, rfl⟩ := List.exists_cons_of_length_eq_add_one hlength.symm
    rw [List.cons_append, List.cons_append, List.compare_cons_cons, List.compare_cons_cons,
      ih (Nat.succ.inj hlength), Ordering.then_assoc]

theorem compare_mul_add {m n i j : Nat} (hi : i < 256) (hj : j < 256) :
    compare (m * 256 + i) (n * 256 + j) = (compare m n).then (compare i j) := by
  rcases Nat.lt_trichotomy m n with hlt | rfl | hgt
  · rw [Nat.compare_eq_lt.mpr hlt, Nat.compare_eq_lt.mpr (by omega)]
    rfl
  · -- the quotients are equal, so the remainders decide
    rw [Nat.compare_eq_eq.mpr rfl, Ordering.eq_then]
    rcases Nat.lt_trichotomy i j with hlt | rfl | hgt
    · rw [Nat.compare_eq_lt.mpr hlt, Nat.compare_eq_lt.mpr (by omega)]
    · rw [Nat.compare_eq_eq.mpr rfl, Nat.compare_eq_eq.mpr rfl]
    · rw [Nat.compare_eq_gt.mpr hgt, Nat.compare_eq_gt.mpr (by omega)]
  · rw [Nat.compare_eq_gt.mpr hgt, Nat.compare_eq_gt.mpr (by omega)]
    rfl

/-- Strings of one length are ordered as the numbers they stand for. -/
theorem compare_eq_compare_ofBigEndian {a b : Bytes} (hlength : a.length = b.length) :
    compare a b = compare (ofBigEndian a) (ofBigEndian b) := by
  -- from the back, as the last octet is the remainder of the number by 256
  induction a using List.reverseRecOn generalizing b with
  | nil =>
    obtain rfl := List.length_eq_zero_iff.mp hlength.symm
    rfl
  | append_singleton a x ih =>
    rcases List.eq_nil_or_concat b with rfl | ⟨b, y, rfl⟩
    · simp at hlength
    · rw [List.concat_eq_append] at hlength ⊢
      rw [List.length_append, List.length_append] at hlength
      have hlength := Nat.succ.inj hlength
      rw [ofBigEndian_append_singleton, ofBigEndian_append_singleton,
        compare_mul_add x.toNat_lt y.toNat_lt, ← ih hlength, ← compare_octet,
        compare_append hlength, List.compare_cons_cons, List.compare_nil_nil, Ordering.then_eq]

theorem lt_of_length_bigEndian_lt {m n : Nat}
    (h : (bigEndian m).length < (bigEndian n).length) : m < n := by
  by_contra hle
  -- each number is below the power that its octets make room for
  have hm := ofBigEndian_lt (bigEndian m)
  rw [ofBigEndian_bigEndian] at hm
  -- the octets of the greater number would be enough for the smaller one
  have hlength := length_bigEndian_le (show n < 256 ^ (bigEndian m).length by omega)
  omega

end Bytes

namespace Oid

/-- The order of object identifiers is transitive. -/
instance : Std.TransOrd Oid :=
  inferInstanceAs (Std.TransCmp (compareLex (compareOn fun o : Oid => o.content.length)
    (compareOn fun o : Oid => o.content)))

/-- It tells any two object identifiers apart. -/
instance : Std.LawfulEqOrd Oid where
  eq_of_compare {o o'} h := by
    have heq := Std.LawfulEqCmp.eq_of_compare (Ordering.then_eq_eq.mp h).2
    cases o
    cases o'
    exact congrArg mk heq

end Oid

namespace Der

/-! ### Lengths -/

/-- **Lengths are ordered as they are written**, and before what follows them. -/
theorem compare_encodeLength_append {m n : Nat} (hm : m ≤ maxLength) (hn : n ≤ maxLength)
    (r s : Bytes) :
    compare (encodeLength m ++ r) (encodeLength n ++ s) = (compare m n).then (compare r s) := by
  -- the first octet tells the forms apart, and how many octets there are in the long form
  by_cases hshort : m < 0x80 <;> by_cases hshort' : n < 0x80
  · have hm' : (UInt8.ofNat m).toNat = m := by rw [UInt8.toNat_ofNat']; omega
    have hn' : (UInt8.ofNat n).toNat = n := by rw [UInt8.toNat_ofNat']; omega
    rw [encodeLength_of_lt hshort, encodeLength_of_lt hshort', List.singleton_append,
      List.singleton_append, List.compare_cons_cons, Bytes.compare_octet, hm', hn']
  · -- the short form is the octet of a number below 128, the long form begins with one above
    have hm' : (UInt8.ofNat m).toNat = m := by rw [UInt8.toNat_ofNat']; omega
    rw [encodeLength_of_lt hshort, encodeLength_of_le (by omega), List.singleton_append,
      List.cons_append, List.compare_cons_cons, Bytes.compare_octet, hm',
      toNat_ofNat_length_bigEndian hn, Nat.compare_eq_lt.mpr (by omega),
      Nat.compare_eq_lt.mpr (by omega)]
    rfl
  · have hn' : (UInt8.ofNat n).toNat = n := by rw [UInt8.toNat_ofNat']; omega
    rw [encodeLength_of_le (by omega), encodeLength_of_lt hshort', List.singleton_append,
      List.cons_append, List.compare_cons_cons, Bytes.compare_octet, hn',
      toNat_ofNat_length_bigEndian hm, Nat.compare_eq_gt.mpr (by omega),
      Nat.compare_eq_gt.mpr (by omega)]
    rfl
  · rw [encodeLength_of_le (by omega), encodeLength_of_le (by omega), List.cons_append,
      List.cons_append, List.compare_cons_cons, Bytes.compare_octet,
      -- both long: the octets that count the others decide unless they are equal
      toNat_ofNat_length_bigEndian hm, toNat_ofNat_length_bigEndian hn]
    rcases Nat.lt_trichotomy (Bytes.bigEndian m).length (Bytes.bigEndian n).length with
      hlt | heq | hgt
    · rw [Nat.compare_eq_lt.mpr (by omega),
        Nat.compare_eq_lt.mpr (Bytes.lt_of_length_bigEndian_lt hlt)]
      rfl
    · -- as many octets on both sides are compared as numbers
      rw [heq, Nat.compare_eq_eq.mpr rfl, Ordering.eq_then, Bytes.compare_append heq,
        Bytes.compare_eq_compare_ofBigEndian heq, Bytes.ofBigEndian_bigEndian,
        Bytes.ofBigEndian_bigEndian]
    · rw [Nat.compare_eq_gt.mpr (by omega),
        Nat.compare_eq_gt.mpr (Bytes.lt_of_length_bigEndian_lt hgt)]
      rfl

theorem length_encodeLength_mono {m n : Nat} (h : m ≤ n) :
    (encodeLength m).length ≤ (encodeLength n).length := by
  by_cases hshort : m < 0x80
  · rw [encodeLength_of_lt hshort]
    exact List.length_pos_iff.mpr (encodeLength_ne_nil n)
  · rw [encodeLength_of_le (by omega), encodeLength_of_le (by omega), List.length_cons,
      List.length_cons]
    by_contra hlt
    -- fewer octets would be those of a smaller number
    have := Bytes.lt_of_length_bigEndian_lt (m := n) (n := m) (by omega)
    omega

/-! ### Elements -/

variable {t t' : Tag} {x y : Bytes}

/-- **Encodings are ordered by tag, length and content**, and before what follows them. -/
theorem compare_encodeTyped_append (hx : x.length ≤ maxLength) (hy : y.length ≤ maxLength)
    (r s : Bytes) :
    compare (encodeTyped t x ++ r) (encodeTyped t' y ++ s) =
      (compare t.octet t'.octet).then ((x.shortlex y).then (compare r s)) := by
  rw [encodeTyped, encodeTyped, List.cons_append, List.cons_append, List.compare_cons_cons,
    List.append_assoc, List.append_assoc, compare_encodeLength_append hx hy, Bytes.shortlex,
    Ordering.then_assoc]
  congr 1
  -- contents are compared octet by octet only if they have one length
  cases hlength : compare x.length y.length with
  | lt => rfl
  | gt => rfl
  | eq =>
    rw [Ordering.eq_then, Ordering.eq_then, Bytes.compare_append (Nat.compare_eq_eq.mp hlength)]

theorem compare_length_encodeTyped (t t' : Tag) (x y : Bytes) :
    compare (encodeTyped t x).length (encodeTyped t' y).length = compare x.length y.length := by
  have hmono : StrictMono fun n => (encodeLength n).length + n + 1 := by
    -- a longer content takes no fewer length octets, so the whole is longer too
    intro m n hlt
    have hle := length_encodeLength_mono (Nat.le_of_lt hlt)
    dsimp only
    omega
  rw [length_encodeTyped, length_encodeTyped, ← cmp_eq_compare, ← cmp_eq_compare]
  exact hmono.cmp_map_eq x.length y.length

namespace Value

variable {v w : Value} {values values' : List Value}

/-- **Values are ordered as their encodings are.** -/
theorem compare_encode_append (hv : v.content.length ≤ maxLength)
    (hw : w.content.length ≤ maxLength) (r s : Bytes) :
    compare (v.encode ++ r) (w.encode ++ s) = (v.compareDer w).then (compare r s) := by
  rw [encode, encode, compare_encodeTyped_append hv hw, compareDer, Ordering.then_assoc]

theorem compare_encode (hv : v.content.length ≤ maxLength) (hw : w.content.length ≤ maxLength) :
    compare v.encode w.encode = v.compareDer w := by
  -- an encoding by itself is one with nothing behind it
  have happend := compare_encode_append hv hw [] []
  rwa [List.append_nil, List.append_nil, List.compare_nil_nil, Ordering.then_eq] at happend

theorem compareDer_mk (t : Tag) (x y : Bytes) : compareDer ⟨t, x⟩ ⟨t, y⟩ = x.shortlex y := by
  rw [compareDer, Std.ReflOrd.compare_self, Ordering.eq_then]

/-- Rows of encodings are ordered element by element. -/
theorem compare_flatMap_encode (h : ∀ v ∈ values, v.content.length ≤ maxLength)
    (h' : ∀ v ∈ values', v.content.length ≤ maxLength) :
    compare (values.flatMap encode) (values'.flatMap encode) =
      List.compareLex compareDer values values' := by
  -- a row that is at its end has an empty encoding, which comes before every other
  induction values generalizing values' with
  | nil =>
    cases values' with
    | nil => rfl
    | cons w values' => rfl
  | cons v values ih =>
    cases values' with
    | nil => rfl
    | cons w values' =>
      obtain ⟨hv, hvalues⟩ := List.forall_mem_cons.mp h
      obtain ⟨hw, hvalues'⟩ := List.forall_mem_cons.mp h'
      rw [List.flatMap_cons, List.flatMap_cons, compare_encode_append hv hw, ih hvalues hvalues',
        List.compareLex_cons_cons]

/-- A limit on the row is one on each of its elements. -/
theorem compare_flatMap_encode_of_length_le (h : (values.flatMap encode).length ≤ maxLength)
    (h' : (values'.flatMap encode).length ≤ maxLength) :
    compare (values.flatMap encode) (values'.flatMap encode) =
      List.compareLex compareDer values values' := by
  apply compare_flatMap_encode
  · intro v hv
    exact Nat.le_trans (length_content_le_of_mem hv) h
  · intro w hw
    exact Nat.le_trans (length_content_le_of_mem hw) h'

/-- The order of values is transitive. -/
instance : Std.TransCmp compareDer :=
  inferInstanceAs (Std.TransCmp (compareLex (compareOn fun v : Value => v.tag.octet)
    (compareLex (compareOn fun v : Value => v.content.length)
      (compareOn fun v : Value => v.content))))

/-- It tells any two values apart. -/
instance : Std.LawfulEqCmp compareDer where
  eq_of_compare {v w} h := by
    obtain ⟨htag, hcontent⟩ := Ordering.then_eq_eq.mp h
    have heq := (Ordering.then_eq_eq.mp hcontent).2
    rw [eq_iff]
    exact ⟨Tag.ext (Std.LawfulEqCmp.eq_of_compare htag), Std.LawfulEqCmp.eq_of_compare heq⟩

end Value

/-- Encodings with one tag are ordered by length, and then by content. -/
theorem compare_encodeTyped (hx : x.length ≤ maxLength) (hy : y.length ≤ maxLength) :
    compare (encodeTyped t x) (encodeTyped t y) = x.shortlex y := by
  rw [← Value.compareDer_mk t]
  exact Value.compare_encode (v := ⟨t, x⟩) (w := ⟨t, y⟩) hx hy

end Der

end SignatureCatalog
