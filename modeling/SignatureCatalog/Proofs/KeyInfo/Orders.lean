import SignatureCatalog.KeyInfo.Order
import SignatureCatalog.Proofs.Der.Order
import SignatureCatalog.Proofs.KeyInfo.PublicKeyCodec

/-!
# What the comparisons of key infos come to

DER puts values in the order of their encodings, octet by octet. Of the three comparisons of
algorithm identifiers and public key infos, `compareFields` is a total order of its own, and the
other two are meant to be the order of DER: `compareValue` that of the contents, `compareDer` that
of the encodings. They are, except in two places.

* Two identifiers that are the same and have no parameters are a *bare match*
  (`AlgorithmIdentifier.IsBareMatch`). They ought to be equal, but the first is said to be less. So
  is a key info if its algorithm makes a bare match with that of the other, whatever the keys are,
  unless `compareDer` has found the encodings to be of different lengths.
* Keys of one algorithm, with as many octets and as many unused bits, ought to be compared octet by
  octet. Their *weights* are compared first (`SubjectPublicKeyInfo.WeighsApart`).

Nothing else goes wrong (`SubjectPublicKeyInfo.orders_apart_from_der`). All comparisons are read as
chains of total orders, which are total orders again. The links are the elements of the SEQUENCE
(`AlgorithmIdentifier.compareElements`, `SubjectPublicKeyInfo.compareElements`), with the comparison
of parameters and the weight of keys left open. So one chain is the order of DER, another one is
what is computed, and they are compared link by link.
-/

namespace SignatureCatalog

open Der

/-! ### Total orders among some values -/

/-- A comparison puts the values that satisfy `s` in a total order, and finds no two values equal
but those of them that are. -/
structure OrdersAmong {α : Type} (s : α → Prop) (cmp : α → α → Ordering) : Prop where
  eq_iff : ∀ a b, cmp a b = .eq ↔ a = b ∧ s a
  swap : ∀ a b, s a → s b → cmp b a = (cmp a b).swap
  trans : ∀ a b c, s a → s b → s c → (cmp a b).isLE → (cmp b c).isLE → (cmp a c).isLE

section

variable {α : Type} {cmp base : α → α → Ordering} [Std.TransCmp base] [Std.LawfulEqCmp base]

theorem ordersAmong_of_lawful : OrdersAmong (fun _ => True) base where
  eq_iff a b := by rw [Std.LawfulEqCmp.compare_eq_iff_eq, and_true]
  swap _ _ _ _ := Std.OrientedCmp.eq_swap
  trans _ _ _ _ _ _ := Std.TransCmp.isLE_trans

/-- A comparison that goes by a total order, except that it says less where it misses a case, orders
what it does not miss. -/
theorem ordersAmong_of_misses {s : α → Prop} {misses : α → α → Prop}
    [∀ a b, Decidable (misses a b)] (hcmp : ∀ a b, cmp a b = if misses a b then .lt else base a b)
    (hs : ∀ a b, misses a b → ¬s a) (hself : ∀ a, ¬s a → misses a a) : OrdersAmong s cmp := by
  have hbase (a b : α) (hsa : s a) : cmp a b = base a b := by
    rw [hcmp, if_neg fun hmisses => hs a b hmisses hsa]
  constructor
  · intro a b
    constructor
    · intro heq
      rw [hcmp] at heq
      split at heq
      · cases heq
      · next hmisses =>
        -- a case that is not missed goes by the total order, in which equal is the same
        obtain rfl := Std.LawfulEqCmp.eq_of_compare heq
        exact ⟨rfl, not_imp_comm.mp (hself a) hmisses⟩
    · rintro ⟨rfl, hsa⟩
      rw [hbase a a hsa]
      exact Std.ReflCmp.compare_self
  · intro a b hsa hsb
    rw [hbase b a hsb, hbase a b hsa]
    exact Std.OrientedCmp.eq_swap
  · intro a b c hsa hsb _
    rw [hbase a b hsa, hbase b c hsb, hbase a c hsa]
    exact Std.TransCmp.isLE_trans

end

/-- What comes first decides unless it finds no difference. -/
theorem then_eq_then_of_ne {o p q : Ordering} (h : o ≠ .eq) : o.then p = o.then q := by
  cases o with
  | lt => rfl
  | eq => exact absurd rfl h
  | gt => rfl

namespace Der

/-! ### Values by the rank of their tags -/

namespace Tag

/-- A universal type stands in the table at its place. -/
theorem rank_of_lt {t : Tag} (h : t.octet.toNat < 0x40) :
    ∃ i, ∃ hi : i < universal.length, t.rank = (i, 0, 0) ∧ universal[i].1 = t.octet := by
  -- below the other classes an octet is a tag only if the table has it
  have hlookup := t.isIdentifier.2.resolve_right (Nat.not_le.mpr h)
  obtain ⟨entry, hmem, heq⟩ := List.lookup_isSome_iff.mp hlookup
  have hi : universal.findIdx (·.1 = t.octet) < universal.length := by
    apply List.findIdx_lt_length_of_exists
    exact ⟨entry, hmem, decide_eq_true (beq_iff_eq.mp heq).symm⟩
  refine ⟨universal.findIdx (·.1 = t.octet), hi, ?_, ?_⟩
  · unfold rank
    exact if_pos h
  · exact of_decide_eq_true (List.findIdx_getElem (w := hi))

/-- Any other tag has its class, form and number for a place, behind the table. -/
theorem rank_of_le {t : Tag} (h : 0x40 ≤ t.octet.toNat) :
    t.rank = (universal.length + t.octet.toNat / 64, t.octet.toNat / 32 % 2,
      t.octet.toNat % 32) := by
  have hform : (if t.isConstructed then 1 else 0) = t.octet.toNat / 32 % 2 := by
    -- the form is a bit of the octet
    unfold isConstructed
    rcases Nat.mod_two_eq_zero_or_one (t.octet.toNat / 32) with hzero | hone
    · rw [hzero]
      rfl
    · rw [hone]
      rfl
  unfold rank
  rw [if_neg (Nat.not_lt.mpr h), hform]
  rfl

/-- A tag is known by its place. -/
theorem eq_of_rank_eq {s t : Tag} (h : s.rank = t.rank) : s = t := by
  apply ext
  by_cases hs : s.octet.toNat < 0x40 <;> by_cases ht : t.octet.toNat < 0x40
  -- one place in the table, one octet
  · obtain ⟨i, hi, hrank, hoctet⟩ := rank_of_lt hs
    obtain ⟨j, hj, hrank', hoctet'⟩ := rank_of_lt ht
    rw [hrank, hrank', Prod.mk.injEq] at h
    obtain ⟨rfl, -⟩ := h
    rw [← hoctet, ← hoctet']
  · -- the table ends before the other classes begin
    obtain ⟨i, hi, hrank, -⟩ := rank_of_lt hs
    rw [hrank, rank_of_le (Nat.not_lt.mp ht), Prod.mk.injEq] at h
    omega
  · obtain ⟨j, hj, hrank, -⟩ := rank_of_lt ht
    rw [hrank, rank_of_le (Nat.not_lt.mp hs), Prod.mk.injEq] at h
    omega
  · -- an octet is made of its class, form and number
    rw [rank_of_le (Nat.not_lt.mp hs), rank_of_le (Nat.not_lt.mp ht), Prod.mk.injEq,
      Prod.mk.injEq] at h
    apply UInt8.toNat_inj.mp
    omega

/-- The order of tags by place is transitive. -/
instance : Std.TransCmp compareRank :=
  inferInstanceAs (Std.TransCmp (compareLex (compareOn fun t : Tag => t.rank.1)
    (compareLex (compareOn fun t : Tag => t.rank.2.1) (compareOn fun t : Tag => t.rank.2.2))))

/-- It tells any two tags apart. -/
instance : Std.LawfulEqCmp compareRank where
  eq_of_compare {s t} h := by
    obtain ⟨hfirst, h⟩ := Ordering.then_eq_eq.mp h
    obtain ⟨hsecond, hthird⟩ := Ordering.then_eq_eq.mp h
    apply eq_of_rank_eq
    exact Prod.ext (Std.LawfulEqCmp.eq_of_compare hfirst)
      (Prod.ext (Std.LawfulEqCmp.eq_of_compare hsecond) (Std.LawfulEqCmp.eq_of_compare hthird))

end Tag

namespace Value

/-- Compares by tag, in the order of places, then by length and content. -/
def compareByRank (v w : Value) : Ordering :=
  (v.tag.compareRank w.tag).then (v.content.shortlex w.content)

/-- The order of values by the rank of their tags is transitive. -/
instance : Std.TransCmp compareByRank :=
  inferInstanceAs (Std.TransCmp
    (compareLex (Ordering.byKey (fun v : Value => v.tag) Tag.compareRank)
      (compareLex (compareOn fun v : Value => v.content.length)
        (compareOn fun v : Value => v.content))))

/-- It tells any two values apart. -/
instance : Std.LawfulEqCmp compareByRank where
  eq_of_compare {v w} h := by
    obtain ⟨htag, hcontent⟩ := Ordering.then_eq_eq.mp h
    have heq := (Ordering.then_eq_eq.mp hcontent).2
    rw [eq_iff]
    exact ⟨Std.LawfulEqCmp.eq_of_compare htag, Std.LawfulEqCmp.eq_of_compare heq⟩

end Value

namespace BitString

/-- Bit strings are compared by their octets, and before these by how many bits of the last one do
not count. -/
theorem compare_content (a b : BitString) :
    compare a.content b.content = (compare a.unused b.unused).then (compare a.octets b.octets) := by
  have hval (c : BitString) : (UInt8.ofNat c.unused.val).toNat = c.unused.val := by
    rw [UInt8.toNat_ofNat']
    omega
  unfold content
  rw [List.compare_cons_cons, Bytes.compare_octet, hval, hval]
  rfl

theorem length_content (b : BitString) : b.content.length = b.octets.length + 1 :=
  rfl

theorem shortlex_content (a b : BitString) :
    a.content.shortlex b.content = (compare a.octets.length b.octets.length).then
      ((compare a.unused b.unused).then (compare a.octets b.octets)) := by
  have hmono : StrictMono Nat.succ := fun _ _ => Nat.succ_lt_succ
  -- both contents are one octet longer than what they carry
  have hlength : compare a.content.length b.content.length =
      compare a.octets.length b.octets.length := by
    rw [← cmp_eq_compare, ← cmp_eq_compare]
    exact hmono.cmp_map_eq a.octets.length b.octets.length
  unfold Bytes.shortlex
  rw [hlength, compare_content]

end BitString

end Der

/-! ### Algorithm identifiers -/

namespace AlgorithmIdentifier

variable {a b : AlgorithmIdentifier}

/-- Compares element by element, parameters by the given comparison and absent ones first. -/
def compareElements (cmp : Value → Value → Ordering) (a b : AlgorithmIdentifier) : Ordering :=
  (compare a.oid b.oid).then (List.compareLex cmp a.parameters.toList b.parameters.toList)

theorem compareLex_toList_some (cmp : Value → Value → Ordering) (v w : Value) :
    List.compareLex cmp (some v).toList (some w).toList = cmp v w := by
  rw [Option.toList_some, Option.toList_some, List.compareLex_cons_cons, List.compareLex_nil_nil,
    Ordering.then_eq]

section

variable {cmp : Value → Value → Ordering} [Std.TransCmp cmp]

/-- The order of algorithm identifiers is transitive if that of values is. -/
instance : Std.TransCmp (compareElements cmp) :=
  inferInstanceAs (Std.TransCmp (compareLex (compareOn fun a : AlgorithmIdentifier => a.oid)
    (Ordering.byKey (fun a : AlgorithmIdentifier => a.parameters.toList) (List.compareLex cmp))))

/-- It tells any two algorithm identifiers apart if that of values does so with values. -/
instance [Std.LawfulEqCmp cmp] : Std.LawfulEqCmp (compareElements cmp) where
  eq_of_compare {a b} h := by
    obtain ⟨hoid, hparameters⟩ := Ordering.then_eq_eq.mp h
    -- a list of one member at most is known by its head
    have hlist := congrArg List.head? (Std.LawfulEqCmp.eq_of_compare hparameters)
    rw [Option.head?_toList, Option.head?_toList] at hlist
    cases a
    cases b
    rw [mk.injEq]
    exact ⟨Std.LawfulEqCmp.eq_of_compare hoid, hlist⟩

end

/-! #### By field -/

theorem compareFields_eq : compareFields = compareElements Value.compareByRank := by
  funext a b
  unfold compareFields compareElements
  apply congrArg (compare a.oid b.oid).then
  -- absent parameters are an empty list, which comes before the others
  cases a.parameters with
  | none =>
    cases b.parameters with
    | none => rfl
    | some w => rfl
  | some v =>
    cases b.parameters with
    | none => rfl
    | some w => exact (compareLex_toList_some Value.compareByRank v w).symm

/-- The order by field is transitive. -/
instance : Std.TransCmp compareFields := by
  rw [compareFields_eq]
  infer_instance

/-- It tells any two algorithm identifiers apart. -/
instance : Std.LawfulEqCmp compareFields := by
  rw [compareFields_eq]
  infer_instance

/-! #### By encoding -/

/-- Compares the length of the encodings, then element by element, with parameters as DER has
them. -/
def compareEncodings (a b : AlgorithmIdentifier) : Ordering :=
  (compare a.encode.length b.encode.length).then (a.compareElements Value.compareDer b)

/-- The order by encoding is transitive. -/
instance : Std.TransCmp compareEncodings :=
  inferInstanceAs (Std.TransCmp (compareLex (compareOn fun a : AlgorithmIdentifier =>
    a.encode.length) (compareElements Value.compareDer)))

/-- It tells any two algorithm identifiers apart. -/
instance : Std.LawfulEqCmp compareEncodings where
  eq_of_compare h := Std.LawfulEqCmp.eq_of_compare (Ordering.then_eq_eq.mp h).2

/-- Contents are ordered element by element. -/
theorem compare_content (ha : a.content.length ≤ maxLength) (hb : b.content.length ≤ maxLength) :
    compare a.content b.content = a.compareElements Value.compareDer b := by
  rw [content_eq] at ha hb
  -- behind the identifier there is a row with the parameters or with nothing
  rw [content_eq, content_eq, Value.compare_flatMap_encode_of_length_le ha hb, elements, elements,
    List.compareLex_cons_cons, Value.compareDer_mk]
  rfl

theorem shortlex_content (ha : a.content.length ≤ maxLength) (hb : b.content.length ≤ maxLength) :
    a.content.shortlex b.content = a.compareEncodings b := by
  unfold Bytes.shortlex compareEncodings encode
  rw [compare_content ha hb, compare_length_encodeTyped]

/-- Encodings are ordered by `compareEncodings`. -/
theorem compare_encode (ha : a.content.length ≤ maxLength) (hb : b.content.length ≤ maxLength) :
    compare a.encode b.encode = a.compareEncodings b := by
  unfold encode
  rw [compare_encodeTyped ha hb, shortlex_content ha hb]

/-! #### Bare matches -/

/-- The two identifiers are one, and it has no parameters. -/
def IsBareMatch (a b : AlgorithmIdentifier) : Prop :=
  a = b ∧ a.parameters = none

instance : Decidable (a.IsBareMatch b) :=
  inferInstanceAs (Decidable (_ ∧ _))

/-- The values are compared as DER does, except for bare matches. -/
theorem compareValue_eq :
    a.compareValue b =
      if a.IsBareMatch b then .lt else a.compareElements Value.compareDer b := by
  split
  · next hbare =>
    obtain ⟨rfl, hnone⟩ := hbare
    unfold compareValue
    rw [Std.ReflOrd.compare_self, hnone]
    rfl
  · next hbare =>
    obtain ⟨oid, parameters⟩ := a
    obtain ⟨oid', parameters'⟩ := b
    cases parameters with
    | none =>
      cases parameters' with
      | none =>
        -- the object identifiers differ, since this is no bare match
        apply then_eq_then_of_ne
        intro heq
        obtain rfl := Std.LawfulEqCmp.eq_of_compare heq
        exact hbare ⟨rfl, rfl⟩
      | some w => rfl
    | some v =>
      cases parameters' with
      | none => rfl
      | some w =>
        apply congrArg (compare oid oid').then
        exact (compareLex_toList_some Value.compareDer v w).symm

theorem compareDer_eq :
    a.compareDer b = if a.IsBareMatch b then .lt else a.compareEncodings b := by
  unfold compareDer compareEncodings
  rw [compareValue_eq]
  split
  · next hbare =>
    -- the lengths have no say, as there is only one
    obtain ⟨rfl, -⟩ := hbare
    rw [Std.ReflOrd.compare_self]
    rfl
  · rfl

theorem compareValue_eq_compare_content (ha : a.encode.length ≤ maxLength)
    (hb : b.encode.length ≤ maxLength) :
    a.compareValue b = if a.IsBareMatch b then .lt else compare a.content b.content := by
  rw [compareValue_eq,
    compare_content (Nat.le_trans length_le_encodeTyped ha) (Nat.le_trans length_le_encodeTyped hb)]

theorem compareDer_eq_compare_encode (ha : a.encode.length ≤ maxLength)
    (hb : b.encode.length ≤ maxLength) :
    a.compareDer b = if a.IsBareMatch b then .lt else compare a.encode b.encode := by
  rw [compareDer_eq,
    compare_encode (Nat.le_trans length_le_encodeTyped ha) (Nat.le_trans length_le_encodeTyped hb)]

/-- The comparison of values orders whatever has parameters. -/
theorem ordersAmong_compareValue : OrdersAmong (fun a => a.parameters ≠ none) compareValue := by
  refine ordersAmong_of_misses (fun _ _ => compareValue_eq) ?_ ?_
  · intro a b hbare hparameters
    exact hparameters hbare.2
  · intro a hparameters
    exact ⟨rfl, not_not.mp hparameters⟩

/-- So does the comparison of encodings. -/
theorem ordersAmong_compareDer : OrdersAmong (fun a => a.parameters ≠ none) compareDer := by
  refine ordersAmong_of_misses (fun _ _ => compareDer_eq) ?_ ?_
  · intro a b hbare hparameters
    exact hparameters hbare.2
  · intro a hparameters
    exact ⟨rfl, not_not.mp hparameters⟩

end AlgorithmIdentifier

/-! ### Public key infos -/

namespace SubjectPublicKeyInfo

variable {k l : SubjectPublicKeyInfo}

/-- Compares the algorithms, and then how many octets and unused bits there are. -/
def compareShape (k l : SubjectPublicKeyInfo) : Ordering :=
  (k.algorithm.compareEncodings l.algorithm).then <|
    (compare k.subjectPublicKey.octets.length l.subjectPublicKey.octets.length).then
      (compare k.subjectPublicKey.unused l.subjectPublicKey.unused)

/-- Compares by shape, then by a weight of the octets, and then by the octets themselves. -/
def compareElements (weigh : Bytes → Nat) (k l : SubjectPublicKeyInfo) : Ordering :=
  (k.compareShape l).then <|
    (compare (weigh k.subjectPublicKey.octets) (weigh l.subjectPublicKey.octets)).then
      (compare k.subjectPublicKey.octets l.subjectPublicKey.octets)

theorem compareShape_eq_eq_iff :
    k.compareShape l = .eq ↔ k.algorithm = l.algorithm ∧
      k.subjectPublicKey.octets.length = l.subjectPublicKey.octets.length ∧
      k.subjectPublicKey.unused = l.subjectPublicKey.unused := by
  unfold compareShape
  rw [Ordering.then_eq_eq, Ordering.then_eq_eq, Std.LawfulEqCmp.compare_eq_iff_eq,
    Std.LawfulEqCmp.compare_eq_iff_eq, Std.LawfulEqCmp.compare_eq_iff_eq]

/-- The order by shape is transitive. -/
instance : Std.TransCmp compareShape :=
  inferInstanceAs (Std.TransCmp (compareLex
    (Ordering.byKey (fun k : SubjectPublicKeyInfo => k.algorithm)
      AlgorithmIdentifier.compareEncodings)
    (compareLex (compareOn fun k : SubjectPublicKeyInfo => k.subjectPublicKey.octets.length)
      (compareOn fun k : SubjectPublicKeyInfo => k.subjectPublicKey.unused))))

variable {weigh : Bytes → Nat}

/-- The order of key infos is transitive, whatever the weight. -/
instance : Std.TransCmp (compareElements weigh) :=
  inferInstanceAs (Std.TransCmp (compareLex compareShape
    (compareLex (compareOn fun k : SubjectPublicKeyInfo => weigh k.subjectPublicKey.octets)
      (compareOn fun k : SubjectPublicKeyInfo => k.subjectPublicKey.octets))))

theorem eq_of_parts_eq (halgorithm : k.algorithm = l.algorithm)
    (hunused : k.subjectPublicKey.unused = l.subjectPublicKey.unused)
    (hoctets : k.subjectPublicKey.octets = l.subjectPublicKey.octets) : k = l := by
  cases k
  cases l
  rw [mk.injEq]
  exact ⟨halgorithm, BitString.ext hunused hoctets⟩

/-- It tells any two key infos apart. -/
instance : Std.LawfulEqCmp (compareElements weigh) where
  eq_of_compare {k l} h := by
    obtain ⟨hshape, h⟩ := Ordering.then_eq_eq.mp h
    -- the weight adds nothing: the octets are compared behind it in any case
    obtain ⟨halgorithm, -, hunused⟩ := compareShape_eq_eq_iff.mp hshape
    have hoctets := (Ordering.then_eq_eq.mp h).2
    exact eq_of_parts_eq halgorithm hunused (Std.LawfulEqCmp.eq_of_compare hoctets)

/-! #### By field -/

/-- The order by field is transitive. -/
instance : Std.TransCmp compareFields :=
  inferInstanceAs (Std.TransCmp (compareLex
    (Ordering.byKey (fun k : SubjectPublicKeyInfo => k.algorithm) AlgorithmIdentifier.compareFields)
    (compareLex (compareOn fun k : SubjectPublicKeyInfo => k.subjectPublicKey.unused)
      (compareLex (compareOn fun k : SubjectPublicKeyInfo => k.subjectPublicKey.bitLength)
        (compareOn fun k : SubjectPublicKeyInfo => k.subjectPublicKey.octets)))))

/-- It tells any two key infos apart. -/
instance : Std.LawfulEqCmp compareFields where
  eq_of_compare {k l} h := by
    obtain ⟨halgorithm, h⟩ := Ordering.then_eq_eq.mp h
    obtain ⟨hunused, h⟩ := Ordering.then_eq_eq.mp h
    obtain ⟨-, hoctets⟩ := Ordering.then_eq_eq.mp h
    exact eq_of_parts_eq (Std.LawfulEqCmp.eq_of_compare halgorithm)
      (Std.LawfulEqCmp.eq_of_compare hunused) (Std.LawfulEqCmp.eq_of_compare hoctets)

/-! #### By encoding -/

/-- The order of contents: that of the elements, with no weight. -/
theorem compare_content (hk : k.content.length ≤ maxLength) (hl : l.content.length ≤ maxLength) :
    compare k.content l.content = k.compareElements (fun _ => 0) l := by
  have halgorithm : k.algorithm.content.shortlex l.algorithm.content =
      k.algorithm.compareEncodings l.algorithm :=
    AlgorithmIdentifier.shortlex_content (Nat.le_trans k.length_algorithm_le hk)
      (Nat.le_trans l.length_algorithm_le hl)
  rw [content_eq] at hk hl
  calc compare k.content l.content
      = List.compareLex Value.compareDer k.elements l.elements := by
        rw [content_eq, content_eq]
        exact Value.compare_flatMap_encode_of_length_le hk hl
    _ = (k.algorithm.content.shortlex l.algorithm.content).then
          (k.subjectPublicKey.content.shortlex l.subjectPublicKey.content) := by
        -- the tags of the elements are the same on both sides
        rw [elements, elements, List.compareLex_cons_cons, List.compareLex_cons_cons,
          List.compareLex_nil_nil, Ordering.then_eq, Value.compareDer_mk, Value.compareDer_mk]
    _ = k.compareElements (fun _ => 0) l := by
        -- weights that are all the same have no say
        unfold compareElements compareShape
        rw [halgorithm, BitString.shortlex_content, Std.ReflOrd.compare_self, Ordering.eq_then,
          Ordering.then_assoc, Ordering.then_assoc]

/-- Encodings are ordered by length, and then by their elements. -/
theorem compare_encode (hk : k.content.length ≤ maxLength) (hl : l.content.length ≤ maxLength) :
    compare k.encode l.encode =
      (compare k.encode.length l.encode.length).then (compare k.content l.content) := by
  unfold encode
  rw [compare_encodeTyped hk hl, compare_length_encodeTyped]
  rfl

/-! #### Weights -/

/-- The keys are of one algorithm and have as many octets and unused bits, and differ in weight. -/
def WeighsApart (k l : SubjectPublicKeyInfo) : Prop :=
  k.algorithm = l.algorithm ∧
    k.subjectPublicKey.octets.length = l.subjectPublicKey.octets.length ∧
    k.subjectPublicKey.unused = l.subjectPublicKey.unused ∧
    weight k.subjectPublicKey.octets ≠ weight l.subjectPublicKey.octets

instance : Decidable (k.WeighsApart l) :=
  inferInstanceAs (Decidable (_ ∧ _ ∧ _ ∧ _))

/-- The comparison of weights. -/
def compareWeights (k l : SubjectPublicKeyInfo) : Ordering :=
  compare (weight k.subjectPublicKey.octets) (weight l.subjectPublicKey.octets)

/-- Weights decide where they are different and all before them is equal. -/
theorem compareElements_weight :
    k.compareElements weight l =
      if k.WeighsApart l then k.compareWeights l else k.compareElements (fun _ => 0) l := by
  split
  · next hapart =>
    obtain ⟨halgorithm, hlength, hunused, hweight⟩ := hapart
    have hne : k.compareWeights l ≠ .eq := fun heq => hweight (Nat.compare_eq_eq.mp heq)
    calc k.compareElements weight l
        = (k.compareWeights l).then
            (compare k.subjectPublicKey.octets l.subjectPublicKey.octets) := by
          unfold compareElements
          rw [compareShape_eq_eq_iff.mpr ⟨halgorithm, hlength, hunused⟩, Ordering.eq_then]
          rfl
      _ = (k.compareWeights l).then .eq := then_eq_then_of_ne hne
      _ = k.compareWeights l := Ordering.then_eq
  · next hapart =>
    -- either something before the weights is different, or the weights are not
    unfold compareElements
    by_cases hshape : k.compareShape l = .eq
    · obtain ⟨halgorithm, hlength, hunused⟩ := compareShape_eq_eq_iff.mp hshape
      have hweight : weight k.subjectPublicKey.octets = weight l.subjectPublicKey.octets :=
        not_not.mp fun hne => hapart ⟨halgorithm, hlength, hunused, hne⟩
      rw [hweight, Std.ReflOrd.compare_self, Std.ReflOrd.compare_self]
    · exact then_eq_then_of_ne hshape

theorem length_encode_of_weighsApart (h : k.WeighsApart l) : k.encode.length = l.encode.length := by
  obtain ⟨halgorithm, hlength, -, -⟩ := h
  have hcontent : k.content.length = l.content.length := by
    -- the length of a content goes by that of the algorithm and by the number of octets
    unfold content BitString.encode
    rw [List.length_append, List.length_append, halgorithm, length_encodeTyped, length_encodeTyped,
      BitString.length_content, BitString.length_content, hlength]
  unfold encode
  rw [length_encodeTyped, length_encodeTyped, hcontent]

theorem compareValue_eq :
    k.compareValue l =
      if k.algorithm.IsBareMatch l.algorithm then .lt else k.compareElements weight l := by
  unfold compareValue compareElements compareShape
  rw [AlgorithmIdentifier.compareDer_eq]
  split
  · rfl
  · rw [Ordering.then_assoc, Ordering.then_assoc]

/-- Compares the length of the encodings, then by weight and octets as `compareValue` does. -/
def compareWeighed (k l : SubjectPublicKeyInfo) : Ordering :=
  (compare k.encode.length l.encode.length).then (k.compareElements weight l)

/-- The order of key infos by length and weight is transitive. -/
instance : Std.TransCmp compareWeighed :=
  inferInstanceAs (Std.TransCmp (compareLex (compareOn fun k : SubjectPublicKeyInfo =>
    k.encode.length) (compareElements weight)))

/-- It tells any two key infos apart. -/
instance : Std.LawfulEqCmp compareWeighed where
  eq_of_compare h := Std.LawfulEqCmp.eq_of_compare (Ordering.then_eq_eq.mp h).2

theorem compareDer_eq :
    k.compareDer l =
      if k.encode.length = l.encode.length ∧ k.algorithm.IsBareMatch l.algorithm then .lt
      else k.compareWeighed l := by
  unfold compareDer compareWeighed
  rw [compareValue_eq]
  by_cases hlength : k.encode.length = l.encode.length
  · rw [hlength, Std.ReflOrd.compare_self, Ordering.eq_then, Ordering.eq_then]
    exact if_congr (and_iff_right rfl).symm rfl rfl
  · -- encodings of different lengths are told apart before anything else is looked at
    have hmissed : ¬(k.encode.length = l.encode.length ∧
        k.algorithm.IsBareMatch l.algorithm) := fun h => hlength h.1
    have hne : compare k.encode.length l.encode.length ≠ .eq :=
      fun heq => hlength (Nat.compare_eq_eq.mp heq)
    rw [if_neg hmissed]
    exact then_eq_then_of_ne hne

theorem compareValue_eq_compare_content (hk : k.encode.length ≤ maxLength)
    (hl : l.encode.length ≤ maxLength) :
    k.compareValue l =
      if k.algorithm.IsBareMatch l.algorithm then .lt
      else if k.WeighsApart l then k.compareWeights l
      else compare k.content l.content := by
  rw [compareValue_eq, compareElements_weight,
    compare_content (Nat.le_trans length_le_encodeTyped hk) (Nat.le_trans length_le_encodeTyped hl)]

theorem compareDer_eq_compare_encode (hk : k.encode.length ≤ maxLength)
    (hl : l.encode.length ≤ maxLength) :
    k.compareDer l =
      if k.encode.length = l.encode.length ∧ k.algorithm.IsBareMatch l.algorithm then .lt
      else if k.WeighsApart l then k.compareWeights l
      else compare k.encode l.encode := by
  have hk : k.content.length ≤ maxLength := Nat.le_trans length_le_encodeTyped hk
  have hl : l.content.length ≤ maxLength := Nat.le_trans length_le_encodeTyped hl
  have hweighed : k.compareWeighed l =
      if k.WeighsApart l then k.compareWeights l else compare k.encode l.encode := by
    unfold compareWeighed
    rw [compareElements_weight, compare_encode hk hl, compare_content hk hl]
    split
    · next hapart =>
      -- keys that weigh apart are of one length, which their weights are compared after
      rw [length_encode_of_weighsApart hapart, Std.ReflOrd.compare_self, Ordering.eq_then]
    · rfl
  rw [compareDer_eq, hweighed]

/-- The comparison of values orders the key infos whose algorithms have parameters. -/
theorem ordersAmong_compareValue :
    OrdersAmong (fun k => k.algorithm.parameters ≠ none) compareValue := by
  refine ordersAmong_of_misses (fun _ _ => compareValue_eq) ?_ ?_
  · intro k l hbare hparameters
    exact hparameters hbare.2
  · intro k hparameters
    exact ⟨rfl, not_not.mp hparameters⟩

/-- So does the comparison of encodings. -/
theorem ordersAmong_compareDer :
    OrdersAmong (fun k => k.algorithm.parameters ≠ none) compareDer := by
  refine ordersAmong_of_misses (fun _ _ => compareDer_eq) ?_ ?_
  · intro k l hbare hparameters
    exact hparameters hbare.2.2
  · intro k hparameters
    exact ⟨rfl, rfl, not_not.mp hparameters⟩

/-! ### All orders -/

/-- **The orders on key infos are the orders of DER**, but for bare matches, of which the first is
less, and for keys that weigh apart, which go by their weights. The order by field is total, and the
other two are among what has parameters; nothing without parameters is equal to itself in them. -/
theorem orders_apart_from_der (a b : AlgorithmIdentifier) (k l : SubjectPublicKeyInfo) :
    (OrdersAmong (fun _ => True) AlgorithmIdentifier.compareFields ∧
      OrdersAmong (fun a => a.parameters ≠ none) AlgorithmIdentifier.compareValue ∧
      OrdersAmong (fun a => a.parameters ≠ none) AlgorithmIdentifier.compareDer) ∧
    (OrdersAmong (fun _ => True) compareFields ∧
      OrdersAmong (fun k => k.algorithm.parameters ≠ none) compareValue ∧
      OrdersAmong (fun k => k.algorithm.parameters ≠ none) compareDer) ∧
    (a.encode.length ≤ maxLength → b.encode.length ≤ maxLength →
      a.compareValue b = (if a.IsBareMatch b then .lt else compare a.content b.content) ∧
      a.compareDer b = (if a.IsBareMatch b then .lt else compare a.encode b.encode)) ∧
    (k.encode.length ≤ maxLength → l.encode.length ≤ maxLength →
      k.compareValue l =
        (if k.algorithm.IsBareMatch l.algorithm then .lt
        else if k.WeighsApart l then k.compareWeights l
        else compare k.content l.content) ∧
      k.compareDer l =
        (if k.encode.length = l.encode.length ∧ k.algorithm.IsBareMatch l.algorithm then .lt
        else if k.WeighsApart l then k.compareWeights l
        else compare k.encode l.encode)) := by
  refine ⟨⟨ordersAmong_of_lawful, AlgorithmIdentifier.ordersAmong_compareValue,
    AlgorithmIdentifier.ordersAmong_compareDer⟩, ⟨ordersAmong_of_lawful, ordersAmong_compareValue,
    ordersAmong_compareDer⟩, ?_, ?_⟩
  · intro ha hb
    exact ⟨AlgorithmIdentifier.compareValue_eq_compare_content ha hb,
      AlgorithmIdentifier.compareDer_eq_compare_encode ha hb⟩
  · intro hk hl
    exact ⟨compareValue_eq_compare_content hk hl, compareDer_eq_compare_encode hk hl⟩

/-- Under 1.2.3.4, what has no parameters and what has a NULL are compared as DER does. -/
theorem orders_apart_from_der_null_parameters :
    let a : AlgorithmIdentifier := ⟨⟨[0x2a, 0x03, 0x04]⟩, none⟩
    let b : AlgorithmIdentifier := ⟨⟨[0x2a, 0x03, 0x04]⟩, some ⟨⟨0x05, by decide⟩, []⟩⟩
    let k := ofOctets a [0x01]
    let l := ofOctets b [0x01]
    a.compareDer b = compare a.encode b.encode ∧ k.compareDer l = compare k.encode l.encode := by
  intro a b k l
  obtain ⟨-, -, halgorithms, hkeys⟩ := orders_apart_from_der a b k l
  constructor
  · have hder := (halgorithms (by decide +kernel) (by decide +kernel)).2
    rwa [if_neg (by decide)] at hder
  · have hder := (hkeys (by decide +kernel) (by decide +kernel)).2
    rwa [if_neg (by decide), if_neg (by decide)] at hder

/-- The identifier 1.2.3.4 without parameters is less than itself. Of two keys with parameters the
one with the smaller encoding is said to be greater, since the top bit of its second octet is set
and makes it heavier. -/
theorem less_than_itself_and_lighter_before_smaller :
    let a : AlgorithmIdentifier := ⟨⟨[0x2a, 0x03, 0x04]⟩, none⟩
    let b : AlgorithmIdentifier := ⟨⟨[0x2a, 0x03, 0x04]⟩, some ⟨⟨0x05, by decide⟩, []⟩⟩
    let k := ofOctets b [0x01, 0x80]
    let l := ofOctets b [0x02, 0x00]
    (a.encode.length ≤ maxLength ∧ a.compareValue a = .lt ∧ a.compareDer a = .lt ∧
      compare a.content a.content = .eq ∧ compare a.encode a.encode = .eq) ∧
    (k.IsEncodable ∧ l.IsEncodable ∧ k.compareValue l = .gt ∧ k.compareDer l = .gt ∧
      compare k.content l.content = .lt ∧ compare k.encode l.encode = .lt) := by
  decide +kernel

end SubjectPublicKeyInfo

end SignatureCatalog
