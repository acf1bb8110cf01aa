import Mathlib.Algebra.Group.Nat.Defs
import Mathlib.Data.List.Induction
import SignatureCatalog.Der.Length

/-!
# Every length has one form

Length octets can be written in many ways: a short length as one octet or in the long form, a long
one with any number of zero octets in front, and a length can be left open. `StatesLength` is the
relation between octets and the lengths they may be taken to state, all these ways included. DER
allows one of them, which is what `encodeLength` writes, and this module shows that nothing else can
be mistaken for it:

* `lengthOfOctets_eq_ok_iff` — the reader's check on the long form passes exactly the octets that
  are written;
* `StatesLength.canonical` — octets that state a length, at the start of an input that begins with
  a length as it is written, *are* that length as it is written.

Both rest on big-endian numbers with as many octets being equal only if the octets are
(`Bytes.eq_of_ofBigEndian_eq`).
-/

namespace SignatureCatalog

namespace Bytes

/-! ### Big-endian numbers -/

/-- Octets are determined by their number and the number they stand for. -/
theorem eq_of_ofBigEndian_eq {a b : Bytes} (hlength : a.length = b.length)
    (h : ofBigEndian a = ofBigEndian b) : a = b := by
  -- from the last octet, which is where a big-endian number ends
  induction a using List.reverseRecOn generalizing b with
  | nil => exact (List.length_eq_zero_iff.mp hlength.symm).symm
  | append_singleton a last ih =>
    rcases List.eq_nil_or_concat b with rfl | ⟨b, last', rfl⟩
    · simp at hlength
    · rw [List.concat_eq_append] at hlength h ⊢
      rw [ofBigEndian_append_singleton, ofBigEndian_append_singleton] at h
      rw [List.length_append, List.length_append, List.length_singleton,
        List.length_singleton] at hlength
      -- the last octet is the remainder by 256, the octets before it are the quotient
      have hlast := last.toNat_lt
      have hlast' := last'.toNat_lt
      have hinit : a = b := ih (by omega) (by omega)
      have : last = last' := UInt8.toNat_inj.mp (by omega)
      rw [hinit, this]

theorem ofBigEndian_lt (b : Bytes) : ofBigEndian b < 256 ^ b.length := by
  induction b using List.reverseRecOn with
  | nil => exact Nat.one_pos
  | append_singleton b x ih =>
    have hx := x.toNat_lt
    rw [ofBigEndian_append_singleton, List.length_append, List.length_singleton, Nat.pow_succ]
    omega

theorem bigEndian_of_ne_zero {n : Nat} (h : n ≠ 0) :
    bigEndian n = bigEndian (n / 256) ++ [UInt8.ofNat n] := by
  rw [bigEndian, if_neg h]

theorem bigEndian_ne_nil {n : Nat} (h : n ≠ 0) : bigEndian n ≠ [] := by
  rw [bigEndian_of_ne_zero h]
  exact List.concat_ne_nil _ _

/-- So many octets are enough for the numbers below so large a power. -/
theorem length_bigEndian_le {n k : Nat} (h : n < 256 ^ k) : (bigEndian n).length ≤ k := by
  induction k generalizing n with
  | zero =>
    have : n = 0 := by simpa using h
    rw [this, bigEndian_zero]
    exact Nat.le_refl 0
  | succ k ih =>
    by_cases hn : n = 0
    · rw [hn, bigEndian_zero]
      exact Nat.zero_le _
    · -- the quotient needs one octet less
      have hdiv : n / 256 < 256 ^ k :=
        Nat.div_lt_of_lt_mul (by rw [Nat.mul_comm, ← Nat.pow_succ]; exact h)
      have := ih hdiv
      rw [bigEndian_of_ne_zero hn, List.length_append, List.length_singleton]
      omega

end Bytes

namespace Der

/-! ### Lengths as they are written -/

/-- No length within the limit takes more than four octets behind the first. -/
theorem length_bigEndian_le_four {n : Nat} (h : n ≤ maxLength) :
    (Bytes.bigEndian n).length ≤ 4 :=
  Bytes.length_bigEndian_le (by rw [maxLength] at h; omega)

theorem encodeLength_of_le {n : Nat} (h : 0x80 ≤ n) :
    encodeLength n = UInt8.ofNat (0x80 + (Bytes.bigEndian n).length) :: Bytes.bigEndian n := by
  rw [encodeLength, if_neg (by omega)]

/-- The first octet of a length in the long form, which tells how many others there are. -/
theorem toNat_ofNat_length_bigEndian {n : Nat} (h : n ≤ maxLength) :
    (UInt8.ofNat (0x80 + (Bytes.bigEndian n).length)).toNat =
      0x80 + (Bytes.bigEndian n).length := by
  have := length_bigEndian_le_four h
  rw [UInt8.toNat_ofNat']
  omega

/-- **The reader's check on the long form.** What passes is what the writer writes. -/
theorem lengthOfOctets_eq_ok_iff {t : Tag} {octets : Bytes} {n : Nat} (ne : octets ≠ []) :
    lengthOfOctets t octets = .ok n ↔
      n ≤ maxLength ∧ 0x80 ≤ n ∧ octets = Bytes.bigEndian n := by
  have hpos : octets.length ≠ 0 := mt List.length_eq_zero_iff.mp ne
  constructor
  · intro h
    refine ⟨le_maxLength_of_lengthOfOctets h, ?_⟩
    -- two checks: within the limit, and as many octets as the writer would use
    unfold lengthOfOctets at h
    split at h
    · cases h
    · split at h
      · next hlength =>
        cases h
        -- with one octet or more there is no room for the short form
        have hle : 0x80 ≤ Bytes.ofBigEndian octets := by
          by_contra hlt
          rw [encodeLength_of_lt (by omega), List.length_singleton] at hlength
          omega
        -- the same number in as many octets is the same octets
        refine ⟨hle, Bytes.eq_of_ofBigEndian_eq ?_ (Bytes.ofBigEndian_bigEndian _).symm⟩
        rw [encodeLength_of_le hle, List.length_cons] at hlength
        omega
      · cases h
  · rintro ⟨hmax, hle, rfl⟩
    rw [lengthOfOctets, Bytes.ofBigEndian_bigEndian, if_neg (by omega), encodeLength_of_le hle,
      List.length_cons, if_pos rfl]

/-! ### Lengths as they could be stated -/

/-- Octets state a length: in the short form, in the long form with whatever octets the writer
chose, or not at all, in which case any length may be meant. -/
inductive StatesLength : Bytes → Nat → Prop where
  | short {n : Nat} (h : n < 0x80) : StatesLength [UInt8.ofNat n] n
  | long {octets : Bytes} (ne : octets ≠ []) (few : octets.length < 0x80) :
      StatesLength (UInt8.ofNat (0x80 + octets.length) :: octets) (Bytes.ofBigEndian octets)
  | indefinite (n : Nat) : StatesLength [0x80] n

/-- A length as it is written states itself. -/
theorem statesLength_encodeLength {n : Nat} (h : n ≤ maxLength) :
    StatesLength (encodeLength n) n := by
  by_cases hn : n < 0x80
  · rw [encodeLength_of_lt hn]
    exact .short hn
  · have few := length_bigEndian_le_four h
    have stated := StatesLength.long (Bytes.bigEndian_ne_nil (show n ≠ 0 by omega)) (by omega)
    rwa [Bytes.ofBigEndian_bigEndian, ← encodeLength_of_le (by omega)] at stated

/-- **A length as it is written is stated in no other way.** Where an input begins with one, length
octets at its start are all of it and no more. -/
theorem StatesLength.canonical {l r s : Bytes} {m n : Nat} (stated : StatesLength l n)
    (hm : m ≤ maxLength) (h : l ++ s = encodeLength m ++ r) :
    l = encodeLength m ∧ n = m ∧ s = r := by
  by_cases hshort : m < 0x80
  · -- the writer used one octet, with a clear high bit
    rw [encodeLength_of_lt hshort] at h ⊢
    cases stated with
    | short hn =>
      -- both short: each octet is its length
      obtain ⟨hfirst, rfl⟩ := List.cons.inj h
      have hval := congrArg UInt8.toNat hfirst
      rw [UInt8.toNat_ofNat', UInt8.toNat_ofNat'] at hval
      have : n = m := by omega
      exact ⟨by rw [this], this, rfl⟩
    | @long octets ne few =>
      have hval := congrArg UInt8.toNat (List.cons.inj h).1
      rw [UInt8.toNat_ofNat', UInt8.toNat_ofNat'] at hval
      omega
    | indefinite =>
      -- `0x80` has the high bit set
      have hval := congrArg UInt8.toNat (List.cons.inj h).1
      rw [UInt8.toNat_ofNat'] at hval
      simp only [UInt8.reduceToNat] at hval
      omega
  · -- the writer used the long form, whose first octet is greater than `0x80`
    have hpos : (Bytes.bigEndian m).length ≠ 0 :=
      mt List.length_eq_zero_iff.mp (Bytes.bigEndian_ne_nil (by omega))
    rw [encodeLength_of_le (by omega), List.cons_append] at h
    rw [encodeLength_of_le (by omega)]
    have hfirst := toNat_ofNat_length_bigEndian hm
    cases stated with
    | short hn =>
      -- a short length has the high bit clear
      have hval := congrArg UInt8.toNat (List.cons.inj h).1
      rw [hfirst, UInt8.toNat_ofNat'] at hval
      omega
    | @long octets ne few =>
      have hval := congrArg UInt8.toNat (List.cons.inj h).1
      rw [hfirst, UInt8.toNat_ofNat'] at hval
      -- as many octets follow on both sides, so they are the same and so are their numbers
      obtain ⟨rfl, rfl⟩ := List.append_inj (List.cons.inj h).2 (by omega)
      exact ⟨rfl, Bytes.ofBigEndian_bigEndian m, rfl⟩
    | indefinite =>
      -- an open length would leave no octets for `m`, which has some
      have hval := congrArg UInt8.toNat (List.cons.inj h).1
      rw [hfirst] at hval
      simp only [UInt8.reduceToNat] at hval
      omega

end Der

end SignatureCatalog
