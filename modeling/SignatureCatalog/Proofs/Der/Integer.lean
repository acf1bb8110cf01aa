import SignatureCatalog.Der.Integer
import SignatureCatalog.Proofs.Der.Exact

/-!
# Integers are read exactly

The content of an INTEGER is the number in big-endian octets, the fewest, with a zero in front where
the first of them would look like a sign. A reader that checks for this form, and for the sign, is
left with the octets that a writer writes and nothing else (`ofContent_eq_ok_iff`), so integers are
read exactly (`exact_decoder`), every unsigned 64-bit number among them.

What the check comes to is that the octets behind a zero in front begin with another octet, and
octets that do are the fewest for their number (`Bytes.bigEndian_ofBigEndian`).
-/

namespace SignatureCatalog

namespace Bytes

theorem ofBigEndian_zero_cons (b : Bytes) : ofBigEndian (0 :: b) = ofBigEndian b := by
  rw [ofBigEndian, List.foldl_cons]
  rfl

/-- The first octet counts for as much as the others can make up for. -/
theorem pow_le_ofBigEndian_cons {x : UInt8} (hx : x ≠ 0) (b : Bytes) :
    256 ^ b.length ≤ ofBigEndian (x :: b) := by
  -- from the back: one octet more is one factor of 256 more on both sides
  induction b using List.reverseRecOn with
  | nil =>
    have hpos : x.toNat ≠ 0 := fun hzero => hx (UInt8.toNat_inj.mp hzero)
    show 1 ≤ 0 * 256 + x.toNat
    omega
  | append_singleton b y ih =>
    rw [← List.cons_append, ofBigEndian_append_singleton, List.length_append,
      List.length_singleton, Nat.pow_succ]
    omega

/-- **Octets that do not begin with zero are the fewest for their number.** -/
theorem bigEndian_ofBigEndian {x : UInt8} (hx : x ≠ 0) (b : Bytes) :
    bigEndian (ofBigEndian (x :: b)) = x :: b := by
  have hle := length_bigEndian_le (ofBigEndian_lt (x :: b))
  -- with fewer octets the number would be below the power that the first octet stands for
  have hge := ofBigEndian_lt (bigEndian (ofBigEndian (x :: b)))
  rw [ofBigEndian_bigEndian] at hge
  have hpow := Nat.lt_of_le_of_lt (pow_le_ofBigEndian_cons hx b) hge
  have hlength := (Nat.pow_lt_pow_iff_right (show 1 < 256 by decide)).mp hpow
  refine eq_of_ofBigEndian_eq ?_ (ofBigEndian_bigEndian _)
  rw [List.length_cons] at hle ⊢
  omega

theorem ne_zero_of_bigEndian_eq {n : Nat} {x : UInt8} {b : Bytes} (h : bigEndian n = x :: b) :
    x ≠ 0 := by
  rintro rfl
  -- without the zero they would be fewer
  have hn : n = ofBigEndian b := by rw [← ofBigEndian_zero_cons, ← h, ofBigEndian_bigEndian]
  have hlength := length_bigEndian_le (ofBigEndian_lt b)
  rw [← hn, h, List.length_cons] at hlength
  omega

end Bytes

namespace Der.Integer

/-! ### Content octets -/

theorem length_bigEndian_le_eight (n : UInt64) : (Bytes.bigEndian n.toNat).length ≤ 8 :=
  Bytes.length_bigEndian_le n.toNat_lt

theorem length_content_le_nine (n : UInt64) : (content n).length ≤ 9 := by
  -- eight octets for the number, and a zero in front of them at most
  have h := length_bigEndian_le_eight n
  unfold content
  split
  · decide
  · next first rest heq =>
    rw [heq, List.length_cons] at h
    split <;> simp only [List.length_cons] <;> omega

/-- The content of a number other than zero, from any octets for it that do not begin with zero. -/
theorem content_eq {n : UInt64} {x : UInt8} {b : Bytes} (hx : x ≠ 0)
    (hn : n.toNat = Bytes.ofBigEndian (x :: b)) :
    content n = if x.toNat < 0x80 then x :: b else 0 :: x :: b := by
  rw [content, hn, Bytes.bigEndian_ofBigEndian hx]

/-- Eight octets are 64 bits, so nothing is lost on the way. -/
theorem toNat_ofNat_ofBigEndian {octets : Bytes} (h : octets.length ≤ 8) :
    (UInt64.ofNat (Bytes.ofBigEndian octets)).toNat = Bytes.ofBigEndian octets := by
  have hlt := Bytes.ofBigEndian_lt octets
  have hpow : 256 ^ octets.length ≤ 256 ^ 8 := Nat.pow_le_pow_right (by decide) h
  rw [UInt64.toNat_ofNat']
  omega

/-- What passes the reader's check is the content of the number that is read. -/
theorem content_of_ofContent {octets : Bytes} {n : UInt64} (hlength : octets.length ≤ 9)
    (h : ofContent octets = .ok n) : content n = octets := by
  unfold ofContent at h
  split at h
  · cases h
  -- one octet, which is only refused for its sign
  · next first =>
    split at h
    · cases h
    · next hsign =>
      obtain rfl : first.toUInt64 = n := Except.ok.inj h
      -- zero is the one number that is written in an octet of zero
      by_cases hzero : first = 0
      · subst hzero
        decide +kernel
      · have hn : first.toUInt64.toNat = Bytes.ofBigEndian [first] := by
          rw [UInt8.toNat_toUInt64, Bytes.ofBigEndian, List.foldl_cons, List.foldl_nil]
          omega
        rw [content_eq hzero hn, if_pos (by omega)]
  · next first second rest =>
    split at h
    · cases h
    -- more octets, with the checks for the fewest octets, for the sign and for 64 bits
    · next hminimal =>
      split at h
      · cases h
      · next hsign =>
        split at h
        · cases h
        · next hnine =>
          obtain rfl := Except.ok.inj h
          by_cases hzero : first = 0
          · -- the zero is there for the octet behind it
            subst hzero
            have hsecond : 0x80 ≤ second.toNat := by
              by_contra hlt
              exact hminimal ⟨rfl, by omega⟩
            have hne : second ≠ 0 := by
              rintro rfl
              exact absurd hsecond (by decide)
            rw [List.length_cons] at hlength
            rw [Bytes.ofBigEndian_zero_cons,
              content_eq hne (toNat_ofNat_ofBigEndian (Nat.le_of_succ_le_succ hlength)),
              if_neg (by omega)]
          · -- without it eight octets are the most that pass
            have height : (first :: second :: rest).length ≤ 8 := by
              by_contra hlt
              exact hnine ⟨by omega, hzero⟩
            rw [content_eq hzero (toNat_ofNat_ofBigEndian height), if_pos (by omega)]

/-- What a writer writes passes the reader's check. -/
theorem ofContent_content (n : UInt64) : ofContent (content n) = .ok n := by
  have hvalue := Bytes.ofBigEndian_bigEndian n.toNat
  have height := length_bigEndian_le_eight n
  unfold content
  cases hoctets : Bytes.bigEndian n.toNat with
  | nil =>
    rw [hoctets] at hvalue
    obtain rfl : n = 0 := UInt64.toNat_inj.mp hvalue.symm
    rfl
  | cons first rest =>
    have hfirst := Bytes.ne_zero_of_bigEndian_eq hoctets
    rw [hoctets] at hvalue height
    dsimp only
    split
    · -- no zero in front: the octets are those of the number
      next hsign =>
      cases rest with
      | nil =>
        rw [ofContent, if_neg (by omega), Except.ok.injEq, ← UInt64.toNat_inj, ← hvalue,
          UInt8.toNat_toUInt64, Bytes.ofBigEndian, List.foldl_cons, List.foldl_nil]
        omega
      | cons second rest =>
        rw [ofContent, if_neg fun h => hfirst h.1, if_neg (by omega), if_neg (by omega), hvalue,
          UInt64.ofNat_toNat]
    · next hsign =>
      -- a zero in front, which the check takes off again as the octet behind it needs it
      rw [ofContent, if_neg fun h => hsign h.2, if_neg (by decide), if_neg fun h => h.2 rfl,
        Bytes.ofBigEndian_zero_cons, hvalue, UInt64.ofNat_toNat]

/-- **The reader's check passes what the writer writes**, and nothing else of up to nine octets. -/
theorem ofContent_eq_ok_iff {octets : Bytes} (hlength : octets.length ≤ 9) {n : UInt64} :
    ofContent octets = .ok n ↔ content n = octets := by
  refine ⟨content_of_ofContent hlength, ?_⟩
  rintro rfl
  exact ofContent_content n

/-! ### Reading -/

/-- Integers are read exactly, all of them. -/
theorem exact_decoder : Decoder.Exact decoder (fun _ => True) encode := by
  have hcontent (n : Nat) : Decoder.Exact (contentDecoder n)
      (fun i => True ∧ (content i).length = n) content := by
    rw [contentDecoder]
    split
    · next hn =>
      -- no number takes as many octets as that
      refine (Decoder.exact_fail _ _).congr (fun i => ?_) fun _ _ => rfl
      rw [iff_false]
      rintro ⟨-, rfl⟩
      exact absurd (length_content_le_nine i) (by omega)
    · next hn =>
      intro c i c' _
      rw [Decoder.bind_eq_ok_iff]
      constructor
      · rintro ⟨octets, c₁, htake, hcheck⟩
        obtain ⟨hlength, hpasses⟩ := (Decoder.exact_take n c octets c₁ trivial).mp htake
        obtain ⟨hvalue, rfl⟩ := Decoder.ofExcept_eq_ok_iff.mp hcheck
        obtain rfl := (ofContent_eq_ok_iff (by omega)).mp hvalue
        exact ⟨⟨trivial, hlength⟩, hpasses⟩
      · rintro ⟨⟨-, hlength⟩, hpasses⟩
        exact ⟨content i, c', (Decoder.exact_take n c _ c' trivial).mpr ⟨hlength, hpasses⟩,
          Decoder.ofExcept_eq_ok_iff.mpr ⟨ofContent_content i, rfl⟩⟩
  refine (Decoder.Exact.typed .integer hcontent).congr (fun i => ?_) fun _ _ => rfl
  refine ⟨fun _ => ⟨trivial, ?_⟩, fun _ => trivial⟩
  have hnine := length_content_le_nine i
  rw [maxLength]
  omega

end Der.Integer

end SignatureCatalog
