import SignatureCatalog.Der.BitString
import SignatureCatalog.Der.ObjectIdentifier
import SignatureCatalog.Proofs.Der.Exact

/-!
# Elements

The elements that key infos are made of, and how they stand one behind the other.

Values of any type, object identifiers and bit strings are read exactly (`Value.exact_decoder`,
`ObjectIdentifier.exact_decoder`, `BitString.exact_decoder`), and so is a value that may be left out
at the end of a window (`Value.exactAtEnd_optionalDecoder`).

Elements can be split off the front of an input in one way only, even where their writer chose the
length octets: `Framed` is a content with length octets of any form, open ones included, and
`Framed.IsStated.canonical` says that the element it makes up is not mistaken for a DER element
unless it is one. It follows that a row of elements is known by its octets
(`Value.eq_of_flatMap_encode_eq`).
-/

namespace SignatureCatalog.Der

/-! ### Splitting elements off -/

/-- What a writer puts around a content: length octets in front of it, which need not be the ones
DER asks for, and behind it the octets that end a content whose length was left open. -/
structure Framing where
  lengthOctets : Bytes
  ending : Bytes

/-- A content with what was put around it. -/
structure Framed extends Framing where
  content : Bytes

namespace Framed

/-- The element that a framed content makes up with a tag. -/
def octets (tag : Tag) (f : Framed) : Bytes :=
  tag.octet :: (f.lengthOctets ++ (f.content ++ f.ending))

/-- The length octets state the length of the content in whatever form, and two zero octets end the
content where they leave the length open. -/
def IsStated (f : Framed) : Prop :=
  StatesLength f.lengthOctets f.content.length ∧
    (f.ending = [] ∨ f.lengthOctets = [0x80] ∧ f.ending = [0x00, 0x00])

/-- The content stands as DER asks for. -/
def IsMinimal (f : Framed) : Prop :=
  f.lengthOctets = encodeLength f.content.length ∧ f.ending = []

end Framed

variable {t t' : Tag} {x y r s : Bytes}

theorem length_encodeTyped (t : Tag) (x : Bytes) :
    (encodeTyped t x).length = (encodeLength x.length).length + x.length + 1 := by
  rw [encodeTyped, List.length_cons, List.length_append]

/-- The tag and the length take an octet each at least. -/
theorem length_add_two_le_encodeTyped : x.length + 2 ≤ (encodeTyped t x).length := by
  have := List.length_pos_iff.mpr (encodeLength_ne_nil x.length)
  rw [length_encodeTyped]
  omega

theorem length_le_encodeTyped : x.length ≤ (encodeTyped t x).length := by
  rw [length_encodeTyped]
  omega

/-- A short content takes exactly these two octets more. -/
theorem length_encodeTyped_of_lt (hx : x.length < 0x80) :
    (encodeTyped t x).length = x.length + 2 := by
  rw [length_encodeTyped, encodeLength_of_lt hx, List.length_singleton]
  omega

/-- **An element as it is written is written in no other way.** -/
theorem Framed.IsStated.canonical {f : Framed} (stated : f.IsStated) (hx : x.length ≤ maxLength)
    (h : f.octets t' ++ s = encodeTyped t x ++ r) :
    t' = t ∧ f.IsMinimal ∧ f.content = x ∧ s = r := by
  obtain ⟨hstated, hending⟩ := stated
  rw [Framed.octets, encodeTyped, List.cons_append, List.cons_append, List.append_assoc,
    List.append_assoc, List.append_assoc] at h
  -- from front to back: the tag, the length octets, what ends the content, the content
  obtain ⟨htag, h⟩ := List.cons.inj h
  obtain ⟨hl, hlength, hrest⟩ := hstated.canonical hx h
  have hempty : f.ending = [] := by
    rcases hending with hempty | ⟨hopen, -⟩
    · exact hempty
    · -- octets that leave the length open would state every length
      rw [hopen] at h
      have := ((StatesLength.indefinite (x.length + 1)).canonical hx h).2.1
      omega
  rw [hempty, List.nil_append] at hrest
  obtain ⟨hcontent, hs⟩ := List.append_inj hrest hlength
  refine ⟨Tag.ext htag, ⟨?_, hempty⟩, hcontent, hs⟩
  rw [hl, hcontent]

theorem encodeTyped_append_inj (hx : x.length ≤ maxLength) (hy : y.length ≤ maxLength)
    (h : encodeTyped t x ++ r = encodeTyped t' y ++ s) : t = t' ∧ x = y ∧ r = s := by
  -- an element as it is written is one way of framing its content
  have stated : Framed.IsStated ⟨⟨encodeLength x.length, []⟩, x⟩ :=
    ⟨statesLength_encodeLength hx, .inl rfl⟩
  have hoctets : Framed.octets t ⟨⟨encodeLength x.length, []⟩, x⟩ = encodeTyped t x := by
    rw [Framed.octets, encodeTyped, List.append_nil]
  rw [← hoctets] at h
  obtain ⟨htag, -, hcontent, hrest⟩ := stated.canonical hy h
  exact ⟨htag, hcontent, hrest⟩

theorem encodeTyped_inj (hx : x.length ≤ maxLength) (hy : y.length ≤ maxLength)
    (h : encodeTyped t x = encodeTyped t' y) : t = t' ∧ x = y := by
  obtain ⟨htag, hcontent, -⟩ := encodeTyped_append_inj (r := []) (s := []) hx hy (by rw [h])
  exact ⟨htag, hcontent⟩

/-- A row is no shorter than what one of its members adds to it. -/
theorem length_le_flatMap_of_mem {α : Type} {f : α → Bytes} {row : List α} {a : α} (h : a ∈ row) :
    (f a).length ≤ (row.flatMap f).length := by
  have hsub : (f a).Sublist (row.flatMap f) := by
    rw [List.flatMap_def]
    exact List.sublist_flatten_of_mem (List.mem_map_of_mem h)
  exact hsub.length_le

namespace Value

theorem eq_iff {v v' : Value} : v = v' ↔ v.tag = v'.tag ∧ v.content = v'.content := by
  cases v
  cases v'
  rw [Value.mk.injEq]

/-- A row of elements is no shorter than the content of any of them. -/
theorem length_content_le_of_mem {values : List Value} {v : Value} (hv : v ∈ values) :
    v.content.length ≤ (values.flatMap encode).length :=
  calc v.content.length
      ≤ v.encode.length := length_le_encodeTyped
    _ ≤ (values.flatMap encode).length := length_le_flatMap_of_mem hv

/-- **A row of elements is known by its octets.** -/
theorem eq_of_flatMap_encode_eq {values values' : List Value}
    (hmax : (values.flatMap encode).length ≤ maxLength)
    (h : values.flatMap encode = values'.flatMap encode) : values = values' := by
  -- one element after the other, each split off in the one way there is
  induction values generalizing values' with
  | nil =>
    cases values' with
    | nil => rfl
    | cons v' values' => cases h
  | cons v values ih =>
    cases values' with
    | nil => cases h
    | cons v' values' =>
      have hv := length_content_le_of_mem (List.mem_cons_self (a := v) (l := values))
      have hv' := length_content_le_of_mem (List.mem_cons_self (a := v') (l := values'))
      rw [← h] at hv'
      -- the first elements are the same, and so the rows behind them have the same octets
      rw [List.flatMap_cons, List.flatMap_cons] at h
      obtain ⟨htag, hcontent, hrest⟩ :=
        encodeTyped_append_inj (Nat.le_trans hv hmax) (Nat.le_trans hv' hmax) h
      rw [List.flatMap_cons, List.length_append] at hmax
      rw [eq_iff.mpr ⟨htag, hcontent⟩, ih (by omega) hrest]

/-! ### Reading elements -/

/-- Any value within the limit is read exactly. -/
theorem exact_decoder :
    Decoder.Exact decoder (fun v => v.content.length ≤ maxLength) encode := by
  -- of a value, the header shows the tag and the length of the content
  have hcontent (p : Tag × Nat) :
      Decoder.Exact (do let content ← Decoder.take p.2; pure ⟨p.1, content⟩ : Decoder Value)
        (fun v => (v.tag, v.content.length) = p ∧ True) content := by
    refine ((Decoder.exact_take p.2).map (Value.mk p.1) Value.content (fun v => v.tag = p.1)
      fun octets v => ?_).congr (fun v => ?_) fun _ _ => rfl
    · rw [Value.eq_iff, and_comm, eq_comm, eq_comm (a := p.1)]
    · rw [and_true, Prod.ext_iff, and_comm]
  refine (Decoder.exact_header.bind (fun v : Value => (v.tag, v.content.length)) hcontent).congr
    (fun v => (and_true _).symm ▸ Iff.rfl) fun v _ => ?_
  rw [List.cons_append]
  rfl

/-- A value on its own is written and read within the limit. -/
theorem bijection : Decoder.Bijection (fun v => v.encode.length ≤ maxLength) encode ofDer := by
  refine Decoder.ExactAtEnd.bijection exact_decoder.before fun v => ?_
  exact (and_iff_right_of_imp (Nat.le_trans length_le_encodeTyped)).symm

/-- A value that may be left out is read exactly where the window ends behind it: the window
being at its end, or not, tells whether there is a value. -/
theorem exactAtEnd_optionalDecoder :
    Decoder.ExactAtEnd optionalDecoder
      (fun v? => ∀ v, v? = some v → v.content.length ≤ maxLength) (·.elim [] encode) := by
  intro c v? c' hend
  rw [optionalDecoder, Decoder.bind_eq_ok_iff]
  constructor
  · rintro ⟨next, c₁, hpeek, h⟩
    cases hpeek
    cases hrest : c.rest.head? with
    | none =>
      -- nothing is left, so nothing is read
      rw [hrest] at h
      obtain ⟨rfl, rfl⟩ := Decoder.pure_eq_ok_iff.mp h
      exact ⟨nofun, Cursor.passes_nil_iff.mpr rfl⟩
    | some octet =>
      rw [hrest] at h
      -- the check on the tag reads nothing, so that the value is read from where it was made
      obtain ⟨tag, c₁, hcheck, hread⟩ := Decoder.bind_eq_ok_iff.mp h
      obtain ⟨-, rfl⟩ := Decoder.ofExcept_eq_ok_iff.mp hcheck
      obtain ⟨v, c₂, hvalue, hpure⟩ := Decoder.bind_eq_ok_iff.mp hread
      obtain ⟨rfl, rfl⟩ := Decoder.pure_eq_ok_iff.mp hpure
      obtain ⟨hmax, hpasses⟩ := (exact_decoder c₁ v c' trivial).mp hvalue
      refine ⟨fun v' hv' => ?_, hpasses⟩
      rwa [← Option.some.inj hv']
  · rintro ⟨hmax, hpasses⟩
    cases v? with
    | none =>
      -- a value left out is told by the end of the window
      obtain rfl := Cursor.passes_nil_iff.mp hpasses
      refine ⟨none, c', ?_, Decoder.pure_eq_ok_iff.mpr ⟨rfl, rfl⟩⟩
      rw [Decoder.peek, hend, List.head?_nil]
    | some v =>
      -- the octet that is looked at is the first of the encoding, so the check on it passes
      have hhead : c.rest.head? = some v.tag.octet := by rw [hpasses.rest_eq]; rfl
      refine ⟨some v.tag.octet, c, by rw [Decoder.peek, hhead], ?_⟩
      have hvalue := (exact_decoder c v c' trivial).mpr ⟨hmax v rfl, hpasses⟩
      refine Decoder.bind_eq_ok_iff.mpr ⟨v.tag, c, ?_, Decoder.bind_eq_ok_iff.mpr
        ⟨v, c', hvalue, Decoder.pure_eq_ok_iff.mpr ⟨rfl, rfl⟩⟩⟩
      exact Decoder.ofExcept_eq_ok_iff.mpr ⟨Tag.ofOctet_octet v.tag, rfl⟩

end Value

namespace ObjectIdentifier

theorem ofContent_eq_ok_iff {octets : Bytes} {o : Oid} :
    ofContent octets = .ok o ↔ o.IsDecodable ∧ o.content = octets := by
  rw [and_comm, ← Oid.ofContent?_eq_some_iff, ofContent]
  cases Oid.ofContent? octets with
  | none => exact ⟨nofun, nofun⟩
  | some o' => rw [Except.ok.injEq, Option.some.injEq]

/-- Object identifiers are read exactly, those that are decodable. -/
theorem exact_decoder : Decoder.Exact decoder Oid.IsDecodable encode := by
  have hcontent (n : Nat) : Decoder.Exact (contentDecoder n)
      (fun o => o.IsDecodable ∧ o.content.length = n) Oid.content := by
    rw [contentDecoder]
    split
    · next hn =>
      -- no decodable identifier is as long as that
      refine (Decoder.exact_fail _ _).congr (fun o => ?_) fun _ _ => rfl
      rw [iff_false]
      rintro ⟨⟨-, hmax, -⟩, rfl⟩
      omega
    · refine ((Decoder.exact_take n).check ofContent Oid.content Oid.IsDecodable
        fun octets o => ?_).congr (fun o => and_comm) fun _ _ => rfl
      rw [ofContent_eq_ok_iff, and_comm]
  refine (Decoder.Exact.typed .objectIdentifier hcontent).congr (fun o => ?_) fun _ _ => rfl
  refine ⟨fun ho => ⟨ho, ?_⟩, And.left⟩
  -- the limit on identifiers is far below the limit on lengths
  have hmax : o.content.length ≤ Oid.maxLength := ho.2.1
  rw [Oid.maxLength] at hmax
  rw [maxLength]
  omega

end ObjectIdentifier

namespace BitString

theorem make_eq_ok_iff {unused : UInt8} {octets : Bytes} {b : BitString} :
    make unused octets = .ok b ↔ UInt8.ofNat b.unused.val = unused ∧ b.octets = octets := by
  unfold make
  constructor
  · intro h
    split at h
    · cases h
      exact ⟨UInt8.ofNat_toNat, rfl⟩
    · cases h
  · rintro ⟨rfl, rfl⟩
    have hval : (UInt8.ofNat b.unused.val).toNat = b.unused.val := by
      -- fewer than eight bits are unused, which an octet holds
      rw [UInt8.toNat_ofNat']
      omega
    rw [dif_pos]
    · exact congrArg Except.ok (ext (Fin.ext hval) rfl)
    · rw [hval]
      exact ⟨b.unused.isLt, fun hempty => by rw [b.unused_eq_zero hempty]; rfl⟩

/-- Bit strings are read exactly, all within the limit. -/
theorem exact_decoder :
    Decoder.Exact decoder (fun b => b.content.length ≤ maxLength) encode := by
  have hcontent (n : Nat) : Decoder.Exact (contentDecoder n)
      (fun b => True ∧ b.content.length = n) content := by
    rw [contentDecoder]
    split
    · next hn =>
      -- the octet that counts the unused bits is always there
      refine (Decoder.exact_fail _ _).congr (fun b => ?_) fun _ _ => rfl
      rw [iff_false]
      rintro ⟨-, hlength⟩
      rw [hn] at hlength
      cases hlength
    · next hn =>
      -- the count goes into the bit string too, where it is found again
      have hoctets (unused : UInt8) :
          Decoder.Exact (do let octets ← Decoder.take (n - 1)
                            Decoder.ofExcept (make unused octets))
            (fun b => UInt8.ofNat b.unused.val = unused ∧ b.octets.length = n - 1) octets := by
        refine ((Decoder.exact_take (n - 1)).check (make unused) BitString.octets
          (fun b => UInt8.ofNat b.unused.val = unused) fun octets b => ?_).congr
            (fun b => and_comm) fun _ _ => rfl
        rw [make_eq_ok_iff, and_comm]
      refine (Decoder.exact_octet.bind (fun b : BitString => UInt8.ofNat b.unused.val)
        hoctets).congr (fun b => ?_) fun _ _ => rfl
      rw [content, List.length_cons, true_and, true_and]
      omega
  exact (Decoder.Exact.typed .bitString hcontent).congr (fun b => (true_and _).symm ▸ Iff.rfl)
    fun _ _ => rfl

end BitString

end SignatureCatalog.Der
