import SignatureCatalog.KeyInfo.PrivateKey
import SignatureCatalog.Proofs.Der.Integer
import SignatureCatalog.Proofs.KeyInfo.AlgorithmCodec
import SignatureCatalog.Proofs.KeyInfo.AttributeCodec

/-!
# The private key codec repairs the order of sets

A private key info is *encodable* if all its object identifiers are ones that decoders accept and
its encoding is within the length limit. It is *valid* if, besides, its attributes ascend in the
order that DER asks for, and so do the values of each. Writing and reading are inverse to each other
on valid key infos, but not on all inputs that are accepted: `ofDer_eq_ok_iff` says that what is
read is valid, and that the input is the encoding of some reordering of it (`Reorders`).

Within the limit an encoding is the encoding of one key info only (`eq_of_encode_eq`), so it makes
sense to ask for the order in which the sets of an input are listed. `codec_reorders` is what
follows: which inputs are written back as they are, which are read as the same key info, and which
are refused.
-/

namespace SignatureCatalog

open Der

/-- The class, the number and the form are all there is to a tag. -/
theorem Der.Tag.eq_contextZero {t : Tag} (hclass : t.classNumber = 2) (hnumber : t.number = 0)
    (hform : t.isConstructed) : t = .contextZero := by
  have hform : t.octet.toNat / 32 % 2 = 1 := of_decide_eq_true hform
  rw [Tag.classNumber] at hclass
  rw [Tag.number] at hnumber
  refine Tag.ext (UInt8.toNat_inj.mp ?_)
  show t.octet.toNat = 160
  omega

namespace PrivateKeyInfo

variable {k l : PrivateKeyInfo} {input : Bytes}

/-! ### Encodings -/

/-- The elements of the SEQUENCE: version, algorithm, key, and attributes if there are any. -/
def elements (k : PrivateKeyInfo) : List Value :=
  [⟨.integer, Integer.content k.version⟩, ⟨.sequence, k.algorithm.content⟩,
    ⟨.octetString, k.privateKey⟩] ++ (k.attributes.map fun a => ⟨.contextZero, a.content⟩).toList

theorem content_eq (k : PrivateKeyInfo) : k.content = k.elements.flatMap Value.encode := by
  obtain ⟨version, algorithm, privateKey, attributes⟩ := k
  cases attributes <;>
    simp [content, elements, encodeAttributes, Value.encode, Integer.encode,
      AlgorithmIdentifier.encode]

theorem length_le_of_mem_elements {v : Value} (h : v ∈ k.elements) :
    v.content.length ≤ k.content.length := by
  rw [content_eq]
  exact Value.length_content_le_of_mem h

theorem length_attributes_le {a : Attributes} (h : k.attributes = some a) :
    a.content.length ≤ k.content.length := by
  have hmem : ⟨.contextZero, a.content⟩ ∈ k.elements := by
    rw [elements, h]
    exact List.mem_append_right _ List.mem_cons_self
  exact length_le_of_mem_elements hmem

/-- **A key info is known by its encoding.** -/
theorem eq_of_encode_eq (hmax : k.encode.length ≤ maxLength) (h : k.encode = l.encode) :
    k = l := by
  have hmax' := hmax
  rw [h] at hmax'
  have hcontent : k.content.length ≤ maxLength := Nat.le_trans length_le_encodeTyped hmax
  have hcontent' : l.content.length ≤ maxLength := Nat.le_trans length_le_encodeTyped hmax'
  obtain ⟨-, heq⟩ := encodeTyped_inj hcontent hcontent' h
  have halgorithm : k.algorithm.content.length ≤ maxLength :=
    Nat.le_trans (length_le_of_mem_elements (v := ⟨.sequence, _⟩)
      (List.mem_cons_of_mem _ List.mem_cons_self)) hcontent
  have hattributes (a : Attributes) (ha : k.attributes = some a) : a.content.length ≤ maxLength :=
    Nat.le_trans (length_attributes_le ha) hcontent
  rw [content_eq] at heq hcontent
  rw [content_eq l] at heq
  -- the elements are the same, so it remains to see that each is known by its own content
  have helements := Value.eq_of_flatMap_encode_eq hcontent heq
  simp only [elements, List.cons_append, List.nil_append, List.cons.injEq, Value.mk.injEq,
    true_and] at helements
  obtain ⟨hversion, halgorithm', hkey, hrest⟩ := helements
  have hversion : k.version = l.version := by
    -- a number is known by its content, as it is read back from it
    have hread := Integer.ofContent_content l.version
    rw [← hversion, Integer.ofContent_content, Except.ok.injEq] at hread
    exact hread
  have hattributes : k.attributes = l.attributes := by
    -- what is behind the key is the attributes or nothing, on both sides alike
    have hrest := congrArg List.head? hrest
    rw [Option.head?_toList, Option.head?_toList] at hrest
    cases hk : k.attributes with
    | none =>
      rw [hk] at hrest
      exact (Option.map_eq_none_iff.mp hrest.symm).symm
    | some a =>
      rw [hk] at hrest
      obtain ⟨b, hb, heq⟩ := Option.map_eq_some_iff.mp hrest.symm
      rw [hb, Attributes.eq_of_content_eq (hattributes a hk) (Value.mk.inj heq).2.symm]
  obtain ⟨version, algorithm, privateKey, attributes⟩ := k
  obtain ⟨version', algorithm', privateKey', attributes'⟩ := l
  rw [mk.injEq]
  exact ⟨hversion, AlgorithmIdentifier.eq_of_content_eq halgorithm halgorithm', hkey, hattributes⟩

theorem encode_none_ne_encode_nil (k : PrivateKeyInfo) :
    (k.withAttributes none).encode ≠ (k.withAttributes (some [])).encode := by
  intro h
  -- equal encodings would have contents of one length
  have hlength : (k.withAttributes none).content.length =
      (k.withAttributes (some [])).content.length := by
    rw [← Nat.compare_eq_eq, ← compare_length_encodeTyped .sequence .sequence, Nat.compare_eq_eq]
    exact congrArg List.length h
  -- the empty set takes two octets
  simp only [content, withAttributes, encodeAttributes, encodeTyped, List.length_append,
    List.length_cons, List.length_nil] at hlength
  omega

/-! ### Valid key infos -/

/-- All object identifiers are ones that decoders accept. -/
def HasDecodableOids (k : PrivateKeyInfo) : Prop :=
  k.oid.IsDecodable ∧ ∀ a, k.attributes = some a → ∀ b ∈ a, b.oid.IsDecodable

/-- The key infos that are read from what was written, be it with the sets in another order. -/
def IsEncodable (k : PrivateKeyInfo) : Prop :=
  k.HasDecodableOids ∧ k.encode.length ≤ maxLength

/-- Attributes ascend strictly in the order of their encodings, and so do the values of each. -/
def IsDerOrdered (k : PrivateKeyInfo) : Prop :=
  ∀ a, k.attributes = some a → a.IsDerOrdered

/-- No attribute comes twice, and no value of an attribute does. -/
def IsDistinct (k : PrivateKeyInfo) : Prop :=
  ∀ a, k.attributes = some a → a.IsDistinct

/-- The key infos that are read as they are written. -/
def IsValid (k : PrivateKeyInfo) : Prop :=
  k.IsEncodable ∧ k.IsDerOrdered

theorem IsEncodable.isDerOrdered_iff (h : k.IsEncodable) :
    k.IsDerOrdered ↔ ∀ a, k.attributes = some a → a.IsCanonical := by
  have hmax (a : Attributes) (ha : k.attributes = some a) : a.content.length ≤ maxLength :=
    Nat.le_trans (length_attributes_le ha) (Nat.le_trans length_le_encodeTyped h.2)
  exact forall₂_congr fun a ha => (Attributes.isCanonical_iff_isDerOrdered (hmax a ha)).symm

/-! ### Reorderings -/

/-- The same key info, with its attributes in another order and the values of each in another
order. -/
structure Reorders (k l : PrivateKeyInfo) : Prop where
  version : k.version = l.version
  algorithm : k.algorithm = l.algorithm
  privateKey : k.privateKey = l.privateKey
  attributes : k.attributes.map Attributes.unordered = l.attributes.map Attributes.unordered

namespace Reorders

variable {m : PrivateKeyInfo}

theorem refl (k : PrivateKeyInfo) : k.Reorders k :=
  ⟨rfl, rfl, rfl, rfl⟩

theorem symm (h : k.Reorders l) : l.Reorders k :=
  ⟨h.version.symm, h.algorithm.symm, h.privateKey.symm, h.attributes.symm⟩

theorem trans (h : k.Reorders l) (h' : l.Reorders m) : k.Reorders m :=
  ⟨h.version.trans h'.version, h.algorithm.trans h'.algorithm, h.privateKey.trans h'.privateKey,
    h.attributes.trans h'.attributes⟩

theorem exists_attributes {a : Attributes} (h : k.Reorders l) (ha : k.attributes = some a) :
    ∃ b, l.attributes = some b ∧ b.Reorders a := by
  have hmap := h.attributes
  rw [ha] at hmap
  exact Option.map_eq_some_iff.mp hmap.symm

theorem attributes_eq_none (h : k.Reorders l) (hk : k.attributes = none) :
    l.attributes = none := by
  have hmap := h.attributes
  rw [hk] at hmap
  exact Option.map_eq_none_iff.mp hmap.symm

theorem length_encode (h : k.Reorders l) : k.encode.length = l.encode.length := by
  -- only the attributes are written differently, and a set is as long in any order
  have hattributes : (encodeAttributes k.attributes).length =
      (encodeAttributes l.attributes).length := by
    cases hk : k.attributes with
    | none => rw [h.attributes_eq_none hk]
    | some a =>
      obtain ⟨b, hb, hreorders⟩ := h.exists_attributes hk
      rw [hb, encodeAttributes, encodeAttributes, length_encodeTyped, length_encodeTyped,
        hreorders.length_content]
  have hcontent : k.content.length = l.content.length := by
    simp only [content, List.length_append, h.version, h.algorithm, h.privateKey, hattributes]
  rw [encode, encode, length_encodeTyped, length_encodeTyped, hcontent]

theorem hasDecodableOids (h : k.Reorders l) (hk : k.HasDecodableOids) : l.HasDecodableOids := by
  obtain ⟨hoid, hattributes⟩ := hk
  refine ⟨?_, fun b hb v hv => ?_⟩
  · rwa [oid, ← h.algorithm]
  · obtain ⟨a, ha, hreorders⟩ := h.symm.exists_attributes hb
    obtain ⟨w, hw, hunordered⟩ := hreorders.symm.exists_mem hv
    rw [← (Attribute.unordered_eq_iff.mp hunordered).1]
    exact hattributes a ha w hw

theorem isEncodable (h : k.Reorders l) (hk : k.IsEncodable) : l.IsEncodable :=
  ⟨h.hasDecodableOids hk.1, h.length_encode ▸ hk.2⟩

/-- **A key info has one valid reordering at most.** -/
theorem eq (h : k.Reorders l) (hk : k.IsValid) (hl : l.IsValid) : k = l := by
  have hcanonical := hk.1.isDerOrdered_iff.mp hk.2
  have hcanonical' := hl.1.isDerOrdered_iff.mp hl.2
  have hattributes : k.attributes = l.attributes := by
    cases hk : k.attributes with
    | none => exact (h.attributes_eq_none hk).symm
    | some a =>
      obtain ⟨b, hb, hreorders⟩ := h.exists_attributes hk
      rw [hb, hreorders.eq (hcanonical' b hb) (hcanonical a hk)]
  obtain ⟨version, algorithm, privateKey, attributes⟩ := k
  obtain ⟨version', algorithm', privateKey', attributes'⟩ := l
  rw [mk.injEq]
  exact ⟨h.version, h.algorithm, h.privateKey, hattributes⟩

end Reorders

/-- **An encodable key info can be put in order exactly if nothing comes twice in it.** -/
theorem IsEncodable.isDistinct_iff (h : k.IsEncodable) :
    k.IsDistinct ↔ ∃ l : PrivateKeyInfo, l.IsValid ∧ k.Reorders l := by
  constructor
  · intro hdistinct
    -- the attributes are put in order, and the rest stays
    have hreorders : ∃ l : PrivateKeyInfo,
        (∀ a, l.attributes = some a → a.IsCanonical) ∧ k.Reorders l := by
      cases hk : k.attributes with
      | none =>
        refine ⟨k, ?_, .refl k⟩
        rw [hk]
        exact nofun
      | some a =>
        obtain ⟨b, hb, hreorders⟩ := Attributes.isDistinct_iff.mp (hdistinct a hk)
        refine ⟨k.withAttributes (some b), ?_, ⟨rfl, rfl, rfl, ?_⟩⟩
        · rintro _ ⟨⟩
          exact hb
        · rw [hk]
          exact congrArg some hreorders
    obtain ⟨l, hcanonical, hreorders⟩ := hreorders
    -- in any order a key info is as encodable as it was
    have hl := hreorders.isEncodable h
    exact ⟨l, ⟨hl, hl.isDerOrdered_iff.mpr hcanonical⟩, hreorders⟩
  · rintro ⟨l, hl, hreorders⟩ a ha
    obtain ⟨b, hb, hreorders⟩ := hreorders.exists_attributes ha
    exact Attributes.isDistinct_iff.mpr ⟨b, hl.1.isDerOrdered_iff.mp hl.2 b hb, hreorders.symm⟩

/-! ### Reading -/

/-- The octets that attributes are read from: none for absent attributes, and a set in any order
for others. -/
def AttributesAnyOrder : Grammar (Option Attributes)
  | none, octets => octets = []
  | some a, octets => ∃ content, (a.AnyOrder content ∧ content.length ≤ maxLength) ∧
      octets = encodeTyped .contextZero content

/-- **Attributes are read in any order**, or found to be absent, where the window ends behind
them. -/
theorem readsAtEnd_attributesDecoder :
    Decoder.ReadsAtEnd attributesDecoder AttributesAnyOrder := by
  intro c attributes c' hend
  rw [attributesDecoder, Decoder.bind_eq_ok_iff]
  constructor
  · rintro ⟨next, c₁, hpeek, h⟩
    cases hpeek
    cases hrest : c.rest.head? with
    | none =>
      rw [hrest] at h
      -- the window is at its end: absent attributes, in no octets
      obtain ⟨rfl, rfl⟩ := Decoder.pure_eq_ok_iff.mp h
      exact ⟨[], rfl, Cursor.passes_nil_iff.mpr rfl⟩
    | some octet =>
      rw [hrest] at h
      obtain ⟨tag, c₁, hcheck, hread⟩ := Decoder.bind_eq_ok_iff.mp h
      obtain ⟨htag, rfl⟩ := Decoder.ofExcept_eq_ok_iff.mp hcheck
      by_cases hzero : tag.classNumber = 2 ∧ tag.number = 0
      · rw [if_pos hzero] at hread
        obtain ⟨⟨t, n⟩, c₂, hheader, hread⟩ := Decoder.bind_eq_ok_iff.mp hread
        obtain ⟨hmax, hpasses⟩ := (Decoder.exact_header _ _ c₂ trivial).mp hheader
        obtain ⟨a, c₃, hcontent, hform⟩ := Decoder.bind_eq_ok_iff.mp hread
        obtain ⟨content, ⟨ha, rfl⟩, hpasses'⟩ :=
          (Attributes.reads_contentDecoder n c₂ a c₃ trivial).mp hcontent
        -- the tag that was looked at is the one that was read
        have hoctet : t.octet = octet := by
          rw [hpasses.rest_eq] at hrest
          exact Option.some.inj hrest
        obtain rfl : tag = t := Tag.ext ((Tag.octet_of_ofOctet htag).trans hoctet.symm)
        by_cases hconstructed : tag.isConstructed
        -- the form is looked at last, and completes the tag
        · rw [if_pos hconstructed] at hform
          obtain ⟨rfl, rfl⟩ := Decoder.pure_eq_ok_iff.mp hform
          rw [Tag.eq_contextZero hzero.1 hzero.2 hconstructed] at hpasses
          exact ⟨encodeTyped .contextZero content, ⟨content, ⟨ha, hmax⟩, rfl⟩,
            Cursor.passes_append_iff.mpr ⟨c₂, hpasses, hpasses'⟩⟩
        · rw [if_neg hconstructed] at hform
          exact absurd hform Decoder.fail_ne_ok
      · -- a value that is left where it is keeps the window from being at its end
        rw [if_neg hzero] at hread
        obtain ⟨rfl, rfl⟩ := Decoder.pure_eq_ok_iff.mp hread
        rw [hend] at hrest
        cases hrest
  · rintro ⟨octets, hoctets, hpasses⟩
    cases attributes with
    | none =>
      obtain rfl : octets = [] := hoctets
      obtain rfl := Cursor.passes_nil_iff.mp hpasses
      refine ⟨none, c', ?_, Decoder.pure_eq_ok_iff.mpr ⟨rfl, rfl⟩⟩
      rw [Decoder.peek, hend, List.head?_nil]
    | some a =>
      obtain ⟨content, ⟨ha, hmax⟩, rfl⟩ := hoctets
      -- the octet that is looked at is that of the tag, and the checks on it pass one by one
      have hhead : c.rest.head? = some Tag.contextZero.octet := by rw [hpasses.rest_eq]; rfl
      obtain ⟨c₁, hheader, hcontent⟩ := Cursor.passes_append_iff.mp
        (show c.Passes ((Tag.contextZero.octet :: encodeLength content.length) ++ content) c'
          from hpasses)
      refine ⟨some Tag.contextZero.octet, c, by rw [Decoder.peek, hhead], ?_⟩
      refine Decoder.bind_eq_ok_iff.mpr ⟨.contextZero, c,
        Decoder.ofExcept_eq_ok_iff.mpr ⟨Tag.ofOctet_octet _, rfl⟩, ?_⟩
      rw [if_pos (by decide)]
      refine Decoder.bind_eq_ok_iff.mpr ⟨(.contextZero, content.length), c₁,
        (Decoder.exact_header c _ c₁ trivial).mpr ⟨hmax, hheader⟩, ?_⟩
      refine Decoder.bind_eq_ok_iff.mpr ⟨a, c',
        (Attributes.reads_contentDecoder _ c₁ a c' trivial).mpr ⟨content, ⟨ha, rfl⟩, hcontent⟩, ?_⟩
      exact Decoder.pure_eq_ok_iff.mpr ⟨rfl, rfl⟩

/-- Within the limit, the octets that attributes are read from are those of a reordering. -/
theorem attributesAnyOrder_iff {attributes : Option Attributes} {octets : Bytes}
    (hmax : octets.length ≤ maxLength) :
    AttributesAnyOrder attributes octets ↔ (∀ a, attributes = some a → a.IsCanonical) ∧
      ∃ written : Option Attributes,
        written.map Attributes.unordered = attributes.map Attributes.unordered ∧
        (∀ a, written = some a → ∀ b ∈ a, b.oid.IsDecodable) ∧
        octets = encodeAttributes written := by
  cases attributes with
  | none =>
    constructor
    · rintro rfl
      exact ⟨nofun, none, rfl, nofun, rfl⟩
    · rintro ⟨-, written, hmap, -, rfl⟩
      rw [Option.map_eq_none_iff.mp hmap]
      rfl
  | some a =>
    constructor
    -- a limit on the set is one on each attribute, which is all that decoding asks for besides
    · rintro ⟨_, ⟨⟨hcanonical, written, hreorders, hwritten, rfl⟩, -⟩, rfl⟩
      refine ⟨?_, some written, congrArg some hreorders, ?_, rfl⟩
      · rintro _ ⟨⟩
        exact hcanonical
      · rintro _ ⟨⟩ b hb
        exact (hwritten b hb).1
    · rintro ⟨hcanonical, written, hmap, hdecodable, rfl⟩
      obtain ⟨written, rfl, hreorders⟩ := Option.map_eq_some_iff.mp hmap
      have hcontent : written.content.length ≤ maxLength :=
        Nat.le_trans length_le_encodeTyped hmax
      refine ⟨written.content, ⟨⟨hcanonical a rfl, written, hreorders, fun b hb => ?_, rfl⟩,
        hcontent⟩, rfl⟩
      exact ⟨hdecodable written rfl b hb,
        Nat.le_trans (Attributes.length_content_le_of_mem hb) hcontent⟩

/-- The content of an encoding in which these octets stand for the attributes. -/
def contentWith (k : PrivateKeyInfo) (attributes : Bytes) : Bytes :=
  Integer.encode k.version ++ k.algorithm.encode ++ encodeTyped .octetString k.privateKey ++
    attributes

theorem reads_decoder :
    Decoder.Reads decoder fun k octets => ∃ attributes, k.oid.IsDecodable ∧
      AttributesAnyOrder k.attributes attributes ∧
      (k.contentWith attributes).length ≤ maxLength ∧
      octets = encodeTyped .sequence (k.contentWith attributes) := by
  -- the fields in their order; only the last is read in more than one way
  have hversion := Decoder.Reads.field (Decoder.ExactBefore.reads Integer.exact_decoder)
  have halgorithm :=
    Decoder.Reads.field (Decoder.ExactBefore.reads AlgorithmIdentifier.exact_decoder)
  have hkey := Decoder.Reads.field (Decoder.ExactBefore.reads Decoder.exact_octetString)
  have hcontent := hversion.bind fun version => halgorithm.bind fun algorithm =>
    hkey.bind fun privateKey => readsAtEnd_attributesDecoder.map (mk version algorithm privateKey)
  refine (Decoder.Reads.typed .sequence (Decoder.ReadsAtEnd.within hcontent)).congr
    fun k octets => ?_
  constructor
  · rintro ⟨attributes, hoid, hattributes, hmax, rfl⟩
    -- every field is within the limit, since all of them together are
    have hlengths := hmax
    rw [contentWith, List.length_append, List.length_append, List.length_append] at hlengths
    have halgorithm : k.algorithm.content.length ≤ k.algorithm.encode.length :=
      length_le_encodeTyped
    have hkey := length_le_encodeTyped (t := .octetString) (x := k.privateKey)
    refine ⟨_, ⟨⟨k.version, _, _, ⟨trivial, rfl⟩, ⟨k.algorithm, _, _, ⟨⟨hoid, by omega⟩, rfl⟩,
      ⟨k.privateKey, _, attributes, ⟨show k.privateKey.length ≤ _ by omega, rfl⟩,
        ⟨k.attributes, hattributes, rfl⟩, rfl⟩, rfl⟩, rfl⟩, ?_⟩, ?_⟩
    · rw [← List.append_assoc, ← List.append_assoc]
      exact hmax
    · rw [← List.append_assoc, ← List.append_assoc]
      rfl
  · rintro ⟨_, ⟨⟨version, _, _, ⟨-, rfl⟩, ⟨algorithm, _, _, ⟨⟨hoid, -⟩, rfl⟩,
      ⟨privateKey, _, attributes, ⟨-, rfl⟩, ⟨read, hread, rfl⟩, rfl⟩, rfl⟩, rfl⟩, hmax⟩, rfl⟩
    -- the rule for `bind` nests the octets to the right, an encoding to the left
    rw [← List.append_assoc, ← List.append_assoc] at hmax ⊢
    exact ⟨attributes, hoid, hread, hmax, rfl⟩

/-- **What is read.** It is valid, and the input is the encoding of a reordering of it. -/
theorem ofDer_eq_ok_iff :
    ofDer input = .ok k ↔ k.IsValid ∧ ∃ written : PrivateKeyInfo,
      written.Reorders k ∧ written.encode = input := by
  rw [ofDer, Decoder.ReadsAtEnd.decode_eq_ok_iff reads_decoder.before]
  have hsplit (attributes : Bytes) :
      attributes.length ≤ (k.contentWith attributes).length := by
    rw [contentWith, List.length_append]
    omega
  constructor
  · -- what was written is what was read, with the attributes as they were written
    rintro ⟨⟨octets, hoid, hoctets, hcontent, rfl⟩, hmax⟩
    obtain ⟨hcanonical, attributes, hmap, hdecodable, rfl⟩ :=
      (attributesAnyOrder_iff (Nat.le_trans (hsplit octets) hcontent)).mp hoctets
    have hreorders : (k.withAttributes attributes).Reorders k := ⟨rfl, rfl, rfl, hmap⟩
    have hk : k.IsEncodable := hreorders.isEncodable ⟨⟨hoid, hdecodable⟩, hmax⟩
    exact ⟨⟨hk, hk.isDerOrdered_iff.mpr hcanonical⟩, _, hreorders, rfl⟩
  · rintro ⟨⟨hk, hordered⟩, written, hreorders, rfl⟩
    -- whatever the order, the length and the identifiers are those of `k`
    obtain ⟨⟨hoid, hdecodable⟩, hmax⟩ := hreorders.symm.isEncodable hk
    have hcontent : written.content.length ≤ maxLength := Nat.le_trans length_le_encodeTyped hmax
    have heq : written.content = k.contentWith (encodeAttributes written.attributes) := by
      rw [content, hreorders.version, hreorders.algorithm, hreorders.privateKey, contentWith]
    rw [heq] at hcontent
    refine ⟨⟨encodeAttributes written.attributes, hk.1.1, ?_, hcontent, ?_⟩, hmax⟩
    · refine (attributesAnyOrder_iff (Nat.le_trans (hsplit _) hcontent)).mpr ⟨?_, _,
        hreorders.attributes, hdecodable, rfl⟩
      exact hk.isDerOrdered_iff.mp hordered
    · rw [encode, heq]

/-- An encodable key info is read as its valid reordering, if it has one. -/
theorem ofDer_encode_eq_ok_iff :
    ofDer k.encode = .ok l ↔ k.IsEncodable ∧ l.IsValid ∧ k.Reorders l := by
  rw [ofDer_eq_ok_iff]
  constructor
  · rintro ⟨hl, written, hreorders, hencode⟩
    -- the encoding is within the limit, so it is the encoding of one key info only
    have hmax : written.encode.length ≤ maxLength := by
      rw [hreorders.length_encode]
      exact hl.1.2
    obtain rfl := eq_of_encode_eq hmax hencode
    exact ⟨hreorders.symm.isEncodable hl.1, hl, hreorders⟩
  · rintro ⟨-, hl, hreorders⟩
    exact ⟨hl, k, hreorders, rfl⟩

/-- **The codec repairs the order of sets**, and apart from that writing and reading are inverse to
each other. Absent attributes and an empty set of them are not confused. What is read is valid, the
input is the encoding of a reordering of it and of nothing else, all reorderings are read alike, and
the input is written back as it was exactly if its sets ascend at both levels. An encodable key info
is refused exactly if something comes twice in one of its sets. -/
theorem codec_reorders :
    (∀ k : PrivateKeyInfo, k.IsValid → ofDer k.encode = .ok k) ∧
    (∀ k : PrivateKeyInfo,
      (k.withAttributes none).encode ≠ (k.withAttributes (some [])).encode) ∧
    (∀ (input : Bytes) (k : PrivateKeyInfo), ofDer input = .ok k →
      k.IsValid ∧ ofDer k.encode = .ok k ∧
      ∃ written : PrivateKeyInfo, (∀ l : PrivateKeyInfo, l.encode = input ↔ l = written) ∧
        written.Reorders k ∧ (k.encode = input ↔ written.IsDerOrdered) ∧
        ∀ l : PrivateKeyInfo, ofDer l.encode = .ok k ↔ l.Reorders written) ∧
    (∀ written : PrivateKeyInfo, (∃ k, ofDer written.encode = .ok k) ↔
      written.IsEncodable ∧ written.IsDistinct) := by
  have hread (k : PrivateKeyInfo) (hk : k.IsValid) : ofDer k.encode = .ok k :=
    ofDer_encode_eq_ok_iff.mpr ⟨hk.1, hk, .refl k⟩
  refine ⟨hread, encode_none_ne_encode_nil, fun input k h => ?_, fun written => ?_⟩
  · obtain ⟨hk, written, hreorders, rfl⟩ := ofDer_eq_ok_iff.mp h
    have hwritten : written.IsEncodable := hreorders.symm.isEncodable hk.1
    refine ⟨hk, hread k hk, written, fun l => ?_, hreorders, ?_, fun l => ?_⟩
    · -- no other key info is written so
      constructor
      · intro heq
        exact (eq_of_encode_eq hwritten.2 heq.symm).symm
      · rintro rfl
        rfl
    · -- written back as it was, the input is the encoding of what was read, which ascends
      constructor
      · intro heq
        rw [← eq_of_encode_eq hk.1.2 heq]
        exact hk.2
      · intro hordered
        rw [hreorders.eq ⟨hwritten, hordered⟩ hk]
    · constructor
      · intro hl
        -- all reorderings have the same valid one
        obtain ⟨-, -, hreorders'⟩ := ofDer_encode_eq_ok_iff.mp hl
        exact hreorders'.trans hreorders.symm
      · intro hl
        exact ofDer_encode_eq_ok_iff.mpr ⟨hl.symm.isEncodable hwritten, hk, hl.trans hreorders⟩
  · constructor
    · rintro ⟨k, hk⟩
      obtain ⟨hwritten, hk, hreorders⟩ := ofDer_encode_eq_ok_iff.mp hk
      exact ⟨hwritten, hwritten.isDistinct_iff.mpr ⟨k, hk, hreorders⟩⟩
    · rintro ⟨hwritten, hdistinct⟩
      obtain ⟨k, hk, hreorders⟩ := hwritten.isDistinct_iff.mp hdistinct
      exact ⟨k, ofDer_encode_eq_ok_iff.mpr ⟨hwritten, hk, hreorders⟩⟩

/-- Two attributes with two values each: listed in descending order they are read in ascending
order, and one of them listed twice is refused. -/
theorem codec_reorders_two_attributes :
    let one : Value := ⟨.integer, [0x01]⟩
    let two : Value := ⟨.integer, [0x02]⟩
    let k (attributes : Attributes) : PrivateKeyInfo :=
      ⟨0, .ofOid ⟨[0x2a, 0x03, 0x04]⟩, [0x0a, 0x0b], some attributes⟩
    let ascending := k [⟨⟨[0x2a, 0x03, 0x04]⟩, [one, two]⟩, ⟨⟨[0x2a, 0x03, 0x05]⟩, [one, two]⟩]
    let descending := k [⟨⟨[0x2a, 0x03, 0x05]⟩, [two, one]⟩, ⟨⟨[0x2a, 0x03, 0x04]⟩, [two, one]⟩]
    let repeated := k [⟨⟨[0x2a, 0x03, 0x04]⟩, [one, two]⟩, ⟨⟨[0x2a, 0x03, 0x04]⟩, [two, one]⟩]
    ascending.IsValid ∧ ofDer descending.encode = .ok ascending ∧
      ascending.encode ≠ descending.encode ∧ ¬∃ k, ofDer repeated.encode = .ok k := by
  intro one two k ascending descending repeated
  obtain ⟨hread, -, haccepted, hrefused⟩ := codec_reorders
  have hvalid : ascending.IsValid := by
    refine ⟨⟨⟨by decide, ?_⟩, by decide +kernel⟩, ?_⟩
    · rintro _ ⟨⟩
      decide
    · rintro _ ⟨⟩
      constructor
      · unfold SetOf.Ascending
        decide +kernel
      · unfold SetOf.Ascending
        decide +kernel
  have hreorders : descending.Reorders ascending := ⟨rfl, rfl, rfl, by decide⟩
  refine ⟨hvalid, ?_, by decide +kernel, fun haccepts => ?_⟩
  · obtain ⟨-, -, written, -, hwritten, -, hall⟩ := haccepted _ _ (hread ascending hvalid)
    exact (hall descending).mpr (hreorders.trans hwritten.symm)
  · have hdistinct := ((hrefused repeated).mp haccepts).2 _ rfl
    exact absurd hdistinct.attributes (by decide)

end PrivateKeyInfo

end SignatureCatalog
