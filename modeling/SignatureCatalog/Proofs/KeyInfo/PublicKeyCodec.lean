import SignatureCatalog.KeyInfo.PublicKey
import SignatureCatalog.Proofs.KeyInfo.AlgorithmCodec

/-!
# The public key codec is a bijection

A public key info is *encodable* if its object identifier is one that decoders accept and its
encoding is within the length limit; nothing is asked of its parameters, its payload or the bits
that do not count. Between encodable key infos and accepted inputs, writing and reading are inverse
to each other.

The decoder is exact (`exact_decoder`), which is put together from its elements, and so the accepted
inputs are encodings and nothing else. What is refused follows from what encodings look like:

* no accepted input begins another, so trailing octets and cut-off inputs are refused;
* the content of either SEQUENCE is a row of elements (`content_eq`), and a row of elements is known
  by its octets, so one element too few or too many is refused;
* `Layout` is a key info whose writer chose how to state all lengths. It is refused unless they are
  stated as DER asks for, since an encoding can be split into elements in one way only.

`codec_bijective` is all of it.
-/

namespace SignatureCatalog

open Der

namespace SubjectPublicKeyInfo

/-! ### Encodable key infos -/

/-- The key infos that can be written and read: a decodable object identifier, and an encoding
within the limit. -/
def IsEncodable (k : SubjectPublicKeyInfo) : Prop :=
  k.oid.IsDecodable ∧ k.encode.length ≤ maxLength

instance (k : SubjectPublicKeyInfo) : Decidable k.IsEncodable := by
  unfold IsEncodable
  infer_instance

/-- The elements of the SEQUENCE: the algorithm, then the bit string. -/
def elements (k : SubjectPublicKeyInfo) : List Value :=
  [⟨.sequence, k.algorithm.content⟩, ⟨.bitString, k.subjectPublicKey.content⟩]

theorem content_eq (k : SubjectPublicKeyInfo) : k.content = k.elements.flatMap Value.encode :=
  (congrArg (_ ++ ·) (List.append_nil k.subjectPublicKey.encode)).symm

theorem length_le_of_mem_elements {k : SubjectPublicKeyInfo} {v : Value} (h : v ∈ k.elements) :
    v.content.length ≤ k.content.length := by
  rw [content_eq]
  exact Value.length_content_le_of_mem h

theorem length_algorithm_le (k : SubjectPublicKeyInfo) :
    k.algorithm.content.length ≤ k.content.length :=
  length_le_of_mem_elements (v := ⟨.sequence, _⟩) List.mem_cons_self

theorem length_subjectPublicKey_le (k : SubjectPublicKeyInfo) :
    k.subjectPublicKey.content.length ≤ k.content.length :=
  length_le_of_mem_elements (v := ⟨.bitString, _⟩) (List.mem_cons_of_mem _ List.mem_cons_self)

theorem length_octets_le (k : SubjectPublicKeyInfo) :
    k.subjectPublicKey.octets.length ≤ k.encode.length :=
  calc k.subjectPublicKey.octets.length
      ≤ k.subjectPublicKey.content.length := Nat.le_succ _
    _ ≤ k.content.length := length_subjectPublicKey_le k
    _ ≤ k.encode.length := length_le_encodeTyped

/-! ### The bijection -/

/-- **Public key infos are read exactly.** -/
theorem exact_decoder :
    Decoder.Exact decoder (fun k => k.oid.IsDecodable ∧ k.content.length ≤ maxLength) encode := by
  have hbits (algorithm : AlgorithmIdentifier) :
      Decoder.ExactAtEnd
        (do let subjectPublicKey ← Decoder.field BitString.decoder
            pure ⟨algorithm, subjectPublicKey⟩ : Decoder SubjectPublicKeyInfo)
        (fun k => k.algorithm = algorithm ∧ k.subjectPublicKey.content.length ≤ maxLength)
        (fun k => k.subjectPublicKey.encode) := by
    refine (BitString.exact_decoder.before.field.map (mk algorithm) subjectPublicKey
      (fun k => k.algorithm = algorithm) fun bits k => ?_).congr (fun k => and_comm) fun _ _ => rfl
    obtain ⟨algorithm', bits'⟩ := k
    rw [mk.injEq, and_comm, eq_comm, eq_comm (a := algorithm)]
  -- both elements in the window that the header gives them
  have hcontent : Decoder.ExactAtEnd _ _ content :=
    AlgorithmIdentifier.exact_decoder.field.bind algorithm hbits
  refine (Decoder.Exact.typed .sequence hcontent.within).congr (fun k => ?_) fun _ _ => rfl
  constructor
  · rintro ⟨hoid, hmax⟩
    -- both elements are part of the content, so the limit on the content is enough
    have halgorithm := Nat.le_trans (length_algorithm_le k) hmax
    have hbits := Nat.le_trans (length_subjectPublicKey_le k) hmax
    exact ⟨⟨⟨hoid, halgorithm⟩, hbits⟩, hmax⟩
  · rintro ⟨⟨⟨hoid, -⟩, -⟩, hmax⟩
    exact ⟨hoid, hmax⟩

theorem bijection : Decoder.Bijection IsEncodable encode ofDer := by
  refine Decoder.ExactAtEnd.bijection exact_decoder.before fun k => ?_
  constructor
  · rintro ⟨hoid, hmax⟩
    exact ⟨⟨hoid, Nat.le_trans length_le_encodeTyped hmax⟩, hmax⟩
  · rintro ⟨⟨hoid, -⟩, hmax⟩
    exact ⟨hoid, hmax⟩

/-- What is written is read exactly if it is encodable, and only as what it was. -/
theorem ofDer_encode_eq_ok_iff {k l : SubjectPublicKeyInfo} :
    ofDer k.encode = .ok l ↔ k.IsEncodable ∧ l = k := by
  constructor
  · intro h
    obtain ⟨⟨hoid, hmax⟩, hencode⟩ := bijection.encode_decode _ _ h
    -- nothing is known of `k` but its octets, which are those of the encodable `l`
    have hl : l.content.length ≤ maxLength := Nat.le_trans length_le_encodeTyped hmax
    rw [hencode] at hmax
    have hk : k.content.length ≤ maxLength := Nat.le_trans length_le_encodeTyped hmax
    -- the two begin with the same algorithm, so what is decodable of the one is of the other
    obtain ⟨-, hcontent⟩ := encodeTyped_inj hl hk hencode
    have hlength := Nat.le_trans (length_algorithm_le l) hl
    obtain ⟨-, halgorithm, -⟩ :=
      encodeTyped_append_inj hlength (Nat.le_trans (length_algorithm_le k) hk) hcontent
    have hsame : l.oid = k.oid :=
      congrArg AlgorithmIdentifier.oid (AlgorithmIdentifier.eq_of_content_eq hlength halgorithm)
    have hvalid : k.IsEncodable := ⟨hsame ▸ hoid, hmax⟩
    rw [bijection.decode_encode k hvalid] at h
    exact ⟨hvalid, (Except.ok.inj h).symm⟩
  · rintro ⟨hvalid, rfl⟩
    exact bijection.decode_encode l hvalid

/-! ### What is refused -/

/-- An input is accepted if a key info is read from it. -/
def Accepts (input : Bytes) : Prop :=
  ∃ k, ofDer input = .ok k

theorem Accepts.exists_encode_eq {input : Bytes} (h : Accepts input) :
    ∃ k : SubjectPublicKeyInfo, k.encode.length ≤ maxLength ∧ k.encode = input := by
  obtain ⟨k, hk⟩ := h
  obtain ⟨⟨-, hmax⟩, hinput⟩ := bijection.encode_decode input k hk
  exact ⟨k, hmax, hinput⟩

/-- Neither trailing octets nor a cut anywhere leave an accepted input accepted. -/
theorem Accepts.eq_nil_of_append {input tail : Bytes} (h : Accepts input)
    (h' : Accepts (input ++ tail)) : tail = [] := by
  obtain ⟨k, hk⟩ := h
  obtain ⟨k', hk'⟩ := h'
  exact exact_decoder.eq_nil_of_decode_append hk hk'

theorem Accepts.exists_content_eq {content : Bytes} (h : Accepts (encodeTyped .sequence content)) :
    ∃ k : SubjectPublicKeyInfo, content.length ≤ maxLength ∧ k.content = content := by
  obtain ⟨k, hmax, hk⟩ := h.exists_encode_eq
  have hlength : k.content.length ≤ maxLength := Nat.le_trans length_le_encodeTyped hmax
  rw [hk] at hmax
  have hlength' : content.length ≤ maxLength := Nat.le_trans length_le_encodeTyped hmax
  exact ⟨k, hlength', (encodeTyped_inj hlength hlength' hk).2⟩

/-- The outer SEQUENCE has two elements. -/
theorem Accepts.length_elements {elements : List Value}
    (h : Accepts (encodeTyped .sequence (elements.flatMap Value.encode))) :
    elements.length = 2 := by
  obtain ⟨k, hmax, hk⟩ := h.exists_content_eq
  rw [content_eq] at hk
  -- the elements of the input are those of the key info that is read
  rw [Value.eq_of_flatMap_encode_eq hmax hk.symm]
  rfl

/-- The inner SEQUENCE has one element or two. -/
theorem Accepts.length_algorithm_elements {elements : List Value} {rest : Bytes}
    (h : Accepts (encodeTyped .sequence
      (encodeTyped .sequence (elements.flatMap Value.encode) ++ rest))) :
    elements.length = 1 ∨ elements.length = 2 := by
  obtain ⟨k, hmax, hk⟩ := h.exists_content_eq
  have hlength : k.algorithm.content.length ≤ maxLength := by
    rw [← hk] at hmax
    exact Nat.le_trans (length_algorithm_le k) hmax
  have hlength' : (elements.flatMap Value.encode).length ≤ maxLength := by
    -- the inner SEQUENCE is part of the outer content
    rw [List.length_append] at hmax
    exact Nat.le_trans length_le_encodeTyped (Nat.le_trans (Nat.le_add_right _ _) hmax)
  obtain ⟨-, hinner, -⟩ := encodeTyped_append_inj hlength hlength' hk
  rw [AlgorithmIdentifier.content_eq] at hinner
  rw [Value.eq_of_flatMap_encode_eq hlength' hinner.symm]
  exact AlgorithmIdentifier.length_elements k.algorithm

/-- A key info whose writer chose how to state all lengths. -/
structure Layout where
  outer : Framing
  inner : Framing
  oid : Framed
  parameters? : Option (Tag × Framed)
  bits : Framed

namespace Layout

/-- The algorithm identifier. -/
def algorithm (l : Layout) : Framed :=
  ⟨l.inner, l.oid.octets .objectIdentifier ++ l.parameters?.elim [] fun p => p.2.octets p.1⟩

/-- The key info. -/
def keyInfo (l : Layout) : Framed :=
  ⟨l.outer, l.algorithm.octets .sequence ++ l.bits.octets .bitString⟩

/-- The octets of the whole. -/
def octets (l : Layout) : Bytes :=
  l.keyInfo.octets .sequence

/-- All contents whose lengths are stated. -/
def parts (l : Layout) : List Framed :=
  [l.keyInfo, l.algorithm, l.oid, l.bits] ++ l.parameters?.toList.map Prod.snd

end Layout

/-- The parts of an algorithm identifier that has been read are minimal. -/
theorem Layout.isMinimal_of_algorithm_eq {l : Layout} {a : AlgorithmIdentifier}
    (hmax : a.content.length ≤ maxLength) (oid : l.oid.IsStated)
    (parameters : ∀ p, l.parameters? = some p → p.2.IsStated)
    (h : l.algorithm.content = a.content) :
    l.oid.IsMinimal ∧ ∀ p, l.parameters? = some p → p.2.IsMinimal := by
  have hle (v : Value) (hv : v ∈ a.elements) : v.content.length ≤ maxLength :=
    Nat.le_trans (AlgorithmIdentifier.length_le_of_mem_elements hv) hmax
  rw [AlgorithmIdentifier.content_eq_append_elim] at h
  -- the object identifier first, then what is left for the parameters
  obtain ⟨-, hoid, -, hrest⟩ := oid.canonical (hle _ List.mem_cons_self) h
  refine ⟨hoid, fun p hp => ?_⟩
  rw [hp] at hrest
  cases hv : a.parameters with
  | none =>
    -- parameters in the layout are octets, and there are none
    rw [hv] at hrest
    cases hrest
  | some v =>
    rw [hv] at hrest
    have hmem := AlgorithmIdentifier.mem_elements_of_parameters hv
    have hvalue : p.2.octets p.1 ++ [] = encodeTyped v.tag v.content ++ [] :=
      congrArg (· ++ []) hrest
    exact ((parameters p hp).canonical (hle v hmem) hvalue).2.1

/-- Lengths that are stated in another form than DER asks for are refused, wherever they stand. -/
theorem Accepts.isMinimal_of_mem_parts {l : Layout} (stated : ∀ part ∈ l.parts, part.IsStated)
    (h : Accepts l.octets) : ∀ part ∈ l.parts, part.IsMinimal := by
  obtain ⟨k, hmax, hk⟩ := h.exists_encode_eq
  have hcontent : k.content.length ≤ maxLength := Nat.le_trans length_le_encodeTyped hmax
  have halgorithm := Nat.le_trans (length_algorithm_le k) hcontent
  have hbits := Nat.le_trans (length_subjectPublicKey_le k) hcontent
  simp only [Layout.parts, List.forall_mem_cons, List.mem_map, Option.mem_toList,
    List.cons_append, List.nil_append] at stated ⊢
  obtain ⟨houter, hinner, hoid, hkey, hparameters⟩ := stated
  -- from outside to inside, each part is split off the encoding
  have outer := houter.canonical hcontent (s := []) (r := []) (congrArg (· ++ []) hk.symm)
  have inner := hinner.canonical halgorithm outer.2.2.1
  have key := hkey.canonical hbits (s := []) (r := []) (congrArg (· ++ []) inner.2.2.2)
  have algorithm := Layout.isMinimal_of_algorithm_eq halgorithm hoid
    (fun p hp => hparameters p.2 ⟨p, hp, rfl⟩) inner.2.2.1
  refine ⟨outer.2.1, inner.2.1, algorithm.1, key.2.1, ?_⟩
  rintro _ ⟨p, hp, rfl⟩
  exact algorithm.2 p hp

/-- **The codec is a bijection** between the encodable key infos and the inputs it accepts. It
follows that trailing octets and cut-off inputs are refused, a missing or a third element in either
SEQUENCE, and lengths that are stated in more octets than needed or left open. -/
theorem codec_bijective :
    Decoder.Bijection IsEncodable encode ofDer ∧
    (∀ input tail, Accepts input → Accepts (input ++ tail) → tail = []) ∧
    (∀ elements : List Value,
      Accepts (encodeTyped .sequence (elements.flatMap Value.encode)) → elements.length = 2) ∧
    (∀ (elements : List Value) (rest : Bytes),
      Accepts (encodeTyped .sequence
        (encodeTyped .sequence (elements.flatMap Value.encode) ++ rest)) →
      elements.length = 1 ∨ elements.length = 2) ∧
    (∀ l : Layout, (∀ part ∈ l.parts, part.IsStated) → Accepts l.octets →
      ∀ part ∈ l.parts, part.IsMinimal) :=
  ⟨bijection, fun _ _ h h' => h.eq_nil_of_append h', fun _ h => h.length_elements,
    fun _ _ h => h.length_algorithm_elements, fun _ stated h => h.isMinimal_of_mem_parts stated⟩

/-- Three key octets under 1.2.3.4: they are read, but neither with a NULL behind them nor with an
outer length in the long form. -/
theorem codec_bijective_three_octets :
    let k := ofOctets (.ofOid ⟨[0x2a, 0x03, 0x04]⟩) [0x01, 0x02, 0x03]
    let l : Layout := ⟨⟨[0x81, 0x0d], []⟩, ⟨[0x05], []⟩, ⟨⟨[0x03], []⟩, [0x2a, 0x03, 0x04]⟩, none,
      ⟨⟨[0x04], []⟩, [0x00, 0x01, 0x02, 0x03]⟩⟩
    ofDer k.encode = .ok k ∧ ¬ Accepts (k.encode ++ [0x05, 0x00]) ∧ ¬ Accepts l.octets := by
  intro k l
  have hk : ofDer k.encode = .ok k := codec_bijective.1.decode_encode k (by decide +kernel)
  refine ⟨hk, fun h => ?_, fun h => ?_⟩
  -- what goes on behind an encoding would have to go on with nothing
  · cases codec_bijective.2.1 _ _ ⟨k, hk⟩ h
  · have stated : ∀ part ∈ l.parts, part.IsStated := by
      have hlong : StatesLength [0x81, 0x0d] 13 := @StatesLength.long [0x0d] (by decide) (by decide)
      intro part hpart
      simp only [l, Layout.parts, List.cons_append, List.nil_append, Option.toList_none,
        List.map_nil, List.mem_cons, List.not_mem_nil, or_false] at hpart
      rcases hpart with rfl | rfl | rfl | rfl
      · exact ⟨hlong, .inl rfl⟩
      · exact ⟨.short (n := 5) (by decide), .inl rfl⟩
      · exact ⟨.short (n := 3) (by decide), .inl rfl⟩
      · exact ⟨.short (n := 4) (by decide), .inl rfl⟩
    have minimal := codec_bijective.2.2.2.2 l stated h l.keyInfo List.mem_cons_self
    exact absurd minimal.1 (by decide +kernel)

end SubjectPublicKeyInfo

end SignatureCatalog
