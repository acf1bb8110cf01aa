import SignatureCatalog.Proofs.KeyInfo.Payload

/-!
# Unwrapping ends, and undoes wrapping

A payload comes from outside, and nothing limits how deep key infos are nested in it. What bounds
the depth is that payloads are read exactly: a key info that is read from a payload has the payload
for its encoding, and its own payload leaves out twelve octets of that, the least that is needed for
headers and an object identifier (`length_octets_add_le`). A chain of nested key infos is therefore
no longer than a twelfth of the payload it is read from (`length_octets_add_le_of_unwrap`).

`unwrap` repeats the reading so many times, and `unwrap_eq` says that the chain found by `nesting`
is what it goes through. In the other direction `layered` is a key info inside any number of others.
As long as each of them is within the limit, it can be made, and unwrapping it goes back through the
same key infos (`unwrap_layered`). `unwrapping_ends` has both.
-/

namespace SignatureCatalog.SubjectPublicKeyInfo

open Der

variable {k inner s : SubjectPublicKeyInfo} {a : AlgorithmIdentifier}
  {first last algorithms : List AlgorithmIdentifier} {n : Nat}

/-! ### What is nested is smaller -/

/-- The octets around a payload: three headers, the identifier with its own, and the number of
unused bits. -/
theorem length_octets_add_le (decodable : k.oid.IsDecodable) :
    k.subjectPublicKey.octets.length + 12 ≤ k.encode.length := by
  have hoid : 3 ≤ k.algorithm.oid.content.length := decodable.1
  -- from inside to outside, each header adds two octets
  have hidentifier : k.algorithm.oid.content.length + 2 ≤ k.algorithm.content.length := by
    rw [AlgorithmIdentifier.content_eq_append_elim, List.length_append]
    exact Nat.le_trans length_add_two_le_encodeTyped (Nat.le_add_right _ _)
  have halgorithm : k.algorithm.content.length + 2 ≤ k.algorithm.encode.length :=
    length_add_two_le_encodeTyped
  have hbits : k.subjectPublicKey.content.length + 2 ≤ k.subjectPublicKey.encode.length :=
    length_add_two_le_encodeTyped
  have houter : k.content.length + 2 ≤ k.encode.length := length_add_two_le_encodeTyped
  rw [content, List.length_append] at houter
  rw [BitString.content, List.length_cons] at hbits
  omega

/-- A payload is shorter than the encoding of its key info, decodable or not. -/
theorem length_octets_lt (k : SubjectPublicKeyInfo) :
    k.subjectPublicKey.octets.length < k.encode.length :=
  calc k.subjectPublicKey.octets.length
      < k.subjectPublicKey.content.length := Nat.lt_succ_self _
    _ ≤ k.content.length := length_subjectPublicKey_le k
    _ ≤ k.encode.length := length_le_encodeTyped

/-- The payload that a key info is read from is its encoding. -/
theorem octets_eq_of_decodeNested (h : k.decodeNested = .ok inner) :
    k.subjectPublicKey.octets = inner.encode := by
  have hoctets := keyOctets_of_ofEncoding? (decodeNested_eq_ok_iff.mp h).2
  rw [keyOctets_of_aligned (unused_eq_zero_of_keyOctets hoctets)] at hoctets
  exact Except.ok.inj hoctets

/-- The encoding of what is nested is shorter than that of the key info it is read from. -/
theorem length_encode_lt_of_decodeNested (h : k.decodeNested = .ok inner) :
    inner.encode.length < k.encode.length := by
  rw [← octets_eq_of_decodeNested h]
  exact length_octets_lt k

/-- **One level down**, the payload is shorter by twelve octets or more. -/
theorem length_octets_add_le_of_decodeNested (h : k.decodeNested = .ok inner) :
    inner.subjectPublicKey.octets.length + 12 ≤ k.subjectPublicKey.octets.length := by
  rw [octets_eq_of_decodeNested h]
  exact length_octets_add_le (isEncodable_of_decodeNested h).1

/-! ### Unwrapping again and again -/

/-- Unwraps a key info, what is nested in it, and so on, so many times. -/
def unwrap : Nat → SubjectPublicKeyInfo → Except Der.Error SubjectPublicKeyInfo
  | 0, k => .ok k
  | n + 1, k => k.decodeNested.bind (unwrap n)

theorem unwrap_succ_of_ok (h : k.decodeNested = .ok inner) : unwrap (n + 1) k = unwrap n inner := by
  rw [unwrap, h, Except.bind]

theorem unwrap_succ_of_error {e : Der.Error} (h : k.decodeNested = .error e) :
    unwrap (n + 1) k = .error e := by
  rw [unwrap, h, Except.bind]

theorem unwrap_one : unwrap 1 k = k.decodeNested := by
  cases hnested : k.decodeNested with
  | error e => exact unwrap_succ_of_error hnested
  | ok inner => exact unwrap_succ_of_ok hnested

/-- **So many levels down**, the payload is shorter by twelve octets for each. -/
theorem length_octets_add_le_of_unwrap (h : unwrap n k = .ok inner) :
    inner.subjectPublicKey.octets.length + 12 * n ≤ k.subjectPublicKey.octets.length := by
  -- the octets that the levels leave out add up
  induction n generalizing k with
  | zero =>
    cases h
    exact Nat.le_refl _
  | succ n ih =>
    cases hnested : k.decodeNested with
    | error e =>
      rw [unwrap_succ_of_error hnested] at h
      cases h
    | ok next =>
      rw [unwrap_succ_of_ok hnested] at h
      have hstep := length_octets_add_le_of_decodeNested hnested
      have hrest := ih h
      omega

/-- The key infos of a chain, from the outermost to the innermost. -/
def Nesting.levels (n : Nesting) : List SubjectPublicKeyInfo :=
  n.outer ++ [n.innermost]

theorem Nesting.length_levels (n : Nesting) : n.levels.length = n.outer.length + 1 := by
  rw [levels, List.length_append, List.length_singleton]

/-- **Unwrapping goes through the chain**, and behind its end fails for the reason that ends it. -/
theorem unwrap_eq (n : Nat) (k : SubjectPublicKeyInfo) :
    unwrap n k = match k.nesting.levels[n]? with
      | some inner => .ok inner
      | none => .error k.nesting.obstacle := by
  induction n generalizing k with
  | zero =>
    -- the chain starts with the key info itself, whether anything is nested in it or not
    cases hnested : k.decodeNested with
    | error e =>
      rw [nesting_of_error hnested]
      rfl
    | ok inner =>
      rw [nesting_of_ok hnested]
      rfl
  | succ n ih =>
    cases hnested : k.decodeNested with
    | error e =>
      rw [unwrap_succ_of_error hnested, nesting_of_error hnested]
      rfl
    | ok inner =>
      -- one level on, with the chain that is left from there
      rw [unwrap_succ_of_ok hnested, nesting_of_ok hnested]
      exact ih inner

theorem unwrap_eq_ok_iff : unwrap n k = .ok inner ↔ k.nesting.levels[n]? = some inner := by
  rw [unwrap_eq]
  cases k.nesting.levels[n]? with
  | none => exact iff_of_false nofun nofun
  | some level => rw [Except.ok.injEq, Option.some.injEq]

theorem unwrap_eq_error_iff {e : Der.Error} :
    unwrap n k = .error e ↔ k.nesting.outer.length < n ∧ k.nesting.obstacle = e := by
  have hlength := k.nesting.length_levels
  rw [unwrap_eq]
  cases hlevel : k.nesting.levels[n]? with
  | none =>
    -- the chain has one level more than there are outer ones, so behind the last is behind these
    have hle := List.getElem?_eq_none_iff.mp hlevel
    rw [Except.error.injEq]
    exact (and_iff_right (by omega)).symm
  | some level =>
    have hlt := (List.getElem?_eq_some_iff.mp hlevel).1
    exact iff_of_false nofun fun h => by omega

/-- The chain has no more levels below the first than there is room for in the payload. -/
theorem length_outer_nesting_le (k : SubjectPublicKeyInfo) :
    12 * k.nesting.outer.length ≤ k.subjectPublicKey.octets.length := by
  -- the innermost level is reached by so many unwrappings, which the payload has paid for
  have hlast : k.nesting.levels[k.nesting.outer.length]? = some k.nesting.innermost :=
    List.getElem?_concat_length
  have hle := length_octets_add_le_of_unwrap (unwrap_eq_ok_iff.mpr hlast)
  omega

/-! ### Wrapping again and again -/

/-- Wraps a key info in one algorithm after the other, so that the last one is the outermost. -/
def wrapAll? (s : SubjectPublicKeyInfo) (algorithms : List AlgorithmIdentifier) :
    Except Der.Error SubjectPublicKeyInfo :=
  algorithms.foldlM (fun inner a => wrap? a inner) s

/-- The key info that wrapping comes to, whatever its length. -/
def layered (s : SubjectPublicKeyInfo) (algorithms : List AlgorithmIdentifier) :
    SubjectPublicKeyInfo :=
  algorithms.foldl (fun inner a => wrap a inner) s

theorem wrapAll?_append_singleton :
    wrapAll? s (algorithms ++ [a]) = (wrapAll? s algorithms).bind (wrap? a) := by
  simp only [wrapAll?, List.foldlM_append, List.foldlM_cons, List.foldlM_nil, bind_pure]
  rfl

theorem layered_append_singleton :
    layered s (algorithms ++ [a]) = wrap a (layered s algorithms) := by
  rw [layered, List.foldl_append]
  rfl

/-- Without the last layer the encoding is no longer than with it. -/
theorem length_encode_layered_dropLast_le :
    (layered s algorithms.dropLast).encode.length ≤ (layered s algorithms).encode.length := by
  rcases List.eq_nil_or_concat algorithms with rfl | ⟨algorithms, a, rfl⟩
  · exact Nat.le_refl _
  · rw [List.concat_eq_append, List.dropLast_concat, layered_append_singleton]
    exact Nat.le_of_lt (length_octets_lt (wrap a (layered s algorithms)))

/-- What is wrapped in algorithms with decodable identifiers has one itself. -/
theorem isDecodable_layered (hs : s.oid.IsDecodable)
    (decodable : ∀ a ∈ algorithms, a.oid.IsDecodable) : (layered s algorithms).oid.IsDecodable := by
  rcases List.eq_nil_or_concat algorithms with rfl | ⟨algorithms, a, rfl⟩
  · exact hs
  · rw [List.concat_eq_append] at decodable ⊢
    rw [layered_append_singleton]
    exact decodable a List.mem_concat_self

/-- **Wrapping succeeds** exactly if what goes into the last layer is within the limit. -/
theorem wrapAll?_eq_ok_iff (hs : s.encode.length ≤ maxLength) :
    wrapAll? s algorithms = .ok k ↔
      (layered s algorithms.dropLast).encode.length ≤ maxLength ∧ layered s algorithms = k := by
  -- from the back, because the last layer is the longest and the limit is a matter of it alone
  induction algorithms using List.reverseRecOn generalizing k with
  | nil =>
    change Except.ok s = Except.ok k ↔ _
    rw [Except.ok.injEq]
    exact (and_iff_right hs).symm
  | append_singleton algorithms a ih =>
    rw [wrapAll?_append_singleton, List.dropLast_concat, layered_append_singleton]
    constructor
    · intro h
      cases hbefore : wrapAll? s algorithms with
      | error e =>
        rw [hbefore] at h
        cases h
      | ok m =>
        obtain ⟨-, rfl⟩ := ih.mp hbefore
        rw [hbefore, Except.bind] at h
        exact ofEncoding?_eq_ok_iff.mp h
    · rintro ⟨hmax, rfl⟩
      -- what went into the layers before was shorter
      have hbefore := ih.mpr ⟨Nat.le_trans length_encode_layered_dropLast_le hmax, rfl⟩
      rw [hbefore, Except.bind]
      exact ofEncoding?_eq_ok_iff.mpr ⟨hmax, rfl⟩

/-- **Unwrapping takes off the last layers**, as many as there are unwrappings. -/
theorem unwrap_layered (hs : s.oid.IsDecodable)
    (decodable : ∀ a ∈ first ++ last, a.oid.IsDecodable)
    (hmax : (layered s (first ++ last).dropLast).encode.length ≤ maxLength) :
    unwrap last.length (layered s (first ++ last)) = .ok (layered s first) := by
  -- from the back, where the layer is that comes off
  induction last using List.reverseRecOn with
  | nil =>
    rw [List.append_nil]
    rfl
  | append_singleton last a ih =>
    rw [← List.append_assoc] at decodable hmax ⊢
    rw [List.dropLast_concat] at hmax
    have hothers : ∀ b ∈ first ++ last, b.oid.IsDecodable :=
      fun b hb => decodable b (List.mem_append_left _ hb)
    -- the outermost layer comes off first, and shows what it was put around
    have hnested : (wrap a (layered s (first ++ last))).decodeNested =
        .ok (layered s (first ++ last)) :=
      decodeNested_wrap ⟨isDecodable_layered hs hothers, hmax⟩
    rw [layered_append_singleton, List.length_append, List.length_singleton,
      unwrap_succ_of_ok hnested]
    exact ih hothers (Nat.le_trans length_encode_layered_dropLast_le hmax)

/-- **Unwrapping ends, and undoes wrapping.** What is nested is shorter than what it is read from.
Unwrapping a key info again and again goes through the levels of its chain, of which there are no
more below the first than a twelfth of the octets of the payload, and then fails for good. A key
info that is wrapped in one algorithm after the other, as far as the limit allows, is unwrapped to
the same key infos in reverse order, and in the end to itself. -/
theorem unwrapping_ends :
    (∀ k inner : SubjectPublicKeyInfo, k.decodeNested = .ok inner →
      inner.encode.length < k.encode.length) ∧
    (∀ k : SubjectPublicKeyInfo,
      12 * k.nesting.outer.length ≤ k.subjectPublicKey.octets.length ∧
      (∀ n inner, unwrap n k = .ok inner ↔ k.nesting.levels[n]? = some inner) ∧
      ∀ n e, unwrap n k = .error e ↔ k.nesting.outer.length < n ∧ k.nesting.obstacle = e) ∧
    ∀ (s : SubjectPublicKeyInfo) (algorithms : List AlgorithmIdentifier), s.IsEncodable →
      (∀ a ∈ algorithms, a.oid.IsDecodable) →
      ((∃ k, wrapAll? s algorithms = .ok k) ↔
        (layered s algorithms.dropLast).encode.length ≤ maxLength) ∧
      ∀ k, wrapAll? s algorithms = .ok k → ∀ first last, algorithms = first ++ last →
        unwrap last.length k = .ok (layered s first) := by
  refine ⟨fun k inner => length_encode_lt_of_decodeNested, fun k => ?_, fun s algorithms hs => ?_⟩
  · exact ⟨length_outer_nesting_le k, fun n inner => unwrap_eq_ok_iff,
      fun n e => unwrap_eq_error_iff⟩
  · intro decodable
    refine ⟨⟨?_, fun hmax => ⟨_, (wrapAll?_eq_ok_iff hs.2).mpr ⟨hmax, rfl⟩⟩⟩, fun k h => ?_⟩
    · rintro ⟨k, h⟩
      -- what has been made has passed the check on its last layer
      exact ((wrapAll?_eq_ok_iff hs.2).mp h).1
    · obtain ⟨hmax, rfl⟩ := (wrapAll?_eq_ok_iff hs.2).mp h
      rintro first last rfl
      exact unwrap_layered hs.1 decodable hmax

/-- A NULL under 1.2.3.4, wrapped for 1.2.3.5 and then for 1.2.3.6, is unwrapped in two steps. -/
theorem unwrapping_ends_two_layers :
    let s := ofOctets (.ofOid ⟨[0x2a, 0x03, 0x04]⟩) [0x05, 0x00]
    let a : AlgorithmIdentifier := .ofOid ⟨[0x2a, 0x03, 0x05]⟩
    let b : AlgorithmIdentifier := .ofOid ⟨[0x2a, 0x03, 0x06]⟩
    ∃ k, wrapAll? s [a, b] = .ok k ∧ unwrap 1 k = .ok (wrap a s) ∧ unwrap 2 k = .ok s ∧
      (wrap a s).encode.length < k.encode.length ∧ s.encode.length < (wrap a s).encode.length := by
  intro s a b
  obtain ⟨shorter, -, wraps⟩ := unwrapping_ends
  obtain ⟨succeeds, unwraps⟩ := wraps s [a, b] (by decide +kernel) (by decide)
  obtain ⟨k, hk⟩ := succeeds.mpr (by decide +kernel)
  have hone : unwrap 1 k = .ok (wrap a s) := unwraps k hk [a] [b] rfl
  have htwo : unwrap 2 k = .ok s := unwraps k hk [] [a, b] rfl
  have houter : k.decodeNested = .ok (wrap a s) := unwrap_one.symm.trans hone
  have hinner : (wrap a s).decodeNested = .ok s := by
    -- two unwrappings are one, and then one of what that comes to
    rw [unwrap_succ_of_ok houter, unwrap_one] at htwo
    exact htwo
  exact ⟨k, hk, hone, htwo, shorter k _ houter, shorter _ s hinner⟩

end SignatureCatalog.SubjectPublicKeyInfo
