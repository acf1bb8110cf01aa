import SignatureCatalog.Der.Value
import SignatureCatalog.Proofs.Der.Grammar
import SignatureCatalog.Proofs.Der.Length

/-!
# Exact decoders

A decoder is *exact* for an encoder if it returns a value exactly where the encoding of that value
stands next in the window, and then moves behind it and does nothing else. Which values count is a
predicate `ok`, so the statement is an equivalence and says three things at once: what was written
is read back, what is read is `ok` and was written so, and nothing else is accepted.

That is to read a grammar with one string of octets to a value (`exactBefore_iff_reads`), and it
composes as grammars do. `Exact.bind` puts one decoder after another, `Exact.typed` adds a header,
`ExactAtEnd.within` a window of its own; `ExactAtEnd.decode_eq_ok_iff` is what it comes to over a
whole input.

`Exact.bind` is told how the result of the first decoder is found in the result of both. That is
enough here, since whatever is read becomes part of what is returned.
-/

namespace SignatureCatalog.Der

namespace Decoder

variable {α β : Type}

/-! ### Exactness -/

/-- Where what follows is as required, a decoder returns a value exactly if the value is `ok` and
its encoding has been passed. -/
def ExactBefore (follows : Bytes → Prop) (d : Decoder α) (ok : α → Prop) (encode : α → Bytes) :
    Prop :=
  ∀ (c : Cursor) (a : α) (c' : Cursor), follows c'.rest →
    (d c = .ok (a, c') ↔ ok a ∧ c.Passes (encode a) c')

/-- Exact whatever follows. -/
abbrev Exact (d : Decoder α) (ok : α → Prop) (encode : α → Bytes) : Prop :=
  ExactBefore (fun _ => True) d ok encode

/-- Exact at the end of a window. -/
abbrev ExactAtEnd (d : Decoder α) (ok : α → Prop) (encode : α → Bytes) : Prop :=
  ExactBefore (· = []) d ok encode

section

variable {follows : Bytes → Prop} {d : Decoder α} {ok ok' : α → Prop} {encode encode' : α → Bytes}

/-- Which values count may be put in other words, and so may the encodings of those that do. -/
theorem ExactBefore.congr (h : ExactBefore follows d ok encode) (hok : ∀ a, ok' a ↔ ok a)
    (hencode : ∀ a, ok a → encode' a = encode a) : ExactBefore follows d ok' encode' := by
  intro c a c' hfollows
  rw [h c a c' hfollows, hok a]
  constructor
  · rintro ⟨ha, hpasses⟩
    exact ⟨ha, (hencode a ha).symm ▸ hpasses⟩
  · rintro ⟨ha, hpasses⟩
    exact ⟨ha, hencode a ha ▸ hpasses⟩

/-- Exact decoders read a grammar with one string of octets to a value. -/
theorem exactBefore_iff_reads : ExactBefore follows d ok encode ↔
    ReadsBefore follows d fun a octets => ok a ∧ octets = encode a := by
  -- the one string of octets that is quantified over is the encoding
  have hone (c : Cursor) (a : α) (c' : Cursor) :
      (∃ octets, (ok a ∧ octets = encode a) ∧ c.Passes octets c') ↔
        ok a ∧ c.Passes (encode a) c' := by
    constructor
    · rintro ⟨_, ⟨ha, rfl⟩, hpasses⟩
      exact ⟨ha, hpasses⟩
    · rintro ⟨ha, hpasses⟩
      exact ⟨encode a, ⟨ha, rfl⟩, hpasses⟩
  exact forall_congr' fun c => forall_congr' fun a => forall_congr' fun c' =>
    imp_congr_right fun _ => by rw [hone c a c']

theorem ExactBefore.reads (h : ExactBefore follows d ok encode) :
    ReadsBefore follows d fun a octets => ok a ∧ octets = encode a :=
  exactBefore_iff_reads.mp h

theorem Exact.before (h : Exact d ok encode) : ExactBefore follows d ok encode :=
  fun c a c' _ => h c a c' trivial

theorem ExactBefore.field (h : ExactBefore follows d ok encode) :
    ExactBefore follows (field d) ok encode :=
  fun c a c' hfollows => field_eq_ok_iff.trans (h c a c' hfollows)

theorem Exact.field (h : Exact d ok encode) : Exact (Decoder.field d) ok encode :=
  ExactBefore.field h

theorem exact_pure (a : α) : Exact (pure a : Decoder α) (· = a) fun _ => [] := by
  intro c b c' _
  rw [pure_eq_ok_iff, Cursor.passes_nil_iff]

theorem exact_fail (fault : Fault) (encode : α → Bytes) :
    Exact (fail fault) (fun _ => False) encode := by
  intro c a c' _
  rw [false_and, iff_false]
  exact fail_ne_ok

/-- **One decoder after another.** The result of the first is part `first b` of the result `b` of
both, and its encoding comes first. -/
theorem Exact.bind {f : α → Decoder β} {ok' : β → Prop} {encode' : β → Bytes} (first : β → α)
    (hd : Exact d ok encode)
    (hf : ∀ a, ExactBefore follows (f a) (fun b => first b = a ∧ ok' b) encode') :
    ExactBefore follows (d >>= f) (fun b => ok (first b) ∧ ok' b)
      (fun b => encode (first b) ++ encode' b) := by
  intro c b c' hfollows
  rw [bind_eq_ok_iff, Cursor.passes_append_iff]
  constructor
  · -- what the first has read is found in the result of the second
    rintro ⟨a, c₁, h₁, h₂⟩
    obtain ⟨ha, hpasses⟩ := (hd c a c₁ trivial).mp h₁
    obtain ⟨⟨rfl, hb⟩, hpasses'⟩ := (hf a c₁ b c' hfollows).mp h₂
    exact ⟨⟨ha, hb⟩, c₁, hpasses, hpasses'⟩
  · -- where the encoding of the result stands, the first reads its part of it
    rintro ⟨⟨ha, hb⟩, c₁, hpasses, hpasses'⟩
    exact ⟨first b, c₁, (hd c _ c₁ trivial).mpr ⟨ha, hpasses⟩,
      (hf _ c₁ b c' hfollows).mpr ⟨⟨rfl, hb⟩, hpasses'⟩⟩

/-- A check on what has been read reads nothing itself. What passes it must show what was read. -/
theorem ExactBefore.check (h : ExactBefore follows d ok encode) (check : α → Except Fault β)
    (first : β → α) (ok' : β → Prop)
    (hcheck : ∀ a b, check a = .ok b ↔ first b = a ∧ ok' b) :
    ExactBefore follows (do let a ← d; ofExcept (check a)) (fun b => ok (first b) ∧ ok' b)
      (fun b => encode (first b)) := by
  intro c b c' hfollows
  rw [bind_eq_ok_iff]
  constructor
  -- the check moves no cursor, so the decoder before it has stopped where both do
  · rintro ⟨a, c₁, hd, hofExcept⟩
    obtain ⟨hb, rfl⟩ := ofExcept_eq_ok_iff.mp hofExcept
    obtain ⟨rfl, hok'⟩ := (hcheck a b).mp hb
    obtain ⟨hok, hpasses⟩ := (h c _ c' hfollows).mp hd
    exact ⟨⟨hok, hok'⟩, hpasses⟩
  · rintro ⟨⟨hok, hok'⟩, hpasses⟩
    have hb := (hcheck (first b) b).mpr ⟨rfl, hok'⟩
    exact ⟨first b, c', (h c _ c' hfollows).mpr ⟨hok, hpasses⟩, ofExcept_eq_ok_iff.mpr ⟨hb, rfl⟩⟩

theorem ExactBefore.map (h : ExactBefore follows d ok encode) (g : α → β) (first : β → α)
    (ok' : β → Prop) (hg : ∀ a b, g a = b ↔ first b = a ∧ ok' b) :
    ExactBefore follows (do let a ← d; pure (g a)) (fun b => ok (first b) ∧ ok' b)
      (fun b => encode (first b)) :=
  h.check (fun a => .ok (g a)) first ok' fun a b => by rw [Except.ok.injEq, hg]

/-- A window of its own is read to its end, so what is read is as long as the window. -/
theorem ExactAtEnd.within (h : ExactAtEnd d ok encode) (n : Nat) :
    Exact (within n d) (fun a => ok a ∧ (encode a).length = n) encode := by
  refine exactBefore_iff_reads.mpr ((ReadsAtEnd.within h.reads n).congr fun a octets => ?_)
  constructor
  · rintro ⟨⟨ha, hlength⟩, rfl⟩
    exact ⟨⟨ha, rfl⟩, hlength⟩
  · rintro ⟨⟨ha, rfl⟩, hlength⟩
    exact ⟨⟨ha, hlength⟩, rfl⟩

/-- **Exactness over a whole input.** The inputs that are accepted are the encodings within the
limit. -/
theorem ExactAtEnd.decode_eq_ok_iff (h : ExactAtEnd d ok encode) {input : Bytes} {a : α} :
    decode d input = .ok a ↔ (ok a ∧ (encode a).length ≤ maxLength) ∧ encode a = input := by
  rw [ReadsAtEnd.decode_eq_ok_iff h.reads]
  constructor
  · rintro ⟨⟨ha, rfl⟩, hmax⟩
    exact ⟨⟨ha, hmax⟩, rfl⟩
  · rintro ⟨⟨ha, hmax⟩, rfl⟩
    exact ⟨⟨ha, rfl⟩, hmax⟩

/-- An encoder and a decoder are inverse to each other between the values that count and the inputs
that are accepted. -/
structure Bijection (valid : α → Prop) (encode : α → Bytes) (decode : Bytes → Except Error α) :
    Prop where
  /-- What is written is read back. -/
  decode_encode : ∀ a, valid a → decode (encode a) = .ok a
  /-- What is read counts, and was written so. -/
  encode_decode : ∀ input a, decode input = .ok a → valid a ∧ encode a = input
  /-- No value is read from two inputs. -/
  injective : ∀ input input' a, decode input = .ok a → decode input' = .ok a → input = input'

theorem ExactAtEnd.bijection {valid : α → Prop} (h : ExactAtEnd d ok encode)
    (hvalid : ∀ a, valid a ↔ ok a ∧ (encode a).length ≤ maxLength) :
    Bijection valid encode (decode d) where
  decode_encode a ha := h.decode_eq_ok_iff.mpr ⟨(hvalid a).mp ha, rfl⟩
  encode_decode input a hd := by
    obtain ⟨ha, hinput⟩ := h.decode_eq_ok_iff.mp hd
    exact ⟨(hvalid a).mpr ha, hinput⟩
  injective input input' a hd hd' := by
    rw [← (h.decode_eq_ok_iff.mp hd).2, ← (h.decode_eq_ok_iff.mp hd').2]

/-- An input is read as a value exactly if the value counts and was written so. -/
theorem Bijection.read_eq_ok_iff {valid : α → Prop} {read : Bytes → Except Error α}
    (h : Bijection valid encode read) {input : Bytes} {a : α} :
    read input = .ok a ↔ valid a ∧ encode a = input := by
  constructor
  · exact h.encode_decode input a
  · rintro ⟨ha, rfl⟩
    exact h.decode_encode a ha

/-- **Accepted inputs are prefix-free.** An input that goes on behind an accepted one is not
accepted, nor is one that has been cut off an accepted one. -/
theorem Exact.eq_nil_of_decode_append (h : Exact d ok encode) {input tail : Bytes} {a a' : α}
    (hd : decode d input = .ok a) (hd' : decode d (input ++ tail) = .ok a') : tail = [] := by
  obtain ⟨⟨ha, -⟩, hinput⟩ := ExactAtEnd.decode_eq_ok_iff h.before |>.mp hd
  obtain ⟨-, c, hc, hend⟩ := Decoder.decode_eq_ok_iff.mp hd'
  -- the decoder stops where the first input ends, whatever stands behind it
  have hstop : d ⟨0, 0, input ++ tail⟩ = .ok (a, ⟨0, 0 + (encode a).length, tail⟩) :=
    (h _ a _ trivial).mpr ⟨ha, ⟨by rw [hinput], rfl, rfl⟩⟩
  rw [hc, Except.ok.injEq, Prod.mk.injEq] at hstop
  rw [← hend, hstop.2]

end

/-! ### Octets -/

theorem exact_octet : Exact octet (fun _ => True) fun b => [b] := by
  intro c b c' _
  rw [octet_eq_ok_iff, true_and]
  constructor
  · rintro ⟨hrest, hoffset, hstart⟩
    exact ⟨hrest, hoffset, hstart⟩
  · rintro ⟨hrest, hoffset, hstart⟩
    exact ⟨hrest, hoffset, hstart⟩

theorem exact_take (n : Nat) : Exact (take n) (fun b => b.length = n) id := by
  intro c b c' _
  rw [take_eq_ok_iff, id, Cursor.passes_iff]
  constructor
  · rintro ⟨hn, hb, hc'⟩
    have hlength : b.length = n := by rw [hb, List.length_take, Nat.min_eq_left hn]
    refine ⟨hlength, ?_⟩
    rw [hlength]
    exact ⟨hn, hb, hc'⟩
  · rintro ⟨rfl, h⟩
    exact h

theorem exact_octets (n : Nat) : Exact (octets n) (fun b => b.length = n) id := by
  -- by induction on the number, as the octets are read one by one
  induction n with
  | zero =>
    refine (exact_pure []).congr (fun b => List.length_eq_zero_iff) ?_
    rintro _ rfl
    rfl
  | succ n ih =>
    intro c b c' _
    rw [octets, bind_eq_ok_iff]
    constructor
    · rintro ⟨first, c₁, hfirst, hrest⟩
      obtain ⟨rest, c₂, hrest, hpure⟩ := bind_eq_ok_iff.mp hrest
      obtain ⟨rfl, rfl⟩ := pure_eq_ok_iff.mp hpure
      obtain ⟨-, hpasses⟩ := (exact_octet c first c₁ trivial).mp hfirst
      obtain ⟨hlength, hpasses'⟩ := (ih c₁ rest c' trivial).mp hrest
      exact ⟨congrArg (· + 1) hlength, Cursor.passes_append_iff.mpr ⟨c₁, hpasses, hpasses'⟩⟩
    · rintro ⟨hlength, hpasses⟩
      -- there is a first octet, and what is passed parts behind it
      obtain ⟨first, rest, rfl⟩ := List.exists_cons_of_length_eq_add_one hlength
      obtain ⟨c₁, hpasses, hpasses'⟩ :=
        Cursor.passes_append_iff.mp (show c.Passes ([first] ++ rest) c' from hpasses)
      have hfirst := (exact_octet c first c₁ trivial).mpr ⟨trivial, hpasses⟩
      have hrest := (ih c₁ rest c' trivial).mpr ⟨Nat.succ.inj hlength, hpasses'⟩
      exact ⟨first, c₁, hfirst,
        bind_eq_ok_iff.mpr ⟨rest, c', hrest, pure_eq_ok_iff.mpr ⟨rfl, rfl⟩⟩⟩

/-! ### Headers -/

theorem exact_tag : Exact tag (fun _ => True) fun t => [t.octet] := by
  refine (exact_octet.check Tag.ofOctet Tag.octet (fun _ => True) fun b t => ?_).congr
    (fun _ => (and_self_iff).symm) fun _ _ => rfl
  rw [and_true]
  constructor
  · exact Tag.octet_of_ofOctet
  · rintro rfl
    exact Tag.ofOctet_octet t

/-- **A length is read in the one form in which it is written.** -/
theorem exact_length (t : Tag) : Exact (length t) (· ≤ maxLength) encodeLength := by
  intro c n c' _
  rw [length, bind_eq_ok_iff]
  constructor
  · rintro ⟨first, c₁, hfirst, h⟩
    obtain ⟨-, hpasses⟩ := (exact_octet c first c₁ trivial).mp hfirst
    split at h
    · next hshort =>
      -- short form: the octet is the length
      obtain ⟨rfl, rfl⟩ := pure_eq_ok_iff.mp h
      have hmax : first.toNat ≤ maxLength := by rw [maxLength]; omega
      rw [encodeLength_of_lt hshort, UInt8.ofNat_toNat]
      exact ⟨hmax, hpasses⟩
    · next hlong =>
      split at h
      · exact absurd h fail_ne_ok
      · next hdefinite =>
        split at h
        · exact absurd h fail_ne_ok
        · -- long form: the octets that follow are those of the length itself
          obtain ⟨long, c₂, hoctets, hcheck⟩ := bind_eq_ok_iff.mp h
          obtain ⟨hlength, hpasses'⟩ := (exact_octets _ c₁ long c₂ trivial).mp hoctets
          obtain ⟨hvalue, rfl⟩ := ofExcept_eq_ok_iff.mp hcheck
          have ne : long ≠ [] := fun hnil => by
            rw [hnil, List.length_nil] at hlength
            omega
          obtain ⟨hmax, hle, rfl⟩ := (lengthOfOctets_eq_ok_iff ne).mp hvalue
          have : 0x80 + (Bytes.bigEndian n).length = first.toNat := by omega
          rw [encodeLength_of_le hle, this, UInt8.ofNat_toNat]
          exact ⟨hmax, Cursor.passes_append_iff.mpr ⟨c₁, hpasses, hpasses'⟩⟩
  · rintro ⟨hmax, hpasses⟩
    by_cases hshort : n < 0x80
    -- short form: the length is an octet, and below the mark of the long form
    · rw [encodeLength_of_lt hshort] at hpasses
      have htoNat : (UInt8.ofNat n).toNat = n := by rw [UInt8.toNat_ofNat']; omega
      refine ⟨UInt8.ofNat n, c', (exact_octet c _ c' trivial).mpr ⟨trivial, hpasses⟩, ?_⟩
      rw [htoNat, if_pos hshort]
      exact pure_eq_ok_iff.mpr ⟨rfl, rfl⟩
    · rw [encodeLength_of_le (by omega)] at hpasses
      -- long form: the octet with the count comes first, the octets of the length behind it
      obtain ⟨c₁, hpasses, hpasses'⟩ := Cursor.passes_append_iff.mp
        (show c.Passes ([UInt8.ofNat (0x80 + (Bytes.bigEndian n).length)] ++ Bytes.bigEndian n) c'
          from hpasses)
      have ne := Bytes.bigEndian_ne_nil (show n ≠ 0 by omega)
      have hpos : (Bytes.bigEndian n).length ≠ 0 := mt List.length_eq_zero_iff.mp ne
      have hfour := length_bigEndian_le_four hmax
      refine ⟨_, c₁, (exact_octet c _ c₁ trivial).mpr ⟨trivial, hpasses⟩, ?_⟩
      -- the first octet says how many follow, so every check on it passes
      rw [toNat_ofNat_length_bigEndian hmax, if_neg (by omega), if_neg (by omega),
        if_neg (by omega), Nat.add_sub_cancel_left]
      refine bind_eq_ok_iff.mpr ⟨Bytes.bigEndian n, c',
        (exact_octets _ c₁ _ c' trivial).mpr ⟨rfl, hpasses'⟩, ofExcept_eq_ok_iff.mpr ⟨?_, rfl⟩⟩
      exact (lengthOfOctets_eq_ok_iff ne).mpr ⟨hmax, by omega, rfl⟩

theorem exact_header :
    Exact header (fun p => p.2 ≤ maxLength) fun p => p.1.octet :: encodeLength p.2 := by
  -- reading the length returns the pair, in which `Exact.bind` finds the tag again
  have hlength (t : Tag) : Exact (do let n ← length t; pure (t, n) : Decoder (Tag × Nat))
      (fun p => p.1 = t ∧ p.2 ≤ maxLength) fun p => encodeLength p.2 := by
    refine ((exact_length t).map (fun n => (t, n)) Prod.snd (fun p => p.1 = t)
      fun n p => ?_).congr
      (fun p => and_comm) fun _ _ => rfl
    rw [Prod.ext_iff, and_comm, eq_comm, eq_comm (a := t)]
  exact (exact_tag.bind Prod.fst hlength).congr (fun p => (true_and _).symm ▸ Iff.rfl)
    fun _ _ => rfl

/-- **A value of one type.** Its content is read wherever the length is known. -/
theorem Reads.typed {content : Nat → Decoder α} {g : Grammar α} (wanted : Tag)
    (h : ∀ n, Reads (content n) fun a octets => g a octets ∧ octets.length = n) :
    Reads (Decoder.typed wanted content) fun a octets =>
      ∃ content, (g a content ∧ content.length ≤ maxLength) ∧
        octets = encodeTyped wanted content := by
  intro c a c' _
  rw [Decoder.typed, bind_eq_ok_iff]
  constructor
  · rintro ⟨⟨t, n⟩, c₁, hheader, hcontent⟩
    obtain ⟨hmax, hpasses⟩ := (exact_header c (t, n) c₁ trivial).mp hheader
    dsimp only at hcontent
    split at hcontent
    · next ht =>
      -- the length in the header is that of the content, which the grammar of the content knows
      obtain ⟨octets, ⟨hg, hlength⟩, hpasses'⟩ := (h n c₁ a c' trivial).mp hcontent
      subst ht hlength
      exact ⟨encodeTyped t octets, ⟨octets, ⟨hg, hmax⟩, rfl⟩,
        Cursor.passes_append_iff.mpr ⟨c₁, hpasses, hpasses'⟩⟩
    · exact absurd hcontent fail_ne_ok
  · rintro ⟨_, ⟨octets, ⟨hg, hmax⟩, rfl⟩, hpasses⟩
    obtain ⟨c₁, hpasses, hpasses'⟩ := Cursor.passes_append_iff.mp
      (show c.Passes ((wanted.octet :: encodeLength octets.length) ++ octets) c' from hpasses)
    refine ⟨(wanted, octets.length), c₁, (exact_header c _ c₁ trivial).mpr ⟨hmax, hpasses⟩, ?_⟩
    dsimp only
    rw [if_pos rfl]
    exact (h _ c₁ a c' trivial).mpr ⟨octets, ⟨hg, rfl⟩, hpasses'⟩

/-- If the content is read exactly wherever its length is known, then the value is read exactly. -/
theorem Exact.typed {content : Nat → Decoder α} {ok : α → Prop} {encode : α → Bytes} (wanted : Tag)
    (h : ∀ n, Exact (content n) (fun a => ok a ∧ (encode a).length = n) encode) :
    Exact (Decoder.typed wanted content) (fun a => ok a ∧ (encode a).length ≤ maxLength)
      fun a => encodeTyped wanted (encode a) := by
  -- Not from `Exact.bind`: the header is no part of the value. The rule for grammars needs none,
  -- so the content is turned into a grammar and the result back.
  have hcontent (n : Nat) :
      Reads (content n) fun a octets => (ok a ∧ octets = encode a) ∧ octets.length = n := by
    refine (h n).reads.congr fun a octets => ?_
    constructor
    · rintro ⟨⟨ha, rfl⟩, hlength⟩
      exact ⟨⟨ha, hlength⟩, rfl⟩
    · rintro ⟨⟨ha, hlength⟩, rfl⟩
      exact ⟨⟨ha, rfl⟩, hlength⟩
  refine exactBefore_iff_reads.mpr ((Reads.typed wanted hcontent).congr fun a octets => ?_)
  constructor
  · rintro ⟨⟨ha, hmax⟩, rfl⟩
    exact ⟨encode a, ⟨⟨ha, rfl⟩, hmax⟩, rfl⟩
  · rintro ⟨_, ⟨⟨ha, rfl⟩, hmax⟩, rfl⟩
    exact ⟨⟨ha, hmax⟩, rfl⟩

/-- **An OCTET STRING is read exactly**, whatever its octets are. -/
theorem exact_octetString :
    Exact (Decoder.typed .octetString take) (fun b => b.length ≤ maxLength)
      (encodeTyped .octetString) := by
  have htake (n : Nat) : Exact (take n) (fun b => True ∧ b.length = n) id :=
    (exact_take n).congr (fun b => true_and _ ▸ Iff.rfl) fun _ _ => rfl
  exact (Exact.typed .octetString htake).congr (fun b => (true_and _).symm ▸ Iff.rfl) fun _ _ => rfl

end Decoder

end SignatureCatalog.Der
