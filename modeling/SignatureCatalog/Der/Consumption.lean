import SignatureCatalog.Der.BitString

/-!
# What a decoder consumes

`Decoder.Consumes d size` says that whatever `d` returns has been paid for: a result `a` takes at
least `size a` octets of the window away. The statement composes along `bind`, a window of one's own
and the header of a value, so it is found for a whole structure by walking through its decoder. A
decoder over a whole input therefore returns nothing larger than the input
(`Consumes.le_of_decode`), which is what bounds repeated decoding of nested structures.
-/

namespace SignatureCatalog.Der.Decoder

variable {α β : Type}

/-- A result takes at least its size away from the window. -/
def Consumes (d : Decoder α) (size : α → Nat) : Prop :=
  ∀ c a c', d c = .ok (a, c') → size a + c'.rest.length ≤ c.rest.length

namespace Consumes

/-- The size may be understated. -/
theorem mono {d : Decoder α} {size size' : α → Nat} (h : Consumes d size)
    (le : ∀ a, size' a ≤ size a) : Consumes d size' := by
  intro c a c' hd
  have h₁ := h c a c' hd
  have h₂ := le a
  omega

theorem pure (a : α) : Consumes (Pure.pure a : Decoder α) fun _ => 0 := by
  intro c b c' h
  obtain ⟨rfl, rfl⟩ := pure_eq_ok_iff.1 h
  simp

theorem fail (fault : Fault) (size : α → Nat) : Consumes (Decoder.fail fault) size :=
  fun _ _ _ h => absurd h fail_ne_ok

theorem ofExcept (check : Except Fault α) : Consumes (Decoder.ofExcept check) fun _ => 0 := by
  intro c a c' h
  obtain ⟨_, rfl⟩ := ofExcept_eq_ok_iff.1 h
  simp

/-- One decoder after another consumes what both consume. -/
theorem bind {d : Decoder α} {f : α → Decoder β} {first : α → Nat} {size : β → Nat}
    (hd : Consumes d first) (hf : ∀ a, Consumes (f a) fun b => size b - first a) :
    Consumes (d >>= f) size := by
  intro c b c' h
  obtain ⟨a, c₁, h₁, h₂⟩ := bind_eq_ok_iff.1 h
  have consumed := hd c a c₁ h₁
  have rest := hf a c₁ b c' h₂
  simp only at rest
  omega

/-- Reading octets takes as many away. -/
theorem take (n : Nat) : Consumes (Decoder.take n) List.length := by
  intro c b c' h
  obtain ⟨hn, rfl, rfl⟩ := take_eq_ok_iff.1 h
  simp only [List.length_take, List.length_drop]
  omega

theorem octet : Consumes Decoder.octet fun _ => 1 := by
  intro c b c' h
  obtain ⟨hrest, _, _⟩ := octet_eq_ok_iff.1 h
  simp only [hrest, List.length_cons]
  omega

theorem octets (n : Nat) : Consumes (Decoder.octets n) fun _ => 0 := by
  induction n with
  | zero => exact pure _
  | succ n ih => exact bind octet fun _ => mono (bind ih fun _ => pure _) fun _ => by omega

theorem peek : Consumes Decoder.peek fun _ => 0 := by
  intro c b c' h
  cases h
  simp

/-- A field consumes what its decoder does. -/
theorem field {d : Decoder α} {size : α → Nat} (h : Consumes d size) :
    Consumes (Decoder.field d) size :=
  fun c a c' hf => h c a c' (field_eq_ok_iff.1 hf)

/-- A window of its own does not make a result larger. -/
theorem within {d : Decoder α} {size : α → Nat} (n : Nat) (h : Consumes d size) :
    Consumes (Decoder.within n d) size := by
  intro c a c' hw
  obtain ⟨hn, ⟨c₁, hd, _⟩, rfl⟩ := within_eq_ok_iff.1 hw
  have := h _ a c₁ hd
  simp only [List.length_take, List.length_drop] at this ⊢
  omega

/-- A header has two octets at least. -/
theorem header : Consumes Decoder.header fun _ => 2 := by
  have tag : Consumes Decoder.tag fun _ => 1 :=
    bind octet fun _ => mono (ofExcept _) fun _ => by omega
  have length (t : Tag) : Consumes (Decoder.length t) fun _ => 1 := by
    refine bind octet fun first => ?_
    split
    · exact mono (pure _) fun _ => by omega
    · split
      · exact fail _ _
      · split
        · exact fail _ _
        · exact bind (octets _) fun _ => mono (ofExcept _) fun _ => by omega
  exact bind tag fun t => bind (length t) fun _ => mono (pure _) fun _ => by omega

/-- A value consumes its header and what its content consumes. -/
theorem typed {wanted : Tag} {content : Nat → Decoder α} (size : α → Nat)
    (h : ∀ n, Consumes (content n) size) :
    Consumes (Decoder.typed wanted content) fun a => 2 + size a := by
  refine bind header fun p => ?_
  obtain ⟨t, n⟩ := p
  dsimp only
  split
  · exact mono (h n) fun _ => by omega
  · exact fail _ _

/-- A bit string consumes its octets and one more. -/
theorem bitString : Consumes BitString.decoder fun b => 3 + b.octets.length := by
  refine mono (typed (fun b : BitString => 1 + b.octets.length) fun n => ?_) fun _ => by omega
  unfold BitString.contentDecoder
  split
  · exact fail _ _
  · refine bind octet fun unused => bind (take _) fun octets => ?_
    intro c b c' h
    obtain ⟨hmake, rfl⟩ := ofExcept_eq_ok_iff.1 h
    have : b.octets = octets := by
      unfold BitString.make at hmake
      split at hmake
      · cases hmake; rfl
      · cases hmake
    simp only [this]
    omega

/-- What a whole input decodes to is no larger than the input. -/
theorem le_of_decode {d : Decoder α} {size : α → Nat} (h : Consumes d size) {input : Bytes} {a : α}
    (hd : Decoder.decode d input = .ok a) : size a ≤ input.length := by
  obtain ⟨_, c, hc, hrest⟩ := decode_eq_ok_iff.1 hd
  have := h _ a c hc
  simp only [hrest, List.length_nil] at this
  omega

end Consumes

end SignatureCatalog.Der.Decoder
