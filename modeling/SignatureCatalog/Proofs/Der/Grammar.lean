import SignatureCatalog.Der.Decoder

/-!
# Decoders and grammars

What a decoder makes of octets is stated as a relation: a *grammar* tells which octets a value may
be read from. A decoder *reads* a grammar if it returns a value exactly where octets of the value
stand next in the window, and then moves behind them and does nothing else (`Reads`). The statement
is an equivalence and says two things at once: octets of the grammar are read, and nothing else is
accepted.

It composes: `Reads.bind` puts one decoder after another, `ReadsAtEnd.within` gives a decoder a
window of its own, and `ReadsAtEnd.decode_eq_ok_iff` is what it comes to over a whole input. A value
that may be left out at the end of a window is read only where the window ends behind it, which is
what `ReadsBefore` provides for: it restricts the statement to what follows.
-/

namespace SignatureCatalog.Der

/-! ### Passing octets -/

/-- From one cursor to the other some octets have been read, and nothing else has happened. -/
structure Cursor.Passes (c : Cursor) (octets : Bytes) (c' : Cursor) : Prop where
  rest_eq : c.rest = octets ++ c'.rest
  offset_eq : c'.offset = c.offset + octets.length
  start_eq : c'.start = c.start

namespace Cursor

variable {c c' : Cursor} {a b : Bytes}

theorem passes_nil_iff : c.Passes [] c' ↔ c' = c := by
  constructor
  · rintro ⟨hrest, hoffset, hstart⟩
    cases c
    cases c'
    simp_all
  · rintro rfl
    exact ⟨rfl, rfl, rfl⟩

theorem passes_append_iff : c.Passes (a ++ b) c' ↔ ∃ c₁, c.Passes a c₁ ∧ c₁.Passes b c' := by
  constructor
  · rintro ⟨hrest, hoffset, hstart⟩
    -- the cursor between them stands where the first octets end
    refine ⟨⟨c.start, c.offset + a.length, b ++ c'.rest⟩, ⟨?_, rfl, rfl⟩, ⟨rfl, ?_, hstart⟩⟩
    · rw [hrest, List.append_assoc]
    · rw [hoffset, List.length_append, Nat.add_assoc]
  · rintro ⟨c₁, ⟨hrest, hoffset, hstart⟩, ⟨hrest', hoffset', hstart'⟩⟩
    refine ⟨?_, ?_, hstart'.trans hstart⟩
    · rw [hrest, hrest', List.append_assoc]
    · rw [hoffset', hoffset, List.length_append, Nat.add_assoc]

/-- The octets that are read are the first of the window, as many as there are. -/
theorem passes_iff : c.Passes a c' ↔ a.length ≤ c.rest.length ∧ a = c.rest.take a.length ∧
    c' = { c with offset := c.offset + a.length, rest := c.rest.drop a.length } := by
  constructor
  · rintro ⟨hrest, hoffset, hstart⟩
    rw [hrest, List.take_left, List.drop_left, List.length_append]
    refine ⟨Nat.le_add_right _ _, rfl, ?_⟩
    cases c'
    simp_all
  · rintro ⟨_, htake, rfl⟩
    refine ⟨?_, rfl, rfl⟩
    calc c.rest = c.rest.take a.length ++ c.rest.drop a.length := (List.take_append_drop ..).symm
      _ = a ++ c.rest.drop a.length := by rw [← htake]

theorem Passes.length_rest_lt (h : c.Passes a c') (ne : a ≠ []) :
    c'.rest.length < c.rest.length := by
  have hpos := List.length_pos_iff.mpr ne
  rw [h.rest_eq, List.length_append]
  omega

end Cursor

/-- The octets that a value may be read from. -/
abbrev Grammar (α : Type) := α → Bytes → Prop

namespace Decoder

variable {α β : Type} {follows : Bytes → Prop} {d : Decoder α} {g g' : Grammar α}

/-- Where what follows is as required, a decoder returns a value exactly if octets of the value have
been passed. -/
def ReadsBefore (follows : Bytes → Prop) (d : Decoder α) (g : Grammar α) : Prop :=
  ∀ (c : Cursor) (a : α) (c' : Cursor), follows c'.rest →
    (d c = .ok (a, c') ↔ ∃ octets, g a octets ∧ c.Passes octets c')

/-- Reads a grammar whatever follows. -/
abbrev Reads (d : Decoder α) (g : Grammar α) : Prop :=
  ReadsBefore (fun _ => True) d g

/-- Reads a grammar at the end of a window. -/
abbrev ReadsAtEnd (d : Decoder α) (g : Grammar α) : Prop :=
  ReadsBefore (· = []) d g

/-! ### Rules -/

theorem ReadsBefore.congr (h : ReadsBefore follows d g)
    (hg : ∀ a octets, g' a octets ↔ g a octets) : ReadsBefore follows d g' := by
  intro c a c' hfollows
  rw [h c a c' hfollows]
  exact exists_congr fun octets => and_congr_left fun _ => (hg a octets).symm

theorem Reads.before (h : Reads d g) : ReadsBefore follows d g :=
  fun c a c' _ => h c a c' trivial

theorem Reads.field (h : Reads d g) : Reads (Decoder.field d) g :=
  fun c a c' hfollows => field_eq_ok_iff.trans (h c a c' hfollows)

theorem ReadsBefore.map (h : ReadsBefore follows d g) (f : α → β) :
    ReadsBefore follows (do let a ← d; pure (f a)) fun b octets => ∃ a, g a octets ∧ b = f a := by
  intro c b c' hfollows
  rw [bind_eq_ok_iff]
  constructor
  · rintro ⟨a, c₁, hd, hpure⟩
    obtain ⟨rfl, rfl⟩ := pure_eq_ok_iff.mp hpure
    obtain ⟨octets, hg, hpasses⟩ := (h c a c' hfollows).mp hd
    exact ⟨octets, ⟨a, hg, rfl⟩, hpasses⟩
  · rintro ⟨octets, ⟨a, hg, rfl⟩, hpasses⟩
    exact ⟨a, c', (h c a c' hfollows).mpr ⟨octets, hg, hpasses⟩, pure_eq_ok_iff.mpr ⟨rfl, rfl⟩⟩

/-- **One decoder after another.** The octets of the first come first. -/
theorem Reads.bind {f : α → Decoder β} {next : α → Grammar β} (hd : Reads d g)
    (hf : ∀ a, ReadsBefore follows (f a) (next a)) :
    ReadsBefore follows (d >>= f) fun b octets =>
      ∃ a first second, g a first ∧ next a b second ∧ octets = first ++ second := by
  intro c b c' hfollows
  rw [bind_eq_ok_iff]
  constructor
  -- only the second decoder ends where `follows` is known; the first is read whatever follows
  · rintro ⟨a, c₁, h₁, h₂⟩
    obtain ⟨first, hfirst, hpasses⟩ := (hd c a c₁ trivial).mp h₁
    obtain ⟨second, hsecond, hpasses'⟩ := (hf a c₁ b c' hfollows).mp h₂
    exact ⟨first ++ second, ⟨a, first, second, hfirst, hsecond, rfl⟩,
      Cursor.passes_append_iff.mpr ⟨c₁, hpasses, hpasses'⟩⟩
  · rintro ⟨_, ⟨a, first, second, hfirst, hsecond, rfl⟩, hpasses⟩
    obtain ⟨c₁, hpasses, hpasses'⟩ := Cursor.passes_append_iff.mp hpasses
    exact ⟨a, c₁, (hd c a c₁ trivial).mpr ⟨first, hfirst, hpasses⟩,
      (hf a c₁ b c' hfollows).mpr ⟨second, hsecond, hpasses'⟩⟩

/-- A window of its own is read to its end. The decoder is asked about windows of this length
only. -/
theorem reads_within {n : Nat}
    (h : ∀ (c : Cursor) (a : α) (c' : Cursor), c.rest.length = n → c'.rest = [] →
      (d c = .ok (a, c') ↔ ∃ octets, g a octets ∧ c.Passes octets c')) :
    Reads (within n d) fun a octets => g a octets ∧ octets.length = n := by
  intro c a c' _
  rw [within_eq_ok_iff]
  constructor
  · rintro ⟨hn, ⟨c₁, hd, hend⟩, rfl⟩
    have hwindow : (c.rest.take n).length = n := by rw [List.length_take, Nat.min_eq_left hn]
    obtain ⟨octets, hg, hrest, -, -⟩ := (h _ a c₁ hwindow hend).mp hd
    -- nothing is left of the window, so the octets are all of it
    rw [hend, List.append_nil] at hrest
    have hrest : c.rest.take n = octets := hrest
    rw [hrest] at hwindow
    refine ⟨octets, ⟨hg, hwindow⟩, Cursor.passes_iff.mpr ?_⟩
    rw [hwindow]
    exact ⟨hn, hrest.symm, rfl⟩
  · rintro ⟨octets, ⟨hg, rfl⟩, hpasses⟩
    obtain ⟨hn, htake, hc'⟩ := Cursor.passes_iff.mp hpasses
    have hwindow : (c.rest.take octets.length).length = octets.length := by rw [← htake]
    -- the window holds the octets and nothing else, so the decoder ends at its end
    refine ⟨hn, ⟨⟨c.offset, c.offset + octets.length, []⟩, ?_, rfl⟩, hc'⟩
    refine (h _ a _ hwindow rfl).mpr ⟨octets, hg, ?_, rfl, rfl⟩
    rw [← htake, List.append_nil]

theorem ReadsAtEnd.within (h : ReadsAtEnd d g) (n : Nat) :
    Reads (Decoder.within n d) fun a octets => g a octets ∧ octets.length = n :=
  reads_within fun c a c' _ => h c a c'

/-- **Reading a whole input.** A value is read from the octets of the grammar within the limit. -/
theorem ReadsAtEnd.decode_eq_ok_iff (h : ReadsAtEnd d g) {input : Bytes} {a : α} :
    decode d input = .ok a ↔ g a input ∧ input.length ≤ maxLength := by
  rw [Decoder.decode_eq_ok_iff]
  constructor
  · rintro ⟨hmax, c, hd, hend⟩
    obtain ⟨octets, hg, hrest, -, -⟩ := (h _ a c hend).mp hd
    -- an input is a window of its own, with nothing behind it
    have hrest : input = octets := by rw [← List.append_nil octets, ← hend]; exact hrest
    rw [hrest] at hmax ⊢
    exact ⟨hg, hmax⟩
  · rintro ⟨hg, hmax⟩
    refine ⟨hmax, ⟨0, 0 + input.length, []⟩, (h _ a _ rfl).mpr ⟨input, hg, ?_, rfl, rfl⟩, rfl⟩
    rw [List.append_nil]

end Decoder

end SignatureCatalog.Der
