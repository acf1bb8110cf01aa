import SignatureCatalog.Der.Length

/-!
# Decoders

A decoder reads octets through a window. It knows where the window starts and how far it has read,
both counted from the start of the whole input, and holds what is left of the window. A decoder that
fails says how far it got, so that whoever reads a field of a sequence can move the position of the
error accordingly: `Decoder.field` adds the distance between the start of its own window and the
furthest octet read.

* `Decoder.take` and `Decoder.octet` are the only decoders that move; both fail on a short window.
* `Decoder.within` narrows the window to the content of one value and asks for all of it to be read.
* `Decoder.decode` runs a decoder over a whole input.
-/

namespace SignatureCatalog.Der

/-- Where a decoder stands. -/
structure Cursor where
  /-- Where the window starts, counted from the start of the input. -/
  start : Nat
  /-- Where the next octet stands, counted from the start of the input. -/
  offset : Nat
  /-- What is left of the window. -/
  rest : Bytes
  deriving DecidableEq, Repr

/-- How a decoder fails: with an error, having read so far. -/
structure Stop where
  error : Error
  reached : Nat
  deriving DecidableEq

/-- A decoder of values of type `α`. -/
abbrev Decoder (α : Type) := StateT Cursor (Except Stop) α

namespace Decoder

variable {α : Type}

/-- Fails without a position. -/
def fail (fault : Fault) : Decoder α := fun c =>
  .error ⟨⟨fault, none⟩, c.offset⟩

/-- Fails where `n` more octets are wanted than the window holds. A count beyond the length limit is
reported as such. -/
def shortage (n : Nat) : Decoder α := fun c =>
  if maxLength < c.offset + n then .error ⟨⟨.overflow, none⟩, c.offset⟩
  else
    .error ⟨⟨.incomplete (c.offset + n) (c.offset + c.rest.length), some c.offset⟩, c.offset⟩

/-- Turns a check into a decoder that reads nothing. -/
def ofExcept (check : Except Fault α) : Decoder α :=
  match check with
  | .ok a => pure a
  | .error fault => fail fault

/-- Reads `n` octets. -/
def take (n : Nat) : Decoder Bytes := fun c =>
  if n ≤ c.rest.length then
    .ok (c.rest.take n, { c with offset := c.offset + n, rest := c.rest.drop n })
  else shortage n c

/-- Reads one octet. -/
def octet : Decoder UInt8 := fun c =>
  match c.rest with
  | [] => shortage 1 c
  | b :: rest => .ok (b, { c with offset := c.offset + 1, rest := rest })

/-- Reads `n` octets one after the other, so that a shortage is reported where it occurs. -/
def octets : Nat → Decoder Bytes
  | 0 => pure []
  | n + 1 => do
    let b ← octet
    let rest ← octets n
    pure (b :: rest)

/-- The next octet of the window, which is not read. -/
def peek : Decoder (Option UInt8) := fun c =>
  .ok (c.rest.head?, c)

/-- How many octets are left in the window. -/
def remaining : Decoder Nat := fun c =>
  .ok (c.rest.length, c)

/-- Fails unless the whole window has been read. -/
def finish : Decoder Unit := fun c =>
  if c.rest.isEmpty then .ok ((), c)
  else
    let decoded := c.offset - c.start
    .error ⟨⟨.trailingData decoded c.rest.length, some decoded⟩, c.offset⟩

/-- Reads one field of a sequence: an error is placed as far behind its own position as the reading
had got in this window. -/
def field (d : Decoder α) : Decoder α := fun c =>
  match d c with
  | .ok result => .ok result
  | .error stop =>
    -- Octets read through a narrower window count as read through this one.
    let position := stop.reached - c.start + stop.error.position?.getD 0
    .error ⟨⟨stop.error.fault, some position⟩, stop.reached⟩

/-- Reads the next `n` octets as a window of its own, to its end. -/
def within (n : Nat) (d : Decoder α) : Decoder α := fun c =>
  if n ≤ c.rest.length then
    -- The window of its own starts here; positions in it are still those of the whole input.
    match (do let a ← d; finish; pure a) ⟨c.offset, c.offset, c.rest.take n⟩ with
    | .ok (a, _) => .ok (a, { c with offset := c.offset + n, rest := c.rest.drop n })
    | .error stop => .error stop
  else shortage n c

/-- Runs a decoder over a whole input, which must be read to its end and be within the limit. -/
def decode (d : Decoder α) (input : Bytes) : Except Error α :=
  if maxLength < input.length then .error ⟨.overflow, none⟩
  else
    match (do let a ← d; finish; pure a) ⟨0, 0, input⟩ with
    | .ok (a, _) => .ok a
    | .error stop => .error stop.error

/-! ### When a decoder succeeds

One equivalence per decoder; proofs about decoding use these and do not unfold the decoders. -/

variable {β : Type}

theorem bind_eq_ok_iff {d : Decoder α} {f : α → Decoder β} {c c' : Cursor} {b : β} :
    (d >>= f) c = .ok (b, c') ↔ ∃ a c₁, d c = .ok (a, c₁) ∧ f a c₁ = .ok (b, c') := by
  show (d c >>= fun p => f p.1 p.2) = _ ↔ _
  cases d c with
  | error stop => simp [bind, Except.bind]
  | ok p =>
    obtain ⟨a, c₁⟩ := p
    simp only [bind, Except.bind, Except.ok.injEq, Prod.mk.injEq]
    constructor
    · intro h; exact ⟨a, c₁, ⟨rfl, rfl⟩, h⟩
    · rintro ⟨_, _, ⟨rfl, rfl⟩, h⟩; exact h

theorem pure_eq_ok_iff {a b : α} {c c' : Cursor} :
    (pure a : Decoder α) c = .ok (b, c') ↔ b = a ∧ c' = c := by
  show Except.ok (a, c) = _ ↔ _
  simp [eq_comm]

theorem fail_ne_ok {fault : Fault} {c c' : Cursor} {a : α} : fail fault c ≠ .ok (a, c') := by
  simp [fail]

theorem shortage_ne_ok {n : Nat} {c c' : Cursor} {a : α} : shortage n c ≠ .ok (a, c') := by
  unfold shortage
  split <;> simp

theorem ofExcept_eq_ok_iff {check : Except Fault α} {c c' : Cursor} {a : α} :
    ofExcept check c = .ok (a, c') ↔ check = .ok a ∧ c' = c := by
  cases check with
  | error fault => simp [ofExcept, fail]
  | ok b => rw [ofExcept, pure_eq_ok_iff, Except.ok.injEq, eq_comm]

theorem take_eq_ok_iff {n : Nat} {c c' : Cursor} {b : Bytes} :
    take n c = .ok (b, c') ↔ n ≤ c.rest.length ∧ b = c.rest.take n ∧
      c' = { c with offset := c.offset + n, rest := c.rest.drop n } := by
  unfold take
  split
  · next h => simp [h, eq_comm]
  · next h => simp [h, shortage_ne_ok]

theorem octet_eq_ok_iff {c c' : Cursor} {b : UInt8} :
    octet c = .ok (b, c') ↔ c.rest = b :: c'.rest ∧ c'.offset = c.offset + 1 ∧
      c'.start = c.start := by
  obtain ⟨start, offset, rest⟩ := c
  obtain ⟨start', offset', rest'⟩ := c'
  cases rest with
  | nil => simp [octet, shortage_ne_ok]
  | cons b' rest =>
    simp only [octet, Except.ok.injEq, Prod.mk.injEq, Cursor.mk.injEq, List.cons.injEq]
    constructor
    · rintro ⟨rfl, rfl, rfl, rfl⟩; exact ⟨⟨rfl, rfl⟩, rfl, rfl⟩
    · rintro ⟨⟨rfl, rfl⟩, rfl, rfl⟩; exact ⟨rfl, rfl, rfl, rfl⟩

theorem finish_eq_ok_iff {c c' : Cursor} {u : Unit} :
    finish c = .ok (u, c') ↔ c.rest = [] ∧ c' = c := by
  unfold finish
  split
  · next h => simp [List.isEmpty_iff.1 h, eq_comm]
  · next h => simp [mt List.isEmpty_iff.2 h]

theorem field_eq_ok_iff {d : Decoder α} {c c' : Cursor} {a : α} :
    field d c = .ok (a, c') ↔ d c = .ok (a, c') := by
  unfold field
  split
  · next h => rw [h]
  · next h => simp [h]

theorem within_eq_ok_iff {n : Nat} {d : Decoder α} {c c' : Cursor} {a : α} :
    within n d c = .ok (a, c') ↔ n ≤ c.rest.length ∧
      (∃ c₁, d ⟨c.offset, c.offset, c.rest.take n⟩ = .ok (a, c₁) ∧ c₁.rest = []) ∧
      c' = { c with offset := c.offset + n, rest := c.rest.drop n } := by
  unfold within
  split
  · next hn =>
    simp only [hn, true_and]
    split
    · next b c₂ h =>
      simp only [bind_eq_ok_iff, finish_eq_ok_iff, pure_eq_ok_iff] at h
      obtain ⟨a₁, c₁, hd, _, _, ⟨hrest, rfl⟩, rfl, rfl⟩ := h
      simp only [hd, Except.ok.injEq, Prod.mk.injEq]
      constructor
      -- The window was read to its end, so its own last cursor is the witness.
      · rintro ⟨rfl, rfl⟩; exact ⟨⟨_, ⟨rfl, rfl⟩, hrest⟩, rfl⟩
      · rintro ⟨⟨_, ⟨rfl, _⟩, _⟩, rfl⟩; exact ⟨rfl, rfl⟩
    · next stop h =>
      simp only [reduceCtorEq, false_iff]
      rintro ⟨⟨c₁, hd, hrest⟩, _⟩
      have : (do let a ← d; finish; pure a : Decoder α) ⟨c.offset, c.offset, c.rest.take n⟩ =
          .ok (a, c₁) :=
        bind_eq_ok_iff.2 ⟨a, c₁, hd, bind_eq_ok_iff.2
          ⟨(), c₁, finish_eq_ok_iff.2 ⟨hrest, rfl⟩, pure_eq_ok_iff.2 ⟨rfl, rfl⟩⟩⟩
      rw [h] at this
      cases this
  · next hn => simp [hn, shortage_ne_ok]

theorem decode_eq_ok_iff {d : Decoder α} {input : Bytes} {a : α} :
    decode d input = .ok a ↔ input.length ≤ maxLength ∧
      ∃ c, d ⟨0, 0, input⟩ = .ok (a, c) ∧ c.rest = [] := by
  unfold decode
  split
  · next h => simp; omega
  · next hlen =>
    simp only [Nat.le_of_not_lt hlen, true_and]
    split
    · next b c₂ h =>
      simp only [bind_eq_ok_iff, finish_eq_ok_iff, pure_eq_ok_iff] at h
      obtain ⟨a₁, c₁, hd, _, _, ⟨hrest, rfl⟩, rfl, rfl⟩ := h
      simp only [hd, Except.ok.injEq, Prod.mk.injEq]
      constructor
      · rintro rfl; exact ⟨_, ⟨rfl, rfl⟩, hrest⟩
      · rintro ⟨_, ⟨rfl, _⟩, _⟩; rfl
    · next stop h =>
      simp only [reduceCtorEq, false_iff]
      -- a decoder that succeeds and ends with the input would have passed `finish` as well
      rintro ⟨c₁, hd, hrest⟩
      have : (do let a ← d; finish; pure a : Decoder α) ⟨0, 0, input⟩ = .ok (a, c₁) :=
        bind_eq_ok_iff.2 ⟨a, c₁, hd, bind_eq_ok_iff.2
          ⟨(), c₁, finish_eq_ok_iff.2 ⟨hrest, rfl⟩, pure_eq_ok_iff.2 ⟨rfl, rfl⟩⟩⟩
      rw [h] at this
      cases this

/-! ### Headers -/

/-- Reads a tag. -/
def tag : Decoder Tag := do
  let b ← octet
  ofExcept (Tag.ofOctet b)

/-- Reads the length of a value with the given tag. The long form has one to four octets. -/
def length (t : Tag) : Decoder Nat := do
  let first ← octet
  if first.toNat < 0x80 then pure first.toNat
  else if first.toNat = 0x80 then fail .indefiniteLength
  else if 0x84 < first.toNat then fail (.wrongLength t)
  else
    let long ← octets (first.toNat - 0x80)
    ofExcept (lengthOfOctets t long)

/-- Reads a tag and a length. -/
def header : Decoder (Tag × Nat) := do
  let t ← tag
  let n ← length t
  pure (t, n)

/-- Reads a value of one type: its header must have the tag wanted, and its content is read by a
decoder that is told the content's length. -/
def typed (wanted : Tag) (content : Nat → Decoder α) : Decoder α := do
  let (t, n) ← header
  if t = wanted then content n else fail (.unexpectedTag (some wanted) t)

end Decoder

end SignatureCatalog.Der
