import SignatureCatalog.Bytes

/-!
# Object identifiers

An object identifier is kept as the content octets of its DER encoding, because that is the form in
which identifiers are compared, ordered and written. The first octet packs the first two arcs, every
further arc is a base-128 number whose octets but the last carry the high bit.

* `Oid.arcs?` reads the arcs back, `Oid.text` shows them with dots between.
* `Oid.ofContent?` is the check a decoder makes. It asks for three octets at least, so an identifier
  of three small arcs, which needs only two, can be named and written but is not read from DER:
  `Oid.IsDecodable` is the class of those that are.
* `Ord Oid` is length first, octets second.
-/

namespace SignatureCatalog

/-- An object identifier, as the content octets of its DER encoding. -/
structure Oid where
  content : Bytes
  deriving DecidableEq, Repr

namespace Oid

/-- The most content octets an object identifier may have. -/
def maxLength : Nat := 39

/-- Reads base-128 arcs; `value` and `count` describe the arc that is under way. Arcs are 32-bit
numbers: the fifth octet of one, and every later octet, must leave its upper half clear. An arc that
is cut off is no arc. -/
def arcsFrom (value count : Nat) : Bytes → Option (List Nat)
  | [] => if count = 0 then some [] else none
  | octet :: rest =>
    if 4 ≤ count ∧ 0x10 ≤ octet.toNat then none
    else
      -- The fifth octet shifts the first bits of the arc out.
      let value := (value * 128 + octet.toNat % 128) % 0x100000000
      if octet.toNat < 0x80 then (arcsFrom 0 0 rest).map (value :: ·)
      else arcsFrom value (count + 1) rest

/-- The arcs that content octets stand for, if they are well formed. -/
def arcsOf? : Bytes → Option (List Nat)
  | [] => none
  | first :: rest => (arcsFrom 0 0 rest).map ([first.toNat / 40, first.toNat % 40] ++ ·)

/-- The arcs of an object identifier. -/
def arcs? (o : Oid) : Option (List Nat) :=
  arcsOf? o.content

/-- The arcs in decimal with dots between. -/
def text (o : Oid) : String :=
  ".".intercalate ((o.arcs?.getD []).map Nat.repr)

/-- Identifiers are ordered by length, then by content octets. -/
instance : Ord Oid := ⟨fun a b => a.content.shortlex b.content⟩

/-- The identifiers that a decoder accepts: three to thirty-nine octets, a first octet that packs
two arcs, and complete arcs after it. -/
def IsDecodable (o : Oid) : Prop :=
  3 ≤ o.content.length ∧ o.content.length ≤ maxLength ∧
    (∀ first, o.content.head? = some first → first.toNat ≤ 119) ∧ o.arcs?.isSome

instance (o : Oid) : Decidable o.IsDecodable := by
  unfold IsDecodable
  cases h : o.content.head? with
  | none => exact decidable_of_iff (3 ≤ o.content.length ∧ o.content.length ≤ maxLength ∧
      o.arcs?.isSome) (by simp)
  | some first => exact decidable_of_iff (3 ≤ o.content.length ∧ o.content.length ≤ maxLength ∧
      first.toNat ≤ 119 ∧ o.arcs?.isSome) (by simp)

/-- The identifier with these content octets, if a decoder accepts it. -/
def ofContent? (content : Bytes) : Option Oid :=
  if (⟨content⟩ : Oid).IsDecodable then some ⟨content⟩ else none

/-- A decoder's check hands back the octets it was given, and only decodable ones. -/
theorem ofContent?_eq_some_iff {content : Bytes} {o : Oid} :
    ofContent? content = some o ↔ o.content = content ∧ o.IsDecodable := by
  unfold ofContent?
  constructor
  · intro h
    split at h
    · next hd => cases h; exact ⟨rfl, hd⟩
    · cases h
  · rintro ⟨rfl, hd⟩
    rw [if_pos hd]

end Oid

end SignatureCatalog
