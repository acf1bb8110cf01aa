import Mathlib.Algebra.Group.Nat.Defs
import SignatureCatalog.Oid.Parse

/-!
# Named and decodable

An object identifier is accepted twice over: as text, when an algorithm is registered, and as
content octets, when a key info is read. The two validators do not ask for the same. This module
says which identifiers that can be named can also be read (`isDecodable_iff_of_parse`):

* a decoder asks for three octets, so three arcs of which the last is below 128 are too few;
* it takes an arc for a 32-bit number, and to keep the fifth octet of one from overflowing it wants
  the upper half of that octet clear. But the octet holds seven bits of the arc, not four; so of the
  arcs from 2^29 on, which need five octets, it takes those alone whose last seven bits are below
  16.

There is nothing else. In particular it does not matter that arcs with a leading group of exactly
128 are written wrongly: what is written for them can be read, though as other arcs.

`Complete` is what the arc reader asks of octets, without the arcs it reads. It is followed through
what is written for one arc (`complete_encodeArc`), and from there through a text, arc by arc.
-/

namespace SignatureCatalog.Oid

variable {octets more : Bytes} {arc count : Nat} {arcs : List Nat}

/-! ### Complete arcs -/

/-- The octets complete the arc of which `count` octets are there, and consist of arcs from then
on. -/
def Complete (count : Nat) : Bytes → Prop
  | [] => count = 0
  | octet :: rest => (count < 4 ∨ octet.toNat < 0x10) ∧
    Complete (if octet.toNat < 0x80 then 0 else count + 1) rest

theorem complete_cons_of_lt {octet : UInt8} (h : octet.toNat < 0x80) :
    Complete count (octet :: more) ↔ (count < 4 ∨ octet.toNat < 0x10) ∧ Complete 0 more := by
  rw [Complete, if_pos h]

theorem complete_cons_of_le {octet : UInt8} (h : 0x80 ≤ octet.toNat) (hcount : count < 4) :
    Complete count (octet :: more) ↔ Complete (count + 1) more := by
  rw [Complete, if_neg (Nat.not_lt.mpr h), and_iff_right (.inl hcount)]

/-- Complete arcs are what can be read, whatever has been read of the arc that is under way. -/
theorem isSome_arcsFrom_iff (value : Nat) :
    (arcsFrom value count octets).isSome = true ↔ Complete count octets := by
  -- octet by octet, with the arc under way as far as it has come
  induction octets generalizing value count with
  | nil =>
    rw [arcsFrom, Complete]
    split
    · next h => exact iff_of_true rfl h
    · next h => exact iff_of_false Bool.false_ne_true h
  | cons octet rest ih =>
    rw [arcsFrom, Complete]
    split
    · next h => exact iff_of_false Bool.false_ne_true fun hcomplete => by omega
    · next h =>
      rw [and_iff_right (by omega)]
      dsimp only
      split
      · rw [Option.isSome_map, ih]
      · rw [ih]

/-! ### What is written for an arc -/

theorem splitGroups_of_le (h : arc ≤ 0x80) : splitGroups arc = (arc, []) := by
  rw [splitGroups, if_neg (Nat.not_lt.mpr h)]

theorem splitGroups_of_lt (h : 0x80 < arc) :
    splitGroups arc =
      ((splitGroups (arc / 128)).1, (splitGroups (arc / 128)).2 ++ [arc % 128]) := by
  rw [splitGroups, if_pos h]

/-- Groups have seven bits; what is left has eight at most. -/
theorem splitGroups_bounds (arc : Nat) :
    (splitGroups arc).1 ≤ 0x80 ∧ ∀ group ∈ (splitGroups arc).2, group < 0x80 := by
  -- on the number, of which a group of seven bits is taken off at a time
  induction arc using Nat.strongRecOn with
  | ind arc ih =>
    by_cases h : 0x80 < arc
    · obtain ⟨htop, hgroups⟩ := ih (arc / 128) (by omega)
      rw [splitGroups_of_lt h]
      refine ⟨htop, List.forall_mem_append.mpr ⟨hgroups, List.forall_mem_singleton.mpr ?_⟩⟩
      exact Nat.mod_lt _ (by omega)
    · rw [splitGroups_of_le (Nat.not_lt.mp h)]
      exact ⟨Nat.not_lt.mp h, nofun⟩

/-- An arc from 2^29 on has four groups at least. -/
theorem four_le_length_groups (h : 2 ^ 29 ≤ arc) : 4 ≤ (splitGroups arc).2.length := by
  rw [splitGroups_of_lt (by omega), @splitGroups_of_lt (arc / 128) (by omega),
    @splitGroups_of_lt (arc / 128 / 128) (by omega),
    @splitGroups_of_lt (arc / 128 / 128 / 128) (by omega)]
  simp only [List.length_append, List.length_singleton]
  omega

theorem getLast_groups (h : (splitGroups arc).2 ≠ []) :
    (splitGroups arc).2.getLast h = arc % 128 := by
  by_cases harc : 0x80 < arc
  · simp only [splitGroups_of_lt harc, List.getLast_concat]
  · exact absurd (congrArg Prod.snd (splitGroups_of_le (Nat.not_lt.mp harc))) h

/-- A mark of continuation puts an octet into its upper half. -/
theorem le_toNat_marked {group : Nat} (h : group ≤ 0x80) :
    0x80 ≤ (UInt8.ofNat (group ||| 0x80)).toNat := by
  have hlt : group ||| 0x80 < 2 ^ 8 := Nat.or_lt_two_pow (by omega) (by omega)
  rw [UInt8.toNat_ofNat_of_lt' hlt]
  exact Nat.right_le_or

theorem markContinued_cons_cons (group next : Nat) (rest : List Nat) :
    markContinued (group :: next :: rest) =
      UInt8.ofNat (group ||| 0x80) :: markContinued (next :: rest) := rfl

theorem length_markContinued (groups : List Nat) :
    (markContinued groups).length = groups.length := by
  induction groups with
  | nil => rfl
  | cons group rest ih =>
    cases rest with
    | nil => rfl
    | cons next rest => rw [markContinued_cons_cons, List.length_cons, ih, ← List.length_cons]

/-- Groups complete an arc of five octets only if the last of them is small. -/
theorem complete_markContinued {groups : List Nat} (ne : groups ≠ [])
    (bound : ∀ group ∈ groups, group < 0x80) (hcount : count + groups.length ≤ 5) :
    Complete count (markContinued groups ++ more) ↔
      (count + groups.length ≤ 4 ∨ groups.getLast ne < 0x10) ∧ Complete 0 more := by
  induction groups generalizing count with
  | nil => exact absurd rfl ne
  | cons group rest ih =>
    obtain ⟨hgroup, hrest⟩ := List.forall_mem_cons.mp bound
    cases rest with
    | nil =>
      have htoNat : (UInt8.ofNat group).toNat = group :=
        UInt8.toNat_ofNat_of_lt' (Nat.lt_trans hgroup (by decide))
      -- the last group has no mark, and is small only if it is the fifth octet
      show Complete count (UInt8.ofNat group :: more) ↔ _
      rw [complete_cons_of_lt (by rwa [htoNat]), htoNat]
      rfl
    | cons next rest =>
      -- a group that is followed by another is one of the first four
      have hlength :
          count + 1 + (next :: rest).length = count + (group :: next :: rest).length := by
        rw [List.length_cons, List.length_cons, List.length_cons]
        omega
      have hlt : count < 4 := by
        rw [List.length_cons, List.length_cons] at hcount
        omega
      rw [markContinued_cons_cons, List.cons_append,
        complete_cons_of_le (le_toNat_marked (Nat.le_of_lt hgroup)) hlt,
        ih (List.cons_ne_nil next rest) hrest (by rwa [hlength]), hlength,
        List.getLast_cons (List.cons_ne_nil next rest)]

/-- Zeros complete whatever is under way, and are arcs themselves. -/
theorem complete_replicate_zero (n : Nat) :
    Complete count (List.replicate (n + 1) 0 ++ more) ↔ Complete 0 more := by
  -- the first zero ends the arc under way, and each of the others is an arc of its own
  induction n generalizing count with
  | zero =>
    show Complete count (0 :: more) ↔ _
    rw [complete_cons_of_lt (by decide), and_iff_right (.inr (by decide))]
  | succ n ih =>
    rw [List.replicate_succ, List.cons_append, complete_cons_of_lt (by decide),
      and_iff_right (.inr (by decide)), ih]

/-- No arc has more than five octets, and those that have five are the ones from 2^29 on. -/
theorem octetsAfterFirst_bound (arc : Nat) :
    octetsAfterFirst arc ≤ 4 ∧ (octetsAfterFirst arc = 4 ↔ 2 ^ 29 ≤ arc) := by
  unfold octetsAfterFirst
  repeat' split
  all_goals omega

/-- The arcs for which something is written that can be read: those of four octets at most, and of
the others those whose last octet is small. -/
def Fits (arc : Nat) : Prop :=
  arc < 2 ^ 29 ∨ arc % 128 < 0x10

/-- What is written for an arc: its first octet, zeros, and its groups. -/
theorem encodeArc_eq_ok_iff :
    encodeArc arc = .ok octets ↔ (splitGroups arc).2.length ≤ octetsAfterFirst arc ∧
      octets = UInt8.ofNat (if (splitGroups arc).2.isEmpty then (splitGroups arc).1
          else (splitGroups arc).1 ||| 0x80) ::
        (List.replicate (octetsAfterFirst arc - (splitGroups arc).2.length) 0 ++
          markContinued (splitGroups arc).2) := by
  unfold encodeArc
  dsimp only
  split
  · next h => exact iff_of_false nofun fun hle => Nat.not_le.mpr h hle.1
  · next h => rw [Except.ok.injEq, and_iff_right (Nat.not_lt.mp h), eq_comm]

theorem length_encodeArc (h : encodeArc arc = .ok octets) :
    octets.length = octetsAfterFirst arc + 1 := by
  obtain ⟨hle, rfl⟩ := encodeArc_eq_ok_iff.mp h
  rw [List.length_cons, List.length_append, List.length_replicate, length_markContinued,
    Nat.sub_add_cancel hle]

/-- An arc up to 128 is written whole, and 128 itself gets a zero behind it. -/
theorem complete_encodeArc_of_le (hle : arc ≤ 0x80) (h : encodeArc arc = .ok octets) :
    Complete 0 (octets ++ more) ↔ Complete 0 more := by
  obtain ⟨-, rfl⟩ := encodeArc_eq_ok_iff.mp h
  rw [splitGroups_of_le hle]
  by_cases hlast : arc ≤ 0x7F
  · have htoNat : (UInt8.ofNat arc).toNat = arc := UInt8.toNat_ofNat_of_lt' (by
      show arc < 256
      omega)
    rw [octetsAfterFirst, if_pos hlast]
    show Complete 0 (UInt8.ofNat arc :: more) ↔ _
    rw [complete_cons_of_lt (by omega), and_iff_right (.inl (by decide))]
  · obtain rfl : arc = 0x80 := by omega
    -- the octet of 128 looks continued, and the zero behind it completes it
    show Complete 0 (0x80 :: (List.replicate 1 0 ++ more)) ↔ _
    rw [complete_cons_of_le (by decide) (by decide), complete_replicate_zero]

/-- **What is written for an arc can be read exactly if the arc fits.** -/
theorem complete_encodeArc (h : encodeArc arc = .ok octets) :
    Complete 0 (octets ++ more) ↔ Fits arc ∧ Complete 0 more := by
  by_cases harc : arc ≤ 0x80
  · rw [complete_encodeArc_of_le harc h, and_iff_right (show Fits arc from .inl (by omega))]
  obtain ⟨hle, rfl⟩ := encodeArc_eq_ok_iff.mp h
  obtain ⟨htop, hgroups⟩ := splitGroups_bounds arc
  have ne : (splitGroups arc).2 ≠ [] := by
    rw [splitGroups_of_lt (Nat.not_le.mp harc)]
    exact List.append_ne_nil_of_right_ne_nil _ (List.cons_ne_nil _ _)
  -- an arc that has a fifth octet has four groups, so that there are no zeros in it
  obtain ⟨hafter, hfive⟩ := octetsAfterFirst_bound arc
  have hfour := @four_le_length_groups arc
  rw [if_neg (by rwa [List.isEmpty_iff]), List.cons_append,
    complete_cons_of_le (le_toNat_marked htop) (by decide), List.append_assoc, Fits]
  cases hzeros : octetsAfterFirst arc - (splitGroups arc).2.length with
  | zero =>
    -- the groups follow at once, so the arc has as many octets as its size calls for
    rw [List.replicate_zero, List.nil_append, complete_markContinued ne hgroups (by omega),
      getLast_groups ne]
    refine and_congr_left fun _ => or_congr_left ?_
    omega
  | succ n =>
    -- zeros cut the arc short, so that its groups are an arc of their own, and fewer than four
    rw [complete_replicate_zero, complete_markContinued ne hgroups (by omega)]
    refine and_congr_left fun _ => iff_of_true (.inl (by omega)) (.inl ?_)
    omega

/-! ### From a text to its octets -/

/-- The arcs between the dots of a text; `arc` is the one that is under way. -/
def dottedArcs (arc : Nat) : Bytes → List Nat
  | [] => [arc]
  | octet :: rest =>
    if octet = 0x2E then arc :: dottedArcs 0 rest
    else dottedArcs (addDigit arc octet) rest

/-- The arcs of a dotted text. -/
def arcsOfText (text : String) : List Nat :=
  dottedArcs 0 text.toUTF8.data.toList

/-- A text is read by adding its arcs one after the other. -/
theorem foldlM_push_of_scan {read read' : Progress} {text : Bytes}
    (h : scan read arc text = .ok read') :
    (dottedArcs arc text).foldlM Progress.push read = .ok read' := by
  -- along the text, where the arc under way is pushed at its dot or at the end
  induction text generalizing read arc with
  | nil =>
    rw [scan] at h
    rw [dottedArcs, List.foldlM_cons, h]
    rfl
  | cons octet rest ih =>
    rw [scan] at h
    rw [dottedArcs]
    split at h
    · next hdigit =>
      have hne : octet ≠ 0x2E := by
        rintro rfl
        exact absurd hdigit.1 (by decide)
      rw [if_neg hne]
      exact ih h
    · split at h
      · next hdot =>
        -- a dot is taken only if there is more behind it; at the very end it is an error
        rw [if_pos hdot, List.foldlM_cons]
        split at h
        · cases h
        · cases hpush : read.push arc with
          | error e => rw [hpush] at h; cases h
          | ok next =>
            rw [hpush] at h
            exact ih h
      · cases h

/-- The octets stand for an identifier whose arcs after the second are `arcs`. -/
structure Written (content : Bytes) (arcs : List Nat) : Prop where
  length_lt : content.length < maxLength
  packed : ∃ first body, content = first :: body ∧ first.toNat ≤ 119 ∧
    ∀ more, Complete 0 (body ++ more) ↔ (∀ arc ∈ arcs, Fits arc) ∧ Complete 0 more

/-- One more arc comes behind. -/
theorem Written.push {content : Bytes} {read : Progress} (h : Written content arcs)
    (pushed : (Progress.octets content).push arc = .ok read) :
    ∃ content', read = .octets content' ∧ Written content' (arcs ++ [arc]) := by
  obtain ⟨hlength, first, body, rfl, hfirst, hcomplete⟩ := h
  rw [Progress.push] at pushed
  split at pushed
  · cases pushed
  · next hroom =>
    cases hencode : encodeArc arc with
    | error e => rw [hencode] at pushed; cases pushed
    | ok octets =>
      rw [hencode] at pushed
      refine ⟨_, (Except.ok.inj pushed).symm, ?_, first, body ++ octets, rfl, hfirst,
        fun more => ?_⟩
      · rw [List.length_append, length_encodeArc hencode]
        omega
      · -- the octets before ask for their arcs, and the new ones for the new arc
        rw [List.append_assoc, hcomplete, complete_encodeArc hencode, List.forall_mem_append,
          List.forall_mem_singleton, and_assoc]

theorem Written.foldlM_push {content : Bytes} {read : Progress} {more : List Nat}
    (h : Written content arcs)
    (pushed : more.foldlM Progress.push (.octets content) = .ok read) :
    ∃ content', read = .octets content' ∧ Written content' (arcs ++ more) := by
  induction more generalizing content arcs with
  | nil =>
    rw [List.append_nil]
    exact ⟨content, (Except.ok.inj pushed).symm, h⟩
  | cons arc more ih =>
    rw [List.foldlM_cons] at pushed
    -- one arc is written behind those that are there, and the others behind that
    cases hpush : (Progress.octets content).push arc with
    | error e => rw [hpush] at pushed; cases pushed
    | ok next =>
      rw [hpush] at pushed
      obtain ⟨content', rfl, hwritten⟩ := h.push hpush
      rw [List.append_cons]
      exact ih hwritten pushed

/-- Arcs that come to octets are at least two, and these are packed into the first octet. -/
theorem written_of_foldlM_push {arcs : List Nat} {content : Bytes}
    (pushed : arcs.foldlM Progress.push .none = .ok (.octets content)) :
    Written content (arcs.drop 2) := by
  -- the first two arcs share an octet, so the octets begin to grow with the third
  match arcs with
  | [] => cases pushed
  | root :: arcs =>
    rw [List.foldlM_cons, Progress.push] at pushed
    split at pushed
    · cases pushed
    · next hroot =>
      match arcs with
      | [] => cases pushed
      | second :: rest =>
        change List.foldlM Progress.push (.first root) (second :: rest) = _ at pushed
        rw [List.foldlM_cons, Progress.push] at pushed
        split at pushed
        · cases pushed
        · next hsecond =>
          have hstart : Written [UInt8.ofNat (root * 40 + second)] [] := by
            refine ⟨show 1 < maxLength by decide, _, [], rfl, ?_, fun more => ?_⟩
            · rw [UInt8.toNat_ofNat_of_lt' (by show _ < 256; omega)]
              omega
            · rw [List.nil_append, and_iff_right nofun]
          obtain ⟨content', hcontent, hwritten⟩ := hstart.foldlM_push pushed
          rw [Progress.octets.inj hcontent]
          exact hwritten

theorem written_of_parse {text : String} {o : Oid} (h : parse text = .ok o) :
    Written o.content ((arcsOfText text).drop 2) := by
  unfold parse parseOctets at h
  unfold arcsOfText
  split at h
  · cases h
  · next octet rest htext =>
    rw [htext]
    split at h
    · split at h
      · cases h
      · next content hscan =>
        split at h
        · cases h
        · rw [← Except.ok.inj h]
          exact written_of_foldlM_push (foldlM_push_of_scan hscan)
      · cases h
    · cases h

/-- **Which identifiers that can be named can be read**: those of three octets or more whose arcs
after the second all fit. -/
theorem isDecodable_iff_of_parse {text : String} {o : Oid} (h : parse text = .ok o) :
    o.IsDecodable ↔ 3 ≤ o.content.length ∧ ∀ arc ∈ (arcsOfText text).drop 2, Fits arc := by
  obtain ⟨hlength, first, body, hcontent, hfirst, hcomplete⟩ := written_of_parse h
  have hhead : ∀ octet, o.content.head? = some octet → octet.toNat ≤ 119 := by
    intro octet hoctet
    rw [hcontent, List.head?_cons, Option.some.injEq] at hoctet
    rwa [← hoctet]
  have harcs : o.arcs?.isSome = true ↔ ∀ arc ∈ (arcsOfText text).drop 2, Fits arc := by
    -- nothing comes behind the last arc, so the octets are complete by themselves
    have hbody := hcomplete []
    rw [List.append_nil, and_iff_left (show Complete 0 [] from rfl)] at hbody
    rw [arcs?, hcontent, arcsOf?, Option.isSome_map, isSome_arcsFrom_iff, hbody]
  rw [IsDecodable, harcs, and_iff_right (Nat.le_of_lt hlength), and_iff_right hhead]

end SignatureCatalog.Oid
