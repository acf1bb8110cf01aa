import SignatureCatalog.Oid.Basic

/-!
# Object identifiers in dotted text

`Oid.parse` reads decimal arcs with dots between, from left to right, and stops at the first thing
that is wrong. An empty arc counts as zero, a dot at the very end does not close an arc but is an
error, and at least three arcs are needed. Arcs are 32-bit numbers; of a larger one the low 32 bits
are taken (`addDigit`).

An arc is written in as many octets as its size calls for (`octetsAfterFirst`). Its groups of seven
bits are split off from the low end only while more than 128 is left (`splitGroups`), so a leading
group of exactly 128 is not split: it stands in the first octet, where its one bit is
indistinguishable from the mark of continuation, and the octets between are zero. Such an arc reads
back as arcs of zero.
-/

namespace SignatureCatalog.Oid

/-- Why a text is not an object identifier. -/
inductive ParseError where
  /-- There is no text. -/
  | empty
  /-- An octet of the text stands where a digit is wanted. -/
  | digitExpected (found : UInt8)
  /-- The first arc is above two or the second above thirty-nine. -/
  | arcOutOfRange (arc : Nat)
  /-- There are more octets than an identifier may have. -/
  | tooLong
  /-- An arc does not fit the octets its size calls for. -/
  | base128
  /-- The text ends with a dot. -/
  | trailingDot
  /-- There are fewer than three arcs. -/
  | tooFewArcs
  deriving DecidableEq, Repr

/-- The wording of a parse error. An octet that is no digit is shown as the character with its
number. -/
def ParseError.message : ParseError → String
  | .empty => "OID value is empty"
  | .digitExpected found =>
    "expected digit, got '" ++ String.singleton (Char.ofNat found.toNat) ++ "'"
  | .arcOutOfRange arc => "OID contains out-of-range arc: " ++ arc.repr
  | .tooLong => "OID length invalid"
  | .base128 => "OID contains arc with invalid base 128 encoding"
  | .trailingDot => "OID ends with invalid trailing '.'"
  | .tooFewArcs => "OID requires minimum of 3 arcs"

/-! ### One arc -/

/-- How many octets an arc has after its first. -/
def octetsAfterFirst (arc : Nat) : Nat :=
  if arc ≤ 0x7F then 0
  else if arc ≤ 0x3FFF then 1
  else if arc ≤ 0x1FFFFF then 2
  else if arc ≤ 0x1FFFFFFF then 3
  else 4

/-- Splits groups of seven bits off the low end of a number while more than 128 is left: what is
left, and the groups with the most significant first. -/
def splitGroups (n : Nat) : Nat × List Nat :=
  if 0x80 < n then
    let (top, groups) := splitGroups (n / 128)
    (top, groups ++ [n % 128])
  else (n, [])
termination_by n

/-- Marks every group but the last as followed by another. -/
def markContinued : List Nat → Bytes
  | [] => []
  | [last] => [UInt8.ofNat last]
  | group :: rest => UInt8.ofNat (group ||| 0x80) :: markContinued rest

/-- The octets of an arc: what is left after splitting first, the groups last, zeros between. -/
def encodeArc (arc : Nat) : Except ParseError Bytes :=
  let (top, groups) := splitGroups arc
  let after := octetsAfterFirst arc
  if after < groups.length then .error .base128
  else
    -- A top of 128 looks marked already, so nothing shows that its own bit was there.
    let first := if groups.isEmpty then top else top ||| 0x80
    .ok (UInt8.ofNat first :: (List.replicate (after - groups.length) 0 ++ markContinued groups))

/-! ### The whole text -/

/-- What has been read of an identifier: nothing, its first arc, or the octets so far. -/
inductive Progress where
  | none
  | first (arc : Nat)
  | octets (content : Bytes)
  deriving DecidableEq, Repr

/-- Adds one arc to what has been read. -/
def Progress.push : Progress → Nat → Except ParseError Progress
  | .none, arc => if 2 < arc then .error (.arcOutOfRange arc) else .ok (.first arc)
  | .first root, arc =>
    if 39 < arc then .error (.arcOutOfRange arc) else .ok (.octets [UInt8.ofNat (root * 40 + arc)])
  | .octets content, arc =>
    -- Text may fill one octet less than the encoding may have.
    if maxLength ≤ content.length + octetsAfterFirst arc + 1 then .error .tooLong
    else (encodeArc arc).map fun octets => .octets (content ++ octets)

/-- The arc with one more decimal digit, as a 32-bit number. -/
def addDigit (arc : Nat) (digit : UInt8) : Nat :=
  (arc * 10 + (digit.toNat - 0x30)) % 0x100000000

/-- Reads the rest of a text; `arc` is the value of the arc that is under way. -/
def scan (read : Progress) (arc : Nat) : Bytes → Except ParseError Progress
  | [] => read.push arc
  | octet :: rest =>
    if 0x30 ≤ octet.toNat ∧ octet.toNat ≤ 0x39 then scan read (addDigit arc octet) rest
    else if octet = 0x2E then
      if rest.isEmpty then .error .trailingDot
      else
        match read.push arc with
        | .error e => .error e
        | .ok read => scan read 0 rest
    else .error (.digitExpected octet)

/-- Reads an identifier from the octets of its dotted text. -/
def parseOctets : Bytes → Except ParseError Oid
  | [] => .error .empty
  | octet :: rest =>
    if 0x30 ≤ octet.toNat ∧ octet.toNat ≤ 0x39 then
      match scan .none 0 (octet :: rest) with
      | .error e => .error e
      | .ok (.octets content) => if content.length < 2 then .error .tooFewArcs else .ok ⟨content⟩
      | .ok _ => .error .tooFewArcs
    else .error (.digitExpected octet)

/-- Reads an identifier from its dotted text. -/
def parse (text : String) : Except ParseError Oid :=
  parseOctets text.toUTF8.data.toList

/-- An arc reads back as it was written, but an arc whose leading group is exactly 128 does not. -/
example :
    (["1.2.127", "1.2.129", "1.2.128", "1.2.16384"].map fun t => (parse t).toOption.bind arcs?) =
      [some [1, 2, 127], some [1, 2, 129], some [1, 2, 0], some [1, 2, 0, 0]] := by
  decide +kernel

/-- An arc of 33 bits loses the first of them. -/
example : (parse "1.2.3.4294967300").toOption = (parse "1.2.3.4").toOption := by
  decide +kernel

end SignatureCatalog.Oid
