import SignatureCatalog.Der.Tag
import SignatureCatalog.Text.Hexadecimal

/-!
# What can be wrong with an encoding

A fault says what is wrong, an error adds the position when there is one. Errors that arise while a
field of a sequence is read always have a position; errors about a value taken on its own have none.
-/

namespace SignatureCatalog.Der

/-- The length limit: no encoding may have more octets than this. -/
def maxLength : Nat := 0x0FFFFFFF

/-- What is wrong with an encoding. -/
inductive Fault where
  /-- Octets are missing: so many are wanted in all, so many are there. -/
  | incomplete (expected actual : Nat)
  /-- The content of a value is not one of its type. -/
  | malformedValue (tag : Tag)
  /-- A value has a length that its type does not allow, or one not written in the fewest octets. -/
  | wrongLength (tag : Tag)
  /-- A value is written in a form that DER does not allow. -/
  | nonCanonical (tag : Tag)
  /-- A length exceeds the limit. -/
  | overflow
  /-- A length is left open. -/
  | indefiniteLength
  /-- A tag number needs more than one octet. -/
  | tagNumber
  /-- There is no universal type with this identifier octet. -/
  | unknownTag (octet : UInt8)
  /-- A value has another type than the one wanted, which may go unnamed. -/
  | unexpectedTag (expected? : Option Tag) (actual : Tag)
  /-- Octets are left over. -/
  | trailingData (decoded remaining : Nat)
  /-- A set holds an element twice. -/
  | duplicateElement
  /-- The content of an object identifier is malformed. -/
  | malformedOid
  deriving DecidableEq

/-- The wording of a fault. -/
def Fault.message : Fault → String
  | .incomplete expected actual =>
    "ASN.1 DER message is incomplete: expected " ++ expected.repr ++ ", actual " ++ actual.repr
  | .malformedValue tag => "malformed ASN.1 DER value for " ++ tag.name
  | .wrongLength tag => "incorrect length for " ++ tag.name
  | .nonCanonical tag => "ASN.1 " ++ tag.name ++ " not canonically encoded as DER"
  | .overflow => "integer overflow"
  | .indefiniteLength => "indefinite length disallowed"
  | .tagNumber => "invalid tag number"
  | .unknownTag octet =>
    "unknown/unsupported ASN.1 DER tag: 0x" ++ Text.hexadecimal .lower 2 octet.toNat
  | .unexpectedTag none actual => "unexpected ASN.1 DER tag: got " ++ actual.name
  | .unexpectedTag (some expected) actual =>
    "unexpected ASN.1 DER tag: expected " ++ expected.name ++ ", got " ++ actual.name
  | .trailingData decoded remaining =>
    "trailing data at end of DER message: decoded " ++ decoded.repr ++ " bytes, " ++
      remaining.repr ++ " bytes remaining"
  | .duplicateElement => "SET OF contains duplicate"
  | .malformedOid => "malformed OID"

/-- A fault with the position it is reported at, if any. -/
structure Error where
  fault : Fault
  position? : Option Nat
  deriving DecidableEq

/-- The wording of an error: the fault, then the position if there is one. -/
def Error.message (e : Error) : String :=
  match e.position? with
  | none => e.fault.message
  | some position => e.fault.message ++ " at DER byte " ++ position.repr

/-- The tag with an identifier octet. The number is looked at first. -/
def Tag.ofOctet (octet : UInt8) : Except Fault Tag :=
  if octet.toNat % 32 = 31 then .error .tagNumber
  else if h : Tag.IsIdentifier octet then .ok ⟨octet, h⟩
  else .error (.unknownTag octet)

/-- Every tag is found under its own octet. -/
@[simp] theorem Tag.ofOctet_octet (t : Tag) : Tag.ofOctet t.octet = .ok t := by
  have h := t.isIdentifier
  simp [Tag.ofOctet, h, h.1]

/-- A tag that is found has the octet it was looked up by. -/
theorem Tag.octet_of_ofOctet {octet : UInt8} {t : Tag} (h : Tag.ofOctet octet = .ok t) :
    t.octet = octet := by
  unfold Tag.ofOctet at h
  split at h
  · cases h
  · split at h
    · cases h; rfl
    · cases h

end SignatureCatalog.Der
