import SignatureCatalog.Error
import SignatureCatalog.Identity

/-!
# Events

The catalog logs what it does to its records and what it asks of adapters and hosts. An event is
kept by its cause; `Event.message` and `Event.fields` are its wording. Two events are warnings, all
others are for debugging.
-/

namespace SignatureCatalog

/-- How much attention an event deserves. -/
inductive Level where
  | debug
  | warn
  deriving DecidableEq, Repr

/-- The name of a level. -/
def Level.text : Level → String
  | .debug => "DEBUG"
  | .warn => "WARN"

/-- Something the catalog logs. -/
inductive Event where
  /-- A record is added. -/
  | registering (record : Identity)
  /-- A record gives way to a new one. -/
  | overriding (old new : Identity)
  /-- A message of some length is about to be signed. -/
  | signing (name : String) (length : Nat)
  /-- A signature on a message of some length is about to be verified. -/
  | verifying (scheme : SignatureScheme) (length : Nat)
  /-- A record is about to be published, possibly under an identifier with a name of its own. -/
  | publishing (record : Identity) (wellKnown? : Option String)
  /-- An alias that is taken stays as it is, although an algorithm wants it. -/
  | keepingAlias (slot : Slot) (name : String)
  /-- A payload that was read flat could have been read nested. -/
  | flatReadOfNested (oid : Oid)
  deriving DecidableEq, Repr

/-- What an event says about one of its parts. -/
inductive FieldValue where
  | text (text : String)
  | number (n : Nat)
  deriving DecidableEq, Repr

namespace Event

/-- How much attention an event deserves. -/
def level : Event → Level
  | .keepingAlias .. => .warn
  | .flatReadOfNested _ => .warn
  | _ => .debug

/-- The wording of an event. -/
def message : Event → String
  | .registering _ => "Registering signature algorithm"
  | .overriding .. => "Overriding signature algorithm"
  | .signing .. => "Signing with injected algorithm"
  | .verifying .. => "Verifying with injected algorithm"
  | .publishing _ none => "Publishing signature algorithm"
  | .publishing _ (some _) => "Publishing over a well-known OID"
  | .keepingAlias .. => "Keeping existing provider alias"
  | .flatReadOfNested _ => "Flat decode of a payload that is a complete nested key info"

/-- The parts of an event by name. -/
def fields : Event → List (String × FieldValue)
  | .registering record => [("record", .text record.text)]
  | .overriding old new => [("old", .text old.text), ("new", .text new.text)]
  | .signing name length => [("name", .text name), ("len", .number length)]
  | .verifying scheme length => [("code_point", .text scheme.text), ("len", .number length)]
  | .publishing record none => [("record", .text record.text)]
  | .publishing record (some builtin) =>
    [("record", .text record.text), ("builtin", .text builtin)]
  | .keepingAlias slot name => [("key", .text slot.text), ("name", .text name)]
  | .flatReadOfNested oid => [("oid", .text oid.text)]

end Event

end SignatureCatalog
