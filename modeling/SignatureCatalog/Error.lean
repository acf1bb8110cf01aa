import SignatureCatalog.KeyInfo.PublicKey
import SignatureCatalog.Oid.Parse
import SignatureCatalog.Provider.Key
import SignatureCatalog.SignatureScheme
import SignatureCatalog.Text.Quoted

/-!
# Errors

What can go wrong in the catalog, by cause; the wording is in `Error.message` alone. Adapters fail
in their own words, with a `Failure`: a chain of messages from the outermost to the first cause. A
failure of an adapter is always reported as such (`Error.adapter`), even where the adapter passes on
an error of the catalog, so that `Error.isNotFound` is true only where the catalog itself found
nothing.
-/

namespace SignatureCatalog

/-- One identifier of an algorithm, by which it can be looked up. -/
inductive Identifier where
  | name (name : String)
  | oid (oid : Oid)
  | scheme (scheme : SignatureScheme)
  deriving DecidableEq, Repr

/-- An identifier in words, with the name in quotes. -/
def Identifier.text : Identifier → String
  | .name n => "name " ++ Text.quoted n
  | .oid o => "OID " ++ o.text
  | .scheme s => "signature scheme " ++ s.text

/-- A place that is taken, or that cannot be cleared. -/
inductive Slot where
  /-- One of the three identifiers of an algorithm. -/
  | identifier (identifier : Identifier)
  /-- An entry of a provider. -/
  | entry (key : ProviderKey)
  /-- The key info converter for an object identifier. -/
  | converter (oid : Oid)
  /-- A place that a host describes in its own words. -/
  | described (text : String)
  deriving DecidableEq, Repr

/-- A place in words. -/
def Slot.text : Slot → String
  | .identifier (.name n) => "algorithm name " ++ Text.quoted n
  | .identifier other => other.text
  | .entry key => key.text
  | .converter oid => "key info converter for " ++ oid.text
  | .described words => words

/-- How a signature engine, or a host, can be in the wrong state. -/
inductive EngineFault where
  | notInitialized
  | notSigning
  | notVerifying
  /-- A host reports a state in its own words. -/
  | described (text : String)
  deriving DecidableEq, Repr

/-- The wording of an engine fault. -/
def EngineFault.message : EngineFault → String
  | .notInitialized => "not initialized"
  | .notSigning => "not initialized for signing"
  | .notVerifying => "not initialized for verification"
  | .described words => words

/-- How an adapter fails: a message, and the messages of what caused it. -/
structure Failure where
  outermost : String
  causes : List String
  deriving DecidableEq, Repr

/-- A failure without a further cause. -/
def Failure.ofMessage (message : String) : Failure :=
  ⟨message, []⟩

/-- The whole chain in one line. -/
def Failure.text (f : Failure) : String :=
  ": ".intercalate (f.outermost :: f.causes)

/-- What can go wrong in the catalog. -/
inductive Error where
  /-- No algorithm has the identifier. -/
  | notFound (identifier : Identifier)
  /-- No algorithm owns the key, or its owner cannot use it that way. -/
  | unsupportedParameter
  /-- A key info, or its payload, is malformed. -/
  | decode (error : Der.Error)
  /-- A payload cannot be read as its algorithm declares. -/
  | interpretationMismatch (oid : Oid) (expected : Interpretation)
  /-- A place is taken. -/
  | duplicateRegistration (slot : Slot)
  /-- A provider does not let a place be cleared. -/
  | removalUnsupported (slot : Slot)
  /-- An engine is not in the state that an operation asks for. -/
  | engineState (fault : EngineFault)
  /-- A text is not an object identifier. -/
  | invalidOid (error : Oid.ParseError)
  /-- An adapter failed. -/
  | adapter (failure : Failure)
  deriving DecidableEq

namespace Error

/-- The wording of an error. -/
def message : Error → String
  | .notFound identifier => "no algorithm registered for " ++ identifier.text
  | .unsupportedParameter => "no registered algorithm supports the given key parameter"
  | .decode error => "malformed key info: " ++ error.message
  | .interpretationMismatch oid expected =>
    "public key payload for " ++ oid.text ++ " is not " ++ expected.text ++ " encoded"
  | .duplicateRegistration slot => slot.text ++ " is already registered"
  | .removalUnsupported slot => "provider does not allow removing " ++ slot.text
  | .engineState fault => "signature engine: " ++ fault.message
  | .invalidOid error => "invalid object identifier: " ++ error.message
  | .adapter failure => "algorithm adapter failed: " ++ failure.text

/-- Whether the catalog found nothing under an identifier. -/
def isNotFound : Error → Bool
  | .notFound _ => true
  | _ => false

/-- The messages of what caused an error. -/
def causes : Error → List String
  | .decode error => [error.message]
  | .invalidOid error => [error.message]
  | .adapter failure => failure.outermost :: failure.causes
  | _ => []

/-- An error of the catalog that an adapter passes on. -/
def toFailure (e : Error) : Failure :=
  ⟨e.message, e.causes⟩

/-- A failure that is passed on is no longer a lookup that found nothing. -/
@[simp] theorem isNotFound_adapter (failure : Failure) : (adapter failure).isNotFound = false := rfl

end Error

/-- A decoding error that an adapter passes on by itself. -/
def Der.Error.toFailure (e : Der.Error) : Failure :=
  .ofMessage e.message

end SignatureCatalog
