import SignatureCatalog.Provider.Table

/-!
# Scripted providers

A provider that stands in front of a table and follows a script: it fails where the script says so
and passes everything else on. It is how the behaviour of publishing towards difficult hosts is
observed. The script also says which requests the host reports.
-/

namespace SignatureCatalog

/-- How a scripted provider fails. -/
inductive ScriptedFault where
  | engineState
  | duplicateRegistration
  | removalUnsupported
  | unsupportedParameter
  | adapter
  deriving DecidableEq, Repr

/-- The error that a fault at a place comes out as. -/
def ScriptedFault.error (place : String) : ScriptedFault → Error
  | .engineState => .engineState (.described "scripted")
  | .duplicateRegistration => .duplicateRegistration (.described place)
  | .removalUnsupported => .removalUnsupported (.described place)
  | .unsupportedParameter => .unsupportedParameter
  | .adapter => .adapter (.ofMessage "scripted")

/-- What a scripted provider does differently. Places are given in words. -/
structure Script where
  /-- Places where adding fails. -/
  addFaults : List (String × ScriptedFault)
  /-- Places where removing fails. -/
  removeFaults : List (String × ScriptedFault)
  /-- Places that are said not to be removable; without them everything is said to be. -/
  locked? : Option (List String)

namespace Script

variable {ω β : Type}

/-- Takes a step unless the script makes it fail. -/
def guarded {π α : Type} (faults : List (String × ScriptedFault)) (place : String)
    (step : π → Except Error α × π) (state : π) : Except Error α × π :=
  match faults.lookup place with
  | some fault => (.error (fault.error place), state)
  | none => step state

/-- The provider that follows a script in front of a table. -/
def provider (script : Script) : Provider (ProviderTable ω β) ω β where
  entry key t := (t.get? key, t)
  addEntry key e := guarded script.addFaults key.text fun t => t.addEntry key e
  removeEntry key := guarded script.removeFaults key.text fun t => t.removeEntry key
  isRemovable key t := (match script.locked? with
    | some locked => !locked.contains key.text
    | none => true, t)
  addConverter oid adapter := guarded script.addFaults ("converter " ++ oid.text) fun t =>
    t.addConverter oid adapter
  removeConverter oid t := t.removeConverter oid

/-- Whether the host reports a request. It does not report being asked what can be removed, unless
it has places that cannot. -/
def reports (script : Script) : ProviderRequest → Bool
  | .isRemovable _ => script.locked?.isSome
  | _ => true

end Script

end SignatureCatalog
