import SignatureCatalog.Oid.Known
import SignatureCatalog.Provider.Basic
import SignatureCatalog.Registry.Basic

/-!
# Publishing

Publishing a record puts its engine into a provider under the record's name, an alias for its object
identifier under each service in both spellings, and a converter for its key infos. Whatever is in a
place is removed first, so that publishing twice, or over an algorithm of the host's own, replaces
what was there.

A host may refuse a removal. Whether that matters is settled before anything is written: an engine
that cannot be replaced is always an error, an alias that cannot be replaced is one only where the
leniency is `strict`. Elsewhere such an alias stays as it is.
-/

namespace SignatureCatalog

/-- What to do about an alias that is taken and cannot be removed. -/
inductive Leniency where
  /-- Leave it as it is. -/
  | allow
  /-- Leave it as it is, and log a warning. -/
  | warn
  /-- Fail. -/
  | strict
  deriving DecidableEq, Repr

namespace Leniency

/-- Where nothing is said, a warning is logged. -/
instance : Inhabited Leniency := ⟨.warn⟩

end Leniency

namespace Provider

variable {π ω β : Type}

/-- Whether there is an entry that cannot be removed. -/
def isStuck (p : Provider π ω β) (key : ProviderKey) : Act Mark π Bool := do
  match ← p.askEntry key with
  | none => return false
  | some _ => return !(← p.askIsRemovable key)

/-- The first key with an entry that cannot be removed. -/
def firstStuck (p : Provider π ω β) : List ProviderKey → Act Mark π (Option ProviderKey)
  | [] => return none
  | key :: rest => do
    if ← p.isStuck key then return some key else firstStuck p rest

/-- Fails on the first entry that would have to be replaced and cannot be. -/
def checkConflicts (p : Provider π ω β) (leniency : Leniency) (engine : ProviderKey)
    (aliases : List ProviderKey) : Act Mark π (Except Error Unit) := do
  if ← p.isStuck engine then return .error (.removalUnsupported (.entry engine))
  -- Where aliases may stay as they are, nobody needs to know whether they can be removed.
  if leniency = .strict then
    match ← p.firstStuck aliases with
    | some key => return .error (.duplicateRegistration (.entry key))
    | none => return .ok ()
  return .ok ()

/-- Replaces an entry that may be replaced. -/
def replace (p : Provider π ω β) (key : ProviderKey) (e : ProviderEntry ω β) :
    Act Mark π (Except Error Unit) :=
  (p.askRemove key).andThen fun _ => p.askAdd key e

/-- Adds an alias that may be taken. -/
def addAlias (p : Provider π ω β) (leniency : Leniency) (key : ProviderKey) (name : String) :
    Act Mark π (Except Error Unit) := do
  match ← p.askAdd key (.alias name) with
  | .error (.duplicateRegistration slot) =>
    match leniency with
    | .allow => return .ok ()
    | .warn =>
      log (.keepingAlias slot name)
      return .ok ()
    | .strict => return .error (.duplicateRegistration slot)
  | result => return result

/-- Replaces an alias that the provider may refuse to remove: it is then found to be taken. -/
def replaceAlias (p : Provider π ω β) (leniency : Leniency) (name : String) (key : ProviderKey) :
    Act Mark π (Except Error Unit) := do
  match ← p.askRemove key with
  | .ok _ => p.addAlias leniency key name
  -- The entry is still there, so that the addition reports it.
  | .error (.removalUnsupported _) => p.addAlias leniency key name
  | .error e => return .error e

/-- Replaces aliases one after the other. -/
def replaceAliases (p : Provider π ω β) (leniency : Leniency) (name : String) :
    List ProviderKey → Act Mark π (Except Error Unit)
  | [] => return .ok ()
  | key :: rest =>
    (p.replaceAlias leniency name key).andThen fun _ => replaceAliases p leniency name rest

/-- Replaces the converter for an object identifier. -/
def replaceConverter (p : Provider π ω β) (oid : Oid) (adapter : Adapter ω β) :
    Act Mark π (Except Error Unit) := do
  let _ ← p.askRemoveConverter oid
  p.askAddConverter oid adapter

/-- Puts a record into a provider. -/
def publish (p : Provider π ω β) (leniency : Leniency) (record : Record ω β) :
    Act Mark π (Except Error Unit) := do
  log (.publishing record.toIdentity record.oid.wellKnownName?)
  let engine := ProviderKey.service .signature record.name
  let aliases := ProviderKey.aliases record.oid
  (p.checkConflicts leniency engine aliases).andThen fun _ =>
    (p.replace engine (.engine (.ofRecord record))).andThen fun _ =>
      (p.replaceAliases leniency record.name aliases).andThen fun _ =>
        p.replaceConverter record.oid record.adapter

/-- Puts records into a provider one after the other, up to the first that fails. -/
def publishAll (p : Provider π ω β) (leniency : Leniency) :
    List (Record ω β) → Act Mark π (Except Error Unit)
  | [] => return .ok ()
  | record :: rest =>
    (p.publish leniency record).andThen fun _ => publishAll p leniency rest

/-- Puts every record of a registry into a provider, in the order of registration. -/
def configure (p : Provider π ω β) (leniency : Leniency) (r : Registry ω β) :
    Act Mark π (Except Error Unit) :=
  p.publishAll leniency r.records

end Provider

end SignatureCatalog
