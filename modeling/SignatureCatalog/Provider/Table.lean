import SignatureCatalog.FiniteMap
import SignatureCatalog.Provider.Basic

/-!
# Provider tables

A provider that lives in memory. It may refuse to have aliases removed, as some hosts do.

An algorithm is found in a table by name, or by object identifier in either spelling: the literal
name comes first, then the alias under the identifier leads to a name.
`ProviderTable.signatureEngine` makes an engine of what is found, and tells a malformed identifier
behind `OID.` from one that is not known.
-/

namespace SignatureCatalog

/-- A provider in memory. -/
structure ProviderTable (ω β : Type) where
  entries : FiniteMap ProviderKey (ProviderEntry ω β)
  converters : FiniteMap Oid (Adapter ω β)
  refusesAliasRemoval : Bool

namespace ProviderTable

variable {ω β : Type}

/-- A table without entries. -/
def empty (refusesAliasRemoval : Bool) : ProviderTable ω β :=
  ⟨∅, ∅, refusesAliasRemoval⟩

/-- What the table holds under a key. -/
def get? (t : ProviderTable ω β) (key : ProviderKey) : Option (ProviderEntry ω β) :=
  t.entries.get? key

/-- The converter for an object identifier. -/
def converter? (t : ProviderTable ω β) (oid : Oid) : Option (Adapter ω β) :=
  t.converters.get? oid

/-- Whether a key may be cleared. -/
def isRemovable (t : ProviderTable ω β) (key : ProviderKey) : Bool :=
  !(t.refusesAliasRemoval && key.isAlias)

/-- Adds an entry under a key that is free. -/
def addEntry (t : ProviderTable ω β) (key : ProviderKey) (e : ProviderEntry ω β) :
    Except Error Unit × ProviderTable ω β :=
  if t.entries.contains key then (.error (.duplicateRegistration (.entry key)), t)
  else (.ok (), { t with entries := t.entries.insert key e })

/-- Removes what is under a key, if the key may be cleared. -/
def removeEntry (t : ProviderTable ω β) (key : ProviderKey) :
    Except Error (Option (ProviderEntry ω β)) × ProviderTable ω β :=
  if t.isRemovable key then (.ok (t.get? key), { t with entries := t.entries.erase key })
  else (.error (.removalUnsupported (.entry key)), t)

/-- Adds a converter for an object identifier that has none. -/
def addConverter (t : ProviderTable ω β) (oid : Oid) (adapter : Adapter ω β) :
    Except Error Unit × ProviderTable ω β :=
  if t.converters.contains oid then (.error (.duplicateRegistration (.converter oid)), t)
  else (.ok (), { t with converters := t.converters.insert oid adapter })

/-- Removes the converter for an object identifier. -/
def removeConverter (t : ProviderTable ω β) (oid : Oid) :
    Option (Adapter ω β) × ProviderTable ω β :=
  (t.converter? oid, { t with converters := t.converters.erase oid })

/-- Tables are providers. -/
def provider : Provider (ProviderTable ω β) ω β where
  entry key t := (t.get? key, t)
  addEntry key e t := t.addEntry key e
  removeEntry key t := t.removeEntry key
  isRemovable key t := (t.isRemovable key, t)
  addConverter oid adapter t := t.addConverter oid adapter
  removeConverter oid t := t.removeConverter oid

/-! ### Finding an algorithm -/

/-- What stands behind `OID.` in a text that begins so. -/
def afterLead? (text : String) : Option String :=
  match text.toList with
  | 'O' :: 'I' :: 'D' :: '.' :: rest => some (String.ofList rest)
  | _ => none

/-- The engine bound under a name. -/
def engineNamed? (t : ProviderTable ω β) (name : String) : Option (EngineBinding ω β) :=
  match t.get? (.service .signature name) with
  | some (.engine binding) => some binding
  | _ => none

/-- The name that an object identifier in one of the spellings is an alias of. -/
def aliasTarget? (t : ProviderTable ω β) (spelling : String) : Option String :=
  let (form, dotted) := match afterLead? spelling with
    | some dotted => (AliasForm.prefixed, dotted)
    | none => (AliasForm.dotted, spelling)
  match Oid.parse dotted with
  | .error _ => none
  | .ok oid =>
    match t.get? (.alias .signature oid form) with
    | some (.alias name) => some name
    | _ => none

/-- The engine of an algorithm, given by name or by object identifier. -/
def resolveSignature (t : ProviderTable ω β) (algorithm : String) : Option (EngineBinding ω β) :=
  match t.engineNamed? algorithm with
  | some binding => some binding
  | none => (t.aliasTarget? algorithm).bind t.engineNamed?

/-- An engine for an algorithm, given by name or by object identifier. A text behind `OID.` has to
be an identifier even where the whole is the name of an algorithm. -/
def signatureEngine (t : ProviderTable ω β) (algorithm : String) :
    Except Error (SignatureEngine ω β) :=
  match (afterLead? algorithm).map Oid.parse with
  | some (.error e) => .error (.invalidOid e)
  | _ =>
    match t.resolveSignature algorithm with
    | some binding => .ok binding.newEngine
    | none => .error (.notFound (.name algorithm))

end ProviderTable

end SignatureCatalog
