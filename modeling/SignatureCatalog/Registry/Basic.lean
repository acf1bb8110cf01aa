import SignatureCatalog.Registry.Dispatch
import SignatureCatalog.Registry.Displacement

/-!
# The registry

A registry holds records in the order of their registration and finds them by each of the three
identifiers. Three indexes lead from an identifier to the place of its record, and the dispatch
tables hold the adapters once more for the handshake; all of them are built anew from the records
whenever these change (`Registry.ofRecords`).

* `Registry.register` adds a record at the end, unless one of its identifiers is taken: first the
  name is looked at, then the object identifier, then the scheme.
* `Registry.override` takes away every record that collides with the new one, and puts the new one
  where the first of them stood.

Registries that these two lead to from the empty one are `Registry.Reachable`.
-/

namespace SignatureCatalog

/-- The records of a catalog with their indexes. -/
structure Registry (ω β : Type) where
  records : List (Record ω β)
  byName : FiniteMap String Nat
  byOid : FiniteMap Oid Nat
  byScheme : FiniteMap SignatureScheme Nat
  dispatch : SignatureDispatch ω β

namespace Registry

variable {ω β : Type}

/-- The index of a list of records by one of their identifiers. -/
def indexBy {κ : Type} [DecidableEq κ] [Ord κ] (identifier : Record ω β → κ)
    (records : List (Record ω β)) : FiniteMap κ Nat :=
  records.zipIdx.foldl (fun index entry => index.insert (identifier entry.1) entry.2) ∅

/-- The registry of a list of records. -/
def ofRecords (records : List (Record ω β)) : Registry ω β where
  records := records
  byName := indexBy (·.name) records
  byOid := indexBy (·.oid) records
  byScheme := indexBy (·.scheme) records
  dispatch := .ofRecords records

/-- The registry without records. -/
def empty : Registry ω β := ofRecords []

/-- How many records there are. -/
def size (r : Registry ω β) : Nat :=
  r.records.length

/-- The schemes of the records, each as a legacy pair. -/
def signatureAndHashPairs (r : Registry ω β) : List SignatureAndHash :=
  r.records.map fun record => record.scheme.pair

/-! ### Lookups -/

/-- The record at the place that an index gives. -/
def recordAt? (r : Registry ω β) (place? : Option Nat) : Option (Record ω β) :=
  place?.bind fun place => r.records[place]?

/-- The record with a name. -/
def lookupName (r : Registry ω β) (name : String) : Except Error (Record ω β) :=
  match r.recordAt? (r.byName.get? name) with
  | some record => .ok record
  | none => .error (.notFound (.name name))

/-- The record with an object identifier. -/
def lookupOid (r : Registry ω β) (oid : Oid) : Except Error (Record ω β) :=
  match r.recordAt? (r.byOid.get? oid) with
  | some record => .ok record
  | none => .error (.notFound (.oid oid))

/-- The record with a scheme. -/
def lookupScheme (r : Registry ω β) (scheme : SignatureScheme) : Except Error (Record ω β) :=
  match r.recordAt? (r.byScheme.get? scheme) with
  | some record => .ok record
  | none => .error (.notFound (.scheme scheme))

/-- Whether an object identifier is registered. -/
def supportsOid (r : Registry ω β) (oid : Oid) : Bool :=
  r.byOid.contains oid

/-- Whether a scheme is registered. -/
def supportsScheme (r : Registry ω β) (scheme : SignatureScheme) : Bool :=
  r.byScheme.contains scheme

/-- Whether a legacy pair is registered. -/
def supportsPair (r : Registry ω β) (pair : SignatureAndHash) : Bool :=
  r.supportsScheme (.ofPair pair)

/-! ### Changes -/

/-- The identifier that keeps a new algorithm out. -/
def conflict? (r : Registry ω β) (identity : Identity) : Option Identifier :=
  if r.byName.contains identity.name then some (.name identity.name)
  else if r.byOid.contains identity.oid then some (.oid identity.oid)
  else if r.byScheme.contains identity.scheme then some (.scheme identity.scheme)
  else none

/-- Adds an algorithm at the end, unless one of its identifiers is taken. The adapter is asked about
its payloads first, so also where the algorithm is then refused. -/
def register (r : Registry ω β) (identity : Identity) (adapter : Adapter ω β) :
    Act Mark ω (Except Error (Registry ω β)) := do
  let record ← Record.make identity adapter
  match r.conflict? identity with
  | some identifier => return .error (.duplicateRegistration (.identifier identifier))
  | none =>
    log (.registering identity)
    return .ok (ofRecords (r.records ++ [record]))

/-- What an override logs: each record that gives way, or that nothing did. -/
def overrideEvents (identity : Identity) (displaced : List (Record ω β)) : List Event :=
  if displaced.isEmpty then [.registering identity]
  else displaced.map fun old => .overriding old.toIdentity identity

/-- Adds an algorithm in place of every record that collides with it; those come second. -/
def override (r : Registry ω β) (identity : Identity) (adapter : Adapter ω β) :
    Act Mark ω (Registry ω β × List (Record ω β)) := do
  let record ← Record.make identity adapter
  let change :=
    Displacement.displace (fun existing => existing.collidesWith identity) record r.records
  .markAll ((overrideEvents identity change.2).map .event)
  return (ofRecords change.1, change.2)

/-- The registries that registrations and overrides lead to, in whatever worlds these take place. A
registration that is refused leads nowhere new. -/
inductive Reachable : Registry ω β → Prop where
  | empty : Reachable empty
  | register {r r' : Registry ω β} (h : Reachable r) (identity : Identity)
      (adapter : Adapter ω β) (world : ω)
      (accepted : ((r.register identity adapter).run world).value = .ok r') : Reachable r'
  | override {r : Registry ω β} (h : Reachable r) (identity : Identity)
      (adapter : Adapter ω β) (world : ω) :
      Reachable ((r.override identity adapter).run world).value.1

@[simp] theorem records_ofRecords (records : List (Record ω β)) :
    (ofRecords records).records = records := rfl

/-- The tables of a reachable registry are those of its records: nothing stale is left in them. -/
theorem Reachable.eq_ofRecords {r : Registry ω β} (h : Reachable r) : r = ofRecords r.records := by
  cases h with
  | empty => rfl
  | register h identity adapter world accepted =>
    -- An accepted registration ends in `ofRecords`; a refused one has no registry to speak of.
    simp only [Registry.register, Act.run_bind, Record.run_make] at accepted
    split at accepted
    · simp at accepted
    · simp only [Act.run_bind, log, Act.run_mark, Act.run_pure, Except.ok.injEq] at accepted
      rw [← accepted, records_ofRecords]
  | override h identity adapter world => rfl

end Registry

end SignatureCatalog
