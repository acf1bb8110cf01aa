import SignatureCatalog.Registry.Routing
import SignatureCatalog.Sample.Sha256
import SignatureCatalog.Session.Command

/-!
# Sessions

A session holds what an application works with. Its steps are acts on it (`Session.Step`), which may
fail without leaving a trace in it, apart from what had been done before. What adapters and hosts do
in a step is marked as everywhere else; of the calls to a host, only those remain that the host
reports.
-/

namespace SignatureCatalog.Session

open Sample

/-- A host provider: a table, and perhaps a script that stands in front of it. -/
structure Host where
  table : ProviderTable Unit KeyBody
  script? : Option Script

namespace Host

/-- A host without entries that follows no script. -/
def plain : Host := ⟨.empty false, none⟩

/-- The provider that a host is. -/
def provider (h : Host) : Provider (ProviderTable Unit KeyBody) Unit KeyBody :=
  match h.script? with
  | none => ProviderTable.provider
  | some script => script.provider

/-- Whether a host reports what a mark says. A plain table reports no request. -/
def reports (h : Host) : Mark → Bool
  | .provider request => (h.script?.map fun script => script.reports request).getD false
  | _ => true

end Host

/-- What an application works with, by text identifiers. -/
structure State where
  registries : FiniteMap String (Registry Unit KeyBody)
  hosts : FiniteMap String Host
  keys : FiniteMap String (Key KeyBody)
  engines : FiniteMap String (SignatureEngine Unit KeyBody)

/-- A session in which nothing has happened. -/
def State.initial : State := ⟨∅, ∅, ∅, ∅⟩

/-- Why a step fails. -/
inductive StepError where
  /-- There is nothing under an identifier, or not what is wanted. -/
  | unknown (id : String)
  /-- Something went wrong in the catalog. -/
  | error (error : Error)
  deriving DecidableEq

/-- A step of a session. -/
abbrev Step := ExceptT StepError (Act Mark State)

namespace Step

variable {α : Type}

/-- Goes on with the result of an operation of the catalog. -/
def ofExcept (result : Except Error α) : Step α :=
  ExceptT.mk (pure (result.mapError .error))

/-- The session as it is. -/
def get : Step State :=
  ExceptT.lift (.ofStep fun state => (state, state))

/-- Changes the session. -/
def modify (f : State → State) : Step Unit :=
  ExceptT.lift (.ofStep fun state => ((), f state))

/-- What is under an identifier. -/
def find (map : State → FiniteMap String α) (id : String) : Step α := do
  match (map (← get)).get? id with
  | some a => pure a
  | none => throw (.unknown id)

/-- Has adapters act. They keep no state. -/
def adapters (act : Act Mark Unit α) : Step α :=
  ExceptT.lift (act.focus (fun _ => ()) fun _ state => state)

/-- The registry under an identifier, which is empty if it is not there yet. -/
def registry (id : String) : Step (Registry Unit KeyBody) := do
  return ((← get).registries.get? id).getD .empty

/-- The host under an identifier, which is plain and without entries if it is not there yet. -/
def host (id : String) : Step Host := do
  return ((← get).hosts.get? id).getD .plain

/-- Has the host under an identifier act. -/
def hosted (id : String) (act : Host → Act Mark (ProviderTable Unit KeyBody) α) : Step α := do
  let h ← host id
  ExceptT.lift <| ((act h).leaving h.reports).focus (fun _ => h.table) fun table state =>
    { state with hosts := state.hosts.insert id { h with table } }

/-- Puts a registry under an identifier. -/
def storeRegistry (id : String) (r : Registry Unit KeyBody) : Step Unit :=
  modify fun state => { state with registries := state.registries.insert id r }

/-- Puts a key under an identifier. -/
def storeKey (id : String) (k : Key KeyBody) : Step Answer := do
  modify fun state => { state with keys := state.keys.insert id k }
  return .key k

/-- Puts an engine under an identifier. -/
def storeEngine (id : String) (engine : SignatureEngine Unit KeyBody) : Step Unit :=
  modify fun state => { state with engines := state.engines.insert id engine }

end Step

end SignatureCatalog.Session
