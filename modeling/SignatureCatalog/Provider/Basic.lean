import SignatureCatalog.Engine

/-!
# Providers

A provider is the host's own table of algorithms, as far as publishing needs it: entries under
provider keys, and converters from key infos to keys by object identifier. Hosts differ in what they
let others remove, and a host may do anything at all; `Provider` only says what it can be asked. Its
fields take the host's state and return it. The catalog asks through `Provider.ask`, which marks the
call.
-/

namespace SignatureCatalog

/-- What a provider holds under a key. -/
inductive ProviderEntry (ω β : Type) where
  /-- The name of the algorithm that an alias stands for. -/
  | alias (name : String)
  /-- An engine. -/
  | engine (binding : EngineBinding ω β)

/-- A host provider with state `π`. -/
structure Provider (π ω β : Type) where
  /-- What is held under a key. -/
  entry : ProviderKey → π → Option (ProviderEntry ω β) × π
  /-- Adds an entry; a key that is taken is a `duplicateRegistration`. -/
  addEntry : ProviderKey → ProviderEntry ω β → π → Except Error Unit × π
  /-- Removes an entry; a key that must not be cleared is a `removalUnsupported`. -/
  removeEntry : ProviderKey → π → Except Error (Option (ProviderEntry ω β)) × π
  /-- Whether removal would be accepted. -/
  isRemovable : ProviderKey → π → Bool × π
  /-- Adds a converter; an identifier that has one is a `duplicateRegistration`. -/
  addConverter : Oid → Adapter ω β → π → Except Error Unit × π
  /-- Removes a converter. -/
  removeConverter : Oid → π → Option (Adapter ω β) × π

namespace Provider

variable {π ω β α : Type}

/-- Asks a provider: the call is marked, then the provider takes a step. -/
def ask (request : ProviderRequest) (step : π → α × π) : Act Mark π α := do
  .mark (.provider request)
  .ofStep step

/-- Asking leaves the call as its only mark. -/
@[simp] theorem run_ask (request : ProviderRequest) (step : π → α × π) (world : π) :
    (ask request step).run world = ⟨(step world).1, (step world).2, [.provider request]⟩ := by
  simp [ask]

/-- Asks what is held under a key. -/
def askEntry (p : Provider π ω β) (key : ProviderKey) : Act Mark π (Option (ProviderEntry ω β)) :=
  ask (.entry key) (p.entry key)

/-- Asks to add an entry. -/
def askAdd (p : Provider π ω β) (key : ProviderKey) (e : ProviderEntry ω β) :
    Act Mark π (Except Error Unit) :=
  ask (.add key) (p.addEntry key e)

/-- Asks to remove an entry. -/
def askRemove (p : Provider π ω β) (key : ProviderKey) :
    Act Mark π (Except Error (Option (ProviderEntry ω β))) :=
  ask (.remove key) (p.removeEntry key)

/-- Asks whether removal would be accepted. -/
def askIsRemovable (p : Provider π ω β) (key : ProviderKey) : Act Mark π Bool :=
  ask (.isRemovable key) (p.isRemovable key)

/-- Asks to add a converter. -/
def askAddConverter (p : Provider π ω β) (oid : Oid) (adapter : Adapter ω β) :
    Act Mark π (Except Error Unit) :=
  ask (.addConverter oid) (p.addConverter oid adapter)

/-- Asks to remove a converter. -/
def askRemoveConverter (p : Provider π ω β) (oid : Oid) : Act Mark π (Option (Adapter ω β)) :=
  ask (.removeConverter oid) (p.removeConverter oid)

end Provider

end SignatureCatalog
