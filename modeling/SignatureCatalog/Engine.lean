import SignatureCatalog.Record

/-!
# Signature engines

An engine signs or verifies a message that arrives in pieces. It is prepared with a key, collects
the pieces, and hands the whole message to its adapter in one call, because the algorithms of the
catalog sign the message itself and not a digest of it.

* A failed preparation changes nothing: an earlier session goes on, with the message collected so
  far.
* Signing and verifying end the message, also when the adapter fails; the key stays prepared.

Every operation returns the engine as it leaves it, together with the answer. An operation is also a
value, an `EngineOperation`, and `SignatureEngine.perform` carries one out, so that a history of an
engine is a list.
-/

namespace SignatureCatalog

/-- What an engine is prepared for, with the octets of the key. -/
inductive EngineMode where
  | uninitialized
  | sign (privateKey : Bytes)
  | verify (publicKey : Bytes)
  deriving DecidableEq, Repr

/-- Whether an engine is prepared. -/
def EngineMode.isInitialized : EngineMode → Bool
  | .uninitialized => false
  | _ => true

/-- A signature engine. -/
structure SignatureEngine (ω β : Type) where
  name : String
  adapter : Adapter ω β
  mode : EngineMode
  message : Bytes

/-- What an engine can be asked to do. -/
inductive EngineOperation (β : Type) where
  | initSign (key : Key β)
  | initVerify (key : Key β)
  | update (piece : Bytes)
  | sign
  | verify (signature : Bytes)

/-- What an operation comes to when it succeeds. -/
inductive EngineReply where
  | done
  | signature (octets : Bytes)
  | verdict (valid : Bool)
  deriving DecidableEq, Repr

/-- What makes engines for one algorithm. -/
structure EngineBinding (ω β : Type) where
  name : String
  adapter : Adapter ω β

namespace SignatureEngine

variable {ω β : Type}

/-- An engine that is not prepared. -/
def new (name : String) (adapter : Adapter ω β) : SignatureEngine ω β :=
  ⟨name, adapter, .uninitialized, []⟩

/-- The same engine, prepared anew and without a message. -/
def prepared (engine : SignatureEngine ω β) (mode : EngineMode) : SignatureEngine ω β :=
  { engine with mode, message := [] }

/-- The same engine, without a message. -/
def cleared (engine : SignatureEngine ω β) : SignatureEngine ω β :=
  { engine with message := [] }

/-- Prepares for signing. The key must be private and the adapter must support it, which it is not
asked about a public key. -/
def initSign (engine : SignatureEngine ω β) (k : Key β) :
    Act Mark ω (Except Error Unit × SignatureEngine ω β) := do
  -- A public key is turned away before the adapter is asked about it.
  if !k.isPrivate then return (.error .unsupportedParameter, engine)
  if !(← engine.adapter.askSupports k) then return (.error .unsupportedParameter, engine)
  match ← engine.adapter.attempt .writePrivateKey (engine.adapter.writePrivateKey k none) with
  | .error e => return (.error e, engine)
  | .ok info => return (.ok (), engine.prepared (.sign info.privateKey))

/-- Prepares for verification. The key must be public, the adapter must support it, and its key info
must hold a string of octets. -/
def initVerify (engine : SignatureEngine ω β) (k : Key β) :
    Act Mark ω (Except Error Unit × SignatureEngine ω β) := do
  if k.isPrivate then return (.error .unsupportedParameter, engine)
  if !(← engine.adapter.askSupports k) then return (.error .unsupportedParameter, engine)
  match ← engine.adapter.attempt .writePublicKey (engine.adapter.writePublicKey k) with
  | .error e => return (.error e, engine)
  | .ok info =>
    match info.keyOctets with
    | .error e => return (.error (.decode e), engine)
    | .ok publicKey => return (.ok (), engine.prepared (.verify publicKey))

/-- Adds a piece to the message. -/
def update (engine : SignatureEngine ω β) (piece : Bytes) :
    Except Error Unit × SignatureEngine ω β :=
  if engine.mode.isInitialized then (.ok (), { engine with message := engine.message ++ piece })
  else (.error (.engineState .notInitialized), engine)

/-- Signs the message. -/
def sign (engine : SignatureEngine ω β) :
    Act Mark ω (Except Error Bytes × SignatureEngine ω β) :=
  match engine.mode with
  | .sign privateKey => do
    let answer ← engine.adapter.attempt .sign (engine.adapter.sign engine.message privateKey)
    return (answer, engine.cleared)
  | _ => return (.error (.engineState .notSigning), engine)

/-- Verifies a signature on the message. -/
def verify (engine : SignatureEngine ω β) (signature : Bytes) :
    Act Mark ω (Except Error Bool × SignatureEngine ω β) :=
  match engine.mode with
  | .verify publicKey => do
    let answer ← engine.adapter.attempt .verify
      (engine.adapter.verify engine.message publicKey signature)
    return (answer, engine.cleared)
  | _ => return (.error (.engineState .notVerifying), engine)

/-- **Pieces add up.** Two updates are one with both pieces. -/
theorem update_update (engine : SignatureEngine ω β) (piece piece' : Bytes) :
    (engine.update piece).2.update piece' = engine.update (piece ++ piece') := by
  unfold update
  by_cases h : engine.mode.isInitialized <;> simp [h]

/-! ### Operations as values -/

/-- Carries out an operation. -/
def perform (engine : SignatureEngine ω β) :
    EngineOperation β → Act Mark ω (Except Error EngineReply × SignatureEngine ω β)
  | .initSign k => reply (fun _ => .done) <$> engine.initSign k
  | .initVerify k => reply (fun _ => .done) <$> engine.initVerify k
  | .update piece => return reply (fun _ => .done) (engine.update piece)
  | .sign => reply .signature <$> engine.sign
  | .verify signature => reply .verdict <$> engine.verify signature
where
  reply {α : Type} (f : α → EngineReply) (answer : Except Error α × SignatureEngine ω β) :
      Except Error EngineReply × SignatureEngine ω β :=
    (answer.1.map f, answer.2)

/-- An update asks nothing of anybody. -/
@[simp] theorem run_perform_update (engine : SignatureEngine ω β) (piece : Bytes) (world : ω) :
    (engine.perform (.update piece)).run world =
      ⟨((engine.update piece).1.map fun _ => .done, (engine.update piece).2), world, []⟩ := rfl

end SignatureEngine

namespace EngineBinding

variable {ω β : Type}

/-- The binding of a record. -/
def ofRecord (record : Record ω β) : EngineBinding ω β :=
  ⟨record.name, record.adapter⟩

/-- An engine for the algorithm, not prepared. -/
def newEngine (binding : EngineBinding ω β) : SignatureEngine ω β :=
  .new binding.name binding.adapter

end EngineBinding

end SignatureCatalog
