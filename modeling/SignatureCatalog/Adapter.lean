import SignatureCatalog.KeyInfo.PrivateKey
import SignatureCatalog.Mark

/-!
# Adapters

An adapter is what an algorithm brings to the catalog: signing, verification, and the way its keys
are read from and written to key infos. To the catalog a key is opaque. It shows whether it is
private and may show the algorithm it belongs to; its body is the adapter's business.

The fields of `Adapter` are the adapter's own acts, which may log and change the world. The catalog
does not use them directly but asks through `Adapter.ask`, which marks the call; a failure becomes
an `Error.adapter` on the way (`Adapter.attempt`).
-/

namespace SignatureCatalog

/-- A key as an application holds it, with a body of type `β`. -/
structure Key (β : Type) where
  isPrivate : Bool
  /-- The algorithm the key says it belongs to, if it says so. -/
  algorithm? : Option Oid
  body : β
  deriving DecidableEq

/-- The same key, telling its algorithm. -/
def Key.tagged {β : Type} (k : Key β) (oid : Oid) : Key β :=
  { k with algorithm? := some oid }

/-- The same key, not telling its algorithm. -/
def Key.untagged {β : Type} (k : Key β) : Key β :=
  { k with algorithm? := none }

/-- What an algorithm brings to the catalog, in a world `ω`, for keys with bodies of type `β`. -/
structure Adapter (ω β : Type) where
  /-- What calls to the adapter are recorded under. -/
  label : String
  /-- Signs a message with the octets of a private key. -/
  sign : (message privateKey : Bytes) → Act Event ω (Except Failure Bytes)
  /-- Verifies a signature on a message with the octets of a public key. -/
  verify : (message publicKey signature : Bytes) → Act Event ω (Except Failure Bool)
  /-- Whether a key belongs to this algorithm. -/
  supports : Key β → Act Event ω Bool
  /-- How the payload of a public key info of this algorithm is to be read. -/
  publicKeyEncoding : Act Event ω Interpretation
  /-- Makes a key from a private key info. -/
  readPrivateKey : PrivateKeyInfo → Act Event ω (Except Failure (Key β))
  /-- Makes a key from a public key info, with what the caller passes along. -/
  readPublicKey : SubjectPublicKeyInfo → Option DefaultParameters →
    Act Event ω (Except Failure (Key β))
  /-- Writes a private key as a key info with the given attributes. -/
  writePrivateKey : Key β → Option Attributes → Act Event ω (Except Failure PrivateKeyInfo)
  /-- Writes the public half of a key as a key info. -/
  writePublicKey : Key β → Act Event ω (Except Failure SubjectPublicKeyInfo)

namespace Adapter

variable {ω β α : Type}

/-- Asks an adapter: the call is marked, then the adapter acts. -/
def ask (a : Adapter ω β) (request : AdapterRequest) (act : Act Event ω α) : Act Mark ω α := do
  .mark (.adapter a.label request)
  act.relabel .event

/-- Asks an adapter for something that may fail. -/
def attempt (a : Adapter ω β) (request : AdapterRequest) (act : Act Event ω (Except Failure α)) :
    Act Mark ω (Except Error α) := do
  return (← a.ask request act).mapError Error.adapter

/-- Asking leaves the call as its first mark, and the adapter's events after it. -/
@[simp] theorem run_ask (a : Adapter ω β) (request : AdapterRequest) (act : Act Event ω α)
    (world : ω) :
    (a.ask request act).run world =
      ⟨(act.run world).value, (act.run world).world,
        .adapter a.label request :: (act.run world).marks.map .event⟩ := rfl

@[simp] theorem run_attempt (a : Adapter ω β) (request : AdapterRequest)
    (act : Act Event ω (Except Failure α)) (world : ω) :
    (a.attempt request act).run world =
      ⟨(act.run world).value.mapError Error.adapter, (act.run world).world,
        .adapter a.label request :: (act.run world).marks.map .event⟩ := by
  simp [attempt]

/-- An adapter that logs nothing leaves the call alone. -/
theorem run_attempt_of_silent (a : Adapter ω β) (request : AdapterRequest)
    {act : Act Event ω (Except Failure α)} {world world' : ω} {answer : Except Failure α}
    (silent : act.run world = ⟨answer, world', []⟩) :
    (a.attempt request act).run world =
      ⟨answer.mapError Error.adapter, world', [.adapter a.label request]⟩ := by
  rw [run_attempt, silent]
  rfl

/-- Asks whether a key belongs to the adapter's algorithm. -/
def askSupports (a : Adapter ω β) (k : Key β) : Act Mark ω Bool :=
  a.ask .supports (a.supports k)

end Adapter

end SignatureCatalog
