import SignatureCatalog.Engine
import SignatureCatalog.KeyInfo.Payload
import SignatureCatalog.Registry.Basic

/-!
# Routing

Key infos and keys find their way to an adapter. A key info names its algorithm, so it is directed
by object identifier. A key that tells its algorithm goes to that record, and to no other, provided
the record's adapter supports it. A key that does not is shown to the adapters in the order of
registration, and the first that supports it owns it; adapters after that one are not asked.
-/

namespace SignatureCatalog.Registry

variable {ω β : Type}

/-- The first record whose adapter supports a key. -/
def firstSupporting (k : Key β) : List (Record ω β) → Act Mark ω (Option (Record ω β))
  | [] => return none
  | record :: rest => do
    if ← record.adapter.askSupports k then return some record
    else firstSupporting k rest

/-- The record that owns a key. -/
def owner (r : Registry ω β) (k : Key β) : Act Mark ω (Except Error (Record ω β)) :=
  match k.algorithm? with
  | some oid =>
    match r.lookupOid oid with
    | .error _ => return .error .unsupportedParameter
    | .ok record => do
      if ← record.adapter.askSupports k then return .ok record
      else return .error .unsupportedParameter
  | none => do
    match ← firstSupporting k r.records with
    | some record => return .ok record
    | none => return .error .unsupportedParameter

/-- Whether a key has an owner. -/
def supportsKey (r : Registry ω β) (k : Key β) : Act Mark ω Bool := do
  return (← r.owner k).isOk

/-! ### From key infos to keys -/

/-- Makes a key from a private key info. -/
def readPrivateKey (r : Registry ω β) (info : PrivateKeyInfo) :
    Act Mark ω (Except Error (Key β)) :=
  match r.lookupOid info.oid with
  | .error e => return .error e
  | .ok record => record.adapter.attempt .readPrivateKey (record.adapter.readPrivateKey info)

/-- Makes a key from a public key info, passing default parameters along. -/
def readPublicKey (r : Registry ω β) (info : SubjectPublicKeyInfo)
    (parameters : Option DefaultParameters) : Act Mark ω (Except Error (Key β)) :=
  match r.lookupOid info.oid with
  | .error e => return .error e
  | .ok record =>
    record.adapter.attempt (.readPublicKey parameters)
      (record.adapter.readPublicKey info parameters)

/-- Reads the payload of a public key info as its algorithm declares. That a nested payload can be
read is settled first, so that one which cannot is reported as a mismatch and not as malformed. -/
def parsePublicKey (r : Registry ω β) (info : SubjectPublicKeyInfo) :
    Act Mark ω (Except Error PublicKeyPayload) :=
  match r.lookupOid info.oid with
  | .error e => return .error e
  | .ok record =>
    let parse : Act Mark ω (Except Error PublicKeyPayload) := do
      let payload ← (info.parsePayload record.publicKeyEncoding).relabel .event
      return payload.mapError .decode
    match record.publicKeyEncoding with
    | .flat => parse
    | .nested =>
      match info.keyOctets with
      | .error e => return .error (.decode e)
      | .ok octets =>
        -- From here on the payload is known to be a key info, and reading it succeeds.
        if (SubjectPublicKeyInfo.ofDer octets).isOk then parse
        else return .error (.interpretationMismatch info.oid .nested)

/-! ### From keys to key infos and engines -/

/-- Writes a private key as a key info with the given attributes. -/
def writePrivateKey (r : Registry ω β) (k : Key β) (attributes : Option Attributes) :
    Act Mark ω (Except Error PrivateKeyInfo) :=
  (r.owner k).andThen fun record =>
    record.adapter.attempt .writePrivateKey (record.adapter.writePrivateKey k attributes)

/-- Writes the public half of a key as a key info. -/
def writePublicKey (r : Registry ω β) (k : Key β) :
    Act Mark ω (Except Error SubjectPublicKeyInfo) :=
  (r.owner k).andThen fun record =>
    record.adapter.attempt .writePublicKey (record.adapter.writePublicKey k)

/-- An engine for the algorithm that owns a key, not prepared. -/
def signatureEngine (r : Registry ω β) (k : Key β) :
    Act Mark ω (Except Error (SignatureEngine ω β)) :=
  (r.owner k).andThen fun record => return .ok (.new record.name record.adapter)

/-- A key that tells an algorithm which is not registered has no owner, and nobody is asked. -/
theorem owner_of_tagged_of_notFound {r : Registry ω β} {k : Key β} {oid : Oid} {e : Error}
    (tagged : k.algorithm? = some oid) (missing : r.lookupOid oid = .error e) :
    r.owner k = pure (.error .unsupportedParameter) := by
  simp [owner, tagged, missing]

end SignatureCatalog.Registry
