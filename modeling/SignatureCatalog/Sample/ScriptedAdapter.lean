import SignatureCatalog.Adapter

/-!
# Scripted adapters

An adapter in front of another one that follows a script: it refuses the requests the script names,
answers about keys as the script says, and may spoil the bit string of the key infos it writes. It
is how the behaviour of the catalog towards difficult adapters is observed.
-/

namespace SignatureCatalog.Sample

/-- What a scripted adapter does differently. -/
structure AdapterScript where
  /-- The names of the requests that fail. -/
  refusals : List String
  /-- The answer to whether a key is supported, if it is fixed. -/
  accepts? : Option Bool
  /-- The number of unused bits in the key infos of public keys, if it is fixed. -/
  unaligned? : Option UInt8
  deriving DecidableEq, Repr

namespace AdapterScript

variable {ω β α : Type}

/-- How a scripted adapter fails. -/
def refusal (label : String) (request : AdapterRequest) : Failure :=
  ⟨label ++ "." ++ request.name ++ " refused", ["token offline"]⟩

/-- Acts unless the script makes it fail. -/
def guarded (script : AdapterScript) (label : String) (request : AdapterRequest)
    (act : Act Event ω (Except Failure α)) : Act Event ω (Except Failure α) :=
  if script.refusals.contains request.name then return .error (refusal label request) else act

/-- A key info with another number of unused bits. -/
def spoil (unused : UInt8) (info : SubjectPublicKeyInfo) : Except Failure SubjectPublicKeyInfo :=
  match Der.BitString.make unused info.subjectPublicKey.octets with
  | .ok bits => .ok { info with subjectPublicKey := bits }
  | .error fault => .error (Der.Error.toFailure ⟨fault, none⟩)

/-- The adapter that follows a script in front of another one. -/
def adapter (script : AdapterScript) (inner : Adapter ω β) : Adapter ω β where
  label := inner.label
  sign message privateKey :=
    script.guarded inner.label .sign (inner.sign message privateKey)
  verify message publicKey signature :=
    script.guarded inner.label .verify (inner.verify message publicKey signature)
  supports k := match script.accepts? with
    | some answer => return answer
    | none => inner.supports k
  publicKeyEncoding := inner.publicKeyEncoding
  readPrivateKey info :=
    script.guarded inner.label .readPrivateKey (inner.readPrivateKey info)
  readPublicKey info parameters :=
    script.guarded inner.label (.readPublicKey parameters) (inner.readPublicKey info parameters)
  writePrivateKey k attributes :=
    script.guarded inner.label .writePrivateKey (inner.writePrivateKey k attributes)
  writePublicKey k := script.guarded inner.label .writePublicKey <|
    match script.unaligned? with
    | none => inner.writePublicKey k
    | some unused => (inner.writePublicKey k).andThen fun info => return spoil unused info

end AdapterScript

end SignatureCatalog.Sample
