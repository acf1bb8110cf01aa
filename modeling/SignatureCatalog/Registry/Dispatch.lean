import SignatureCatalog.FiniteMap
import SignatureCatalog.Record

/-!
# Dispatch tables

What a TLS handshake needs of a registry. It signs with the algorithm that was negotiated by name,
verifies by the scheme on the wire, and offers the schemes in order. `SignatureDispatch.ofRecords`
builds the tables from a list of records, a later record taking the place of an earlier one under
the same identifier; a scheme is offered at the place where it first appears.
-/

namespace SignatureCatalog

/-- The tables of a handshake. -/
structure SignatureDispatch (ω β : Type) where
  signers : FiniteMap String (Adapter ω β)
  verifiers : FiniteMap SignatureScheme (Adapter ω β)
  /-- The schemes to offer, in order. -/
  supportedSchemes : List SignatureScheme

namespace SignatureDispatch

variable {ω β : Type}

/-- Tables without an algorithm. -/
def empty : SignatureDispatch ω β := ⟨∅, ∅, []⟩

/-- Enters a record. -/
def insert (d : SignatureDispatch ω β) (record : Record ω β) : SignatureDispatch ω β where
  signers := d.signers.insert record.name record.adapter
  verifiers := d.verifiers.insert record.scheme record.adapter
  supportedSchemes :=
    if d.verifiers.contains record.scheme then d.supportedSchemes
    else d.supportedSchemes ++ [record.scheme]

/-- The tables of a list of records. -/
def ofRecords (records : List (Record ω β)) : SignatureDispatch ω β :=
  records.foldl insert empty

/-- The adapter that signs under a name. -/
def signer (d : SignatureDispatch ω β) (name : String) : Except Error (Adapter ω β) :=
  match d.signers.get? name with
  | some adapter => .ok adapter
  | none => .error (.notFound (.name name))

/-- The adapter that verifies under a scheme. -/
def verifier (d : SignatureDispatch ω β) (scheme : SignatureScheme) :
    Except Error (Adapter ω β) :=
  match d.verifiers.get? scheme with
  | some adapter => .ok adapter
  | none => .error (.notFound (.scheme scheme))

/-- Signs a message under a name, with the octets of a private key. -/
def sign (d : SignatureDispatch ω β) (name : String) (message privateKey : Bytes) :
    Act Mark ω (Except Error Bytes) :=
  match d.signer name with
  | .error e => return .error e
  | .ok adapter => do
    log (.signing name message.length)
    adapter.attempt .sign (adapter.sign message privateKey)

/-- Verifies a signature on a message under a scheme, with the octets of a public key. -/
def verify (d : SignatureDispatch ω β) (scheme : SignatureScheme)
    (message publicKey signature : Bytes) : Act Mark ω (Except Error Bool) :=
  match d.verifier scheme with
  | .error e => return .error e
  | .ok adapter => do
    log (.verifying scheme message.length)
    adapter.attempt .verify (adapter.verify message publicKey signature)

/-- One more record at the end is one more insertion. -/
@[simp] theorem ofRecords_append_singleton (records : List (Record ω β)) (record : Record ω β) :
    ofRecords (records ++ [record]) = (ofRecords records).insert record := by
  simp [ofRecords]

end SignatureDispatch

end SignatureCatalog
