import SignatureCatalog.KeyInfo.Payload
import SignatureCatalog.Adapter

/-!
# The hash scheme

A sample algorithm with which the catalog is exercised. It is not secure: with a hash function `H`,
the public key is `H private` and a signature on a message is `H (public ++ message)`, so whoever
can verify can sign. What it does have is everything an algorithm brings to the catalog: keys with a
body of their own, key infos in either interpretation, and failures in its own words.

The hash function is a parameter; nothing here depends on which one it is, except that a private key
signs only if it has thirty-two octets.

A flat payload is an OCTET STRING with the public key. A nested one is a key info under
`HashScheme.innerOid` with the public key as its payload. Keys that are too long for either are not
written.
-/

namespace SignatureCatalog.Sample

/-- The body of a key of the hash scheme. -/
structure HashKey where
  /-- The algorithm the key belongs to, whether the key tells it or not. -/
  scheme : Oid
  material : Bytes
  deriving DecidableEq

/-- The bodies of the keys in use: those of the hash scheme, and those that no adapter knows. -/
inductive KeyBody where
  | hash (key : HashKey)
  | foreign
  deriving DecidableEq

/-- The variants of the hash scheme. -/
structure HashScheme where
  oid : Oid
  encoding : Interpretation
  deriving DecidableEq

namespace HashScheme

/-- The identifier of the key infos inside nested payloads: 1.3.6.1.4.1.2.267.7.4.4. -/
def innerOid : Oid :=
  ⟨[0x2B, 0x06, 0x01, 0x04, 0x01, 0x02, 0x82, 0x0B, 0x07, 0x04, 0x04]⟩

/-- A key of the scheme, which tells its algorithm. -/
def key (scheme : Oid) (isPrivate : Bool) (material : Bytes) : Key KeyBody :=
  ⟨isPrivate, some scheme, .hash ⟨scheme, material⟩⟩

variable (hash : Bytes → Bytes)

/-- The octets of the public key that belongs to a key. -/
def publicMaterial (isPrivate : Bool) (material : Bytes) : Bytes :=
  if isPrivate then hash material else material

/-- The public half of a key of the scheme. -/
def publicHalf? (k : Key KeyBody) : Option (Key KeyBody) :=
  match k.body with
  | .hash body =>
    some { k with
      isPrivate := false
      body := .hash { body with material := publicMaterial hash k.isPrivate body.material } }
  | .foreign => none

/-- The body of a key of this variant. -/
def body? (s : HashScheme) (k : Key KeyBody) : Except Failure HashKey :=
  match k.body with
  | .hash body =>
    if body.scheme = s.oid then .ok body else .error (.ofMessage ("Not a " ++ s.oid.text ++ " key"))
  | .foreign => .error (.ofMessage ("Not a " ++ s.oid.text ++ " key"))

/-- The public key in a payload. -/
def payloadMaterial (s : HashScheme) (payload : Bytes) : Except Failure Bytes :=
  match s.encoding with
  | .flat =>
    (Der.Decoder.decode (Der.Decoder.typed .octetString Der.Decoder.take) payload).mapError
      Der.Error.toFailure
  | .nested =>
    match SubjectPublicKeyInfo.ofDer payload with
    | .error e => .error e.toFailure
    | .ok inner => inner.keyOctets.mapError fun e => (Error.decode e).toFailure

/-- The public key in a payload that has been read. -/
def parsedMaterial : PublicKeyPayload → Except Failure Bytes
  | .flat v => v.octetString?.mapError Der.Error.toFailure
  | .nested inner => inner.keyOctets.mapError fun e => (Error.decode e).toFailure

/-- The signature on a message under a public key. -/
def signature (publicKey message : Bytes) : Bytes :=
  hash (publicKey ++ message)

/-- The key info of a public key, if it is within the length limit. -/
def publicKeyInfo? (s : HashScheme) (publicKey : Bytes) : Except Failure SubjectPublicKeyInfo :=
  match s.encoding with
  | .flat => do
    let octets ← (Der.OctetString.make publicKey).mapError Der.Error.toFailure
    (SubjectPublicKeyInfo.ofValue? (.ofOid s.oid) ⟨.octetString, octets⟩).mapError fun e =>
      (Error.decode e).toFailure
  | .nested =>
    ((SubjectPublicKeyInfo.ofOctets? (.ofOid innerOid) publicKey).bind
      (SubjectPublicKeyInfo.wrap? (.ofOid s.oid))).mapError fun e => (Error.decode e).toFailure

/-- The key info of a private key, if the key is within the length limit. The attributes are not
looked at. -/
def privateKeyInfo? (s : HashScheme) (privateKey : Bytes) (attributes : Option Attributes) :
    Except Failure PrivateKeyInfo :=
  ((PrivateKeyInfo.ofOctets? (.ofOid s.oid) privateKey).map
    (·.withAttributes attributes)).mapError fun e => (Error.decode e).toFailure

/-- The adapter of a variant. Only reading a public key logs anything. -/
def adapter {ω : Type} (s : HashScheme) (label : String) : Adapter ω KeyBody where
  label := label
  sign message privateKey := return (
    if privateKey.length = 32 then .ok (signature hash (hash privateKey) message)
    else .error (.ofMessage "Invalid private key length"))
  verify message publicKey claimed := return (
    (s.payloadMaterial publicKey).map fun publicKey => signature hash publicKey message = claimed)
  supports k := return (s.body? k).isOk
  publicKeyEncoding := return s.encoding
  readPrivateKey info := return (
    if info.oid = s.oid then .ok (key s.oid true info.privateKey)
    else .error (.ofMessage "Unexpected algorithm"))
  readPublicKey info _ :=
    if info.oid = s.oid then do
      let payload ← info.parsePayload s.encoding
      return do
        let payload ← payload.mapError fun e => (Error.decode e).toFailure
        let material ← parsedMaterial payload
        return key s.oid false material
    else return .error (.ofMessage "Unexpected algorithm")
  writePrivateKey k attributes := return do
    let body ← s.body? k
    if k.isPrivate then s.privateKeyInfo? body.material attributes
    else throw (.ofMessage "Not a private key")
  writePublicKey k := return do
    let body ← s.body? k
    s.publicKeyInfo? (publicMaterial hash k.isPrivate body.material)

end HashScheme

end SignatureCatalog.Sample
