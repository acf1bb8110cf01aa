import SignatureCatalog.Error
import SignatureCatalog.KeyInfo.PrivateKey

/-!
# Descriptions

Key infos, what they are made of, and provider keys, as a user describes them: object identifiers in
dotted text, values and key infos as their encodings, bit strings by octets and unused bits.
Building what is described fails at the first part that is wrong, and parts are looked at in the
order in which the fields of the description stand.
-/

namespace SignatureCatalog

/-- The object identifier that a text describes. -/
def Oid.ofText (text : String) : Except Error Oid :=
  (Oid.parse text).mapError .invalidOid

/-- The value that an encoding describes. -/
def Der.Value.ofEncoding (encoding : Bytes) : Except SignatureCatalog.Error Value :=
  (Value.ofDer encoding).mapError .decode

/-- An algorithm identifier by object identifier and parameters. -/
structure AlgorithmDescription where
  oid : String
  parameters? : Option Bytes
  deriving DecidableEq, Repr

/-- The algorithm identifier that is described. -/
def AlgorithmDescription.build (d : AlgorithmDescription) : Except Error AlgorithmIdentifier := do
  let oid ← Oid.ofText d.oid
  match d.parameters? with
  | none => return .ofOid oid
  | some encoding => return ⟨oid, some (← Der.Value.ofEncoding encoding)⟩

/-- A public key info by its encoding or by its parts. -/
inductive PublicKeyDescription where
  | encoded (encoding : Bytes)
  | parts (algorithm : AlgorithmDescription) (payload : Bytes) (unused? : Option UInt8)
  deriving DecidableEq, Repr

/-- The key info that is described. -/
def PublicKeyDescription.build : PublicKeyDescription → Except Error SubjectPublicKeyInfo
  | .encoded encoding => (SubjectPublicKeyInfo.ofDer encoding).mapError .decode
  | .parts algorithm payload unused? => do
    let info ← (SubjectPublicKeyInfo.ofOctets? (← algorithm.build) payload).mapError .decode
    match unused? with
    | none => return info
    | some unused =>
      let bits ← (Der.BitString.make unused payload).mapError fun fault =>
        Error.decode ⟨fault, none⟩
      return { info with subjectPublicKey := bits }

/-- An attribute by object identifier and values. -/
structure AttributeDescription where
  oid : String
  values : List Bytes
  deriving DecidableEq, Repr

/-- The attribute that is described. Values are added one by one, before the object identifier is
read. -/
def AttributeDescription.build (d : AttributeDescription) : Except Error Attribute := do
  let values ← d.values.foldlM (fun values encoding => do
    let v ← Der.Value.ofEncoding encoding
    (Der.SetOf.insert Der.Value.compareDer v values).mapError .decode) []
  return ⟨← Oid.ofText d.oid, values⟩

/-- The set of attributes that is described, one being added after the other. -/
def Attributes.build (ds : List AttributeDescription) : Except Error Attributes :=
  ds.foldlM (fun attributes d => do
    let a ← d.build
    (Der.SetOf.insert Attribute.compareDer a attributes).mapError .decode) []

/-- A private key info by its encoding or by its parts. -/
inductive PrivateKeyDescription where
  | encoded (encoding : Bytes)
  | parts (algorithm : AlgorithmDescription) (privateKey : Bytes)
      (attributes? : Option (List AttributeDescription)) (version? : Option UInt64)
  deriving DecidableEq, Repr

/-- The key info that is described. -/
def PrivateKeyDescription.build : PrivateKeyDescription → Except Error PrivateKeyInfo
  | .encoded encoding => (PrivateKeyInfo.ofDer encoding).mapError .decode
  | .parts algorithm privateKey attributes? version? => do
    let info ← (PrivateKeyInfo.ofOctets? (← algorithm.build) privateKey).mapError .decode
    let attributes ← match attributes? with
      | none => pure none
      | some ds => some <$> Attributes.build ds
    return { info with attributes, version := version?.getD info.version }

/-- A provider key by name or by object identifier. -/
inductive ProviderKeyDescription where
  | service (service : Service) (name : String)
  | alias (service : Service) (oid : String) (form : AliasForm)
  deriving DecidableEq, Repr

/-- The provider key that is described. -/
def ProviderKeyDescription.build : ProviderKeyDescription → Except Error ProviderKey
  | .service s name => .ok (.service s name)
  | .alias s oid form => return .alias s (← Oid.ofText oid) form

/-- The key info whose payload is a value with the given tag octet and content. The tag is looked at
before the algorithm is. -/
def SubjectPublicKeyInfo.ofTagged (octet : UInt8) (content : Bytes)
    (algorithm : AlgorithmDescription) : Except Error SubjectPublicKeyInfo := do
  let tag ← (Der.Tag.ofOctet octet).mapError fun fault => Error.decode ⟨fault, none⟩
  (ofValue? (← algorithm.build) ⟨tag, content⟩).mapError .decode

/-- Wraps a key info in one algorithm after the other. -/
def SubjectPublicKeyInfo.wrapAll (info : SubjectPublicKeyInfo)
    (layers : List AlgorithmDescription) : Except Error SubjectPublicKeyInfo :=
  layers.foldlM (fun inner d => do (wrap? (← d.build) inner).mapError .decode) info

end SignatureCatalog
