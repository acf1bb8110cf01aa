import SignatureCatalog.Description
import SignatureCatalog.Provider.Publisher
import SignatureCatalog.Provider.Scripted
import SignatureCatalog.Sample.HashScheme
import SignatureCatalog.Sample.ScriptedAdapter

/-!
# Commands

What can be asked of a session, in the order in which an application would come to it: keys, the
registry, engines, and host providers. Registries, providers, keys and engines are named by text
identifiers; everything that is described in text or by its encoding is built when the command is
carried out. `Answer` is what a command comes to when it succeeds.
-/

namespace SignatureCatalog.Session

open Sample

/-- Adapters of a session are of the hash scheme or stand in front of one, and keep no state. -/
abbrev SampleAdapter := Adapter Unit KeyBody

/-- Which record a registry is asked for. -/
inductive IdentifierDescription where
  | name (name : String)
  | oid (oid : String)
  | scheme (codePoint : UInt16)
  deriving DecidableEq, Repr

/-- What a registry may support. -/
inductive Supported where
  | key (id : String)
  | oid (oid : String)
  | scheme (codePoint : UInt16)
  | pair (hash signature : UInt8)
  deriving DecidableEq, Repr

/-- An adapter as a user describes it. -/
structure AdapterDescription where
  label : String
  /-- The object identifier of the variant, if it is not that of the command. -/
  oid? : Option String
  encoding : Interpretation
  script : AdapterScript
  deriving DecidableEq, Repr

/-- A key as a user describes it. -/
structure KeyDescription where
  /-- Whether the key is of a kind that no adapter knows. -/
  foreign : Bool
  isPrivate : Bool
  /-- Whether the key tells its algorithm. -/
  tagged : Bool
  oid? : Option String
  material : Bytes
  deriving DecidableEq, Repr

/-- What an entry of a provider is to hold. -/
inductive EntryDescription where
  /-- The name an alias stands for. -/
  | alias (name : String)
  /-- The engine of a record. -/
  | bind (name : String)
  deriving DecidableEq, Repr

/-- What can be asked about keys. -/
inductive KeyCommand where
  | make (id : String) (key : KeyDescription)
  | publicHalf (key id : String)
  deriving DecidableEq, Repr

/-- What can be asked of a registry. -/
inductive RegistryCommand where
  | register (name oid : String) (codePoint : UInt16) (adapter : AdapterDescription)
  | override (name oid : String) (codePoint : UInt16) (adapter : AdapterDescription)
  | show
  | pairs
  | lookup (identifier : IdentifierDescription)
  | supports (what : Supported)
  | signer (name : String)
  | verifier (codePoint : UInt16)
  | sign (name : String) (message privateKey : Bytes)
  | verify (codePoint : UInt16) (message publicKey signature : Bytes)
  | readPrivateKey (info : PrivateKeyDescription) (id : String)
  | readPublicKey (info : PublicKeyDescription) (id : String)
      (parameters : Option DefaultParameters)
  | writePrivateKey (key : String) (attributes? : Option (List AttributeDescription))
  | writePublicKey (key : String)
  | parsePublicKey (info : PublicKeyDescription)
  /-- An engine for the owner of a key. -/
  | engine (key target : String)
  /-- An engine for a record. -/
  | bind (name target : String)
  deriving DecidableEq, Repr

/-- What can be asked of an engine. -/
inductive EngineCommand where
  | initSign (key : String)
  | initVerify (key : String)
  | update (piece : Bytes)
  | sign
  | verify (signature : Bytes)
  deriving DecidableEq, Repr

/-- What can be asked of a provider. -/
inductive HostCommand where
  /-- Makes a provider, in place of one that is there. -/
  | make (refusesAliasRemoval : Bool) (script? : Option Script)
  /-- Publishes all records of a registry, or the one with a name. -/
  | configure (registry : String) (leniency : Leniency) (only? : Option String)
  | show
  | addEntry (registry : String) (key : ProviderKeyDescription) (content : EntryDescription)
  | removeEntry (key : ProviderKeyDescription)
  | entry (key : ProviderKeyDescription)
  | aliases (oid : String)
  | addConverter (oid : String) (adapter : AdapterDescription)
  | removeConverter (oid : String)
  | converter (oid : String)
  | resolve (algorithm : String)
  | engine (algorithm target : String)

/-- A command, directed to what it is about. -/
inductive Command where
  | key (command : KeyCommand)
  | registry (id : String) (command : RegistryCommand)
  | engine (id : String) (command : EngineCommand)
  | host (id : String) (command : HostCommand)

/-- What a command comes to. -/
inductive Answer where
  | done
  | bytes (octets : Bytes)
  | flag (value : Bool)
  /-- The label of an adapter, if there is one. -/
  | label (label? : Option String)
  | key (key : Key KeyBody)
  | record (record : Record Unit KeyBody)
  | registry (registry : Registry Unit KeyBody)
  | overridden (registry : Registry Unit KeyBody) (displaced : List (Record Unit KeyBody))
  | pairs (pairs : List SignatureAndHash)
  | privateKeyInfo (info : PrivateKeyInfo)
  | publicKeyInfo (info : SubjectPublicKeyInfo)
  | payload (payload : PublicKeyPayload)
  /-- The name of an engine. -/
  | engine (name : String)
  | host (table : ProviderTable Unit KeyBody)
  /-- How publishing ended, and the label of the converter for every record of the registry. -/
  | published (table : ProviderTable Unit KeyBody) (result : Except Error Unit)
      (converters : List (Oid × Option String))
  | removed (held? : Option (ProviderEntry Unit KeyBody))
  | found (held? : Option (ProviderEntry Unit KeyBody)) (removable : Bool)
  | aliases (entries : List (ProviderKey × Option (ProviderEntry Unit KeyBody)))
  | binding (binding? : Option (EngineBinding Unit KeyBody))

end SignatureCatalog.Session
