import SignatureCatalog.Act
import SignatureCatalog.Event

/-!
# Marks

What an act of the catalog leaves behind: the calls it made to adapters and to a host provider, and
the events it logged, all in one order. Adapters log events of their own but leave no other marks,
so a call that is found among the marks was made by the catalog, and every call it made is found
there.
-/

namespace SignatureCatalog

/-- What a caller may pass along for schemes whose keys cannot be built from a key info alone: a
number, or something only the adapter understands. -/
inductive DefaultParameters where
  | number (n : UInt32)
  | other
  deriving DecidableEq, Repr

/-- What an adapter can be asked. -/
inductive AdapterRequest where
  | sign
  | verify
  | supports
  | publicKeyEncoding
  | readPrivateKey
  | readPublicKey (parameters : Option DefaultParameters)
  | writePrivateKey
  | writePublicKey
  deriving DecidableEq, Repr

/-- A number as default parameters, if it fits into 32 bits. -/
def DefaultParameters.ofNat? (n : Nat) : Option DefaultParameters :=
  if n < UInt32.size then some (.number (UInt32.ofNat n)) else none

/-- The name of a request. -/
def AdapterRequest.name : AdapterRequest → String
  | .sign => "sign"
  | .verify => "verify"
  | .supports => "is_supported_parameter"
  | .publicKeyEncoding => "public_key_encoding"
  | .readPrivateKey => "create_private_key_parameter"
  | .readPublicKey _ => "create_public_key_parameter"
  | .writePrivateKey => "create_private_key_info"
  | .writePublicKey => "create_subject_public_key_info"

/-- The name of a request, for reading a public key with the default parameters. -/
def AdapterRequest.text (request : AdapterRequest) : String :=
  request.name ++ match request with
    | .readPublicKey none => "(none)"
    | .readPublicKey (some (.number n)) => "(" ++ n.toNat.repr ++ ")"
    | .readPublicKey (some .other) => "(other)"
    | _ => ""

/-- What a provider can be asked. -/
inductive ProviderRequest where
  | entry (key : ProviderKey)
  | add (key : ProviderKey)
  | remove (key : ProviderKey)
  | isRemovable (key : ProviderKey)
  | addConverter (oid : Oid)
  | removeConverter (oid : Oid)
  deriving DecidableEq, Repr

/-- A request with what it is about. -/
def ProviderRequest.text : ProviderRequest → String
  | .entry key => "entry " ++ key.text
  | .add key => "add " ++ key.text
  | .remove key => "remove " ++ key.text
  | .isRemovable key => "is_removable " ++ key.text
  | .addConverter oid => "add converter " ++ oid.text
  | .removeConverter oid => "remove converter " ++ oid.text

/-- What an act of the catalog leaves behind. -/
inductive Mark where
  /-- The adapter with this label was asked. -/
  | adapter (label : String) (request : AdapterRequest)
  /-- The provider was asked. -/
  | provider (request : ProviderRequest)
  /-- Something was logged. -/
  | event (event : Event)
  deriving DecidableEq, Repr

namespace Mark

/-- The event of a mark, if it is one. -/
def event? : Mark → Option Event
  | .event e => some e
  | _ => none

/-- The adapter call of a mark, if it is one. -/
def adapterCall? : Mark → Option (String × AdapterRequest)
  | .adapter label request => some (label, request)
  | _ => none

/-- The provider call of a mark, if it is one. -/
def providerCall? : Mark → Option ProviderRequest
  | .provider request => some request
  | _ => none

end Mark

/-- The events among marks. -/
def events (marks : List Mark) : List Event :=
  marks.filterMap Mark.event?

/-- The adapter calls among marks. -/
def adapterCalls (marks : List Mark) : List (String × AdapterRequest) :=
  marks.filterMap Mark.adapterCall?

/-- The provider calls among marks. -/
def providerCalls (marks : List Mark) : List ProviderRequest :=
  marks.filterMap Mark.providerCall?

@[simp] theorem events_append (marks marks' : List Mark) :
    events (marks ++ marks') = events marks ++ events marks' := by
  simp [events]

@[simp] theorem adapterCalls_append (marks marks' : List Mark) :
    adapterCalls (marks ++ marks') = adapterCalls marks ++ adapterCalls marks' := by
  simp [adapterCalls]

@[simp] theorem providerCalls_append (marks marks' : List Mark) :
    providerCalls (marks ++ marks') = providerCalls marks ++ providerCalls marks' := by
  simp [providerCalls]

/-- Logging is not a call to an adapter. -/
@[simp] theorem adapterCalls_map_event (es : List Event) :
    adapterCalls (es.map Mark.event) = [] := by
  induction es with
  | nil => rfl
  | cons e es ih => simp [adapterCalls, Mark.adapterCall?]

/-- Logs an event. -/
def log {ω : Type} (e : Event) : Act Mark ω Unit :=
  .mark (.event e)

end SignatureCatalog
