import SignatureCatalog.Session.State

/-!
# Running a session

`Command.step` carries a command out. `run` carries out a list of them one after the other, each in
the session that the one before has left, and reports on each: what it came to, the calls made, and
the events logged. A command that fails does not end the session.
-/

namespace SignatureCatalog.Session

open Sample

/-- Builds the identity of an algorithm. -/
def identityOf (name oid : String) (codePoint : UInt16) : Except Error Identity := do
  return ⟨name, ← Oid.ofText oid, ⟨codePoint⟩⟩

/-- Builds an adapter; its own object identifier goes before that of the command. -/
def AdapterDescription.build (d : AdapterDescription) (oid : Oid) :
    Except Error SampleAdapter := do
  let oid ← match d.oid? with
    | some text => Oid.ofText text
    | none => pure oid
  return d.script.adapter (HashScheme.adapter Sha256.digest ⟨oid, d.encoding⟩ d.label)

/-- Builds a key. Of a foreign key only whether it is private and what it tells counts. -/
def KeyDescription.build (d : KeyDescription) : Except Error (Key KeyBody) :=
  if d.foreign ∧ ¬d.tagged then .ok ⟨d.isPrivate, none, .foreign⟩
  else do
    let oid ← Oid.ofText (d.oid?.getD "")
    if d.foreign then return ⟨d.isPrivate, some oid, .foreign⟩
    else
      let k := HashScheme.key oid d.isPrivate d.material
      return if d.tagged then k else k.untagged

/-- Carries out a command about keys. -/
def KeyCommand.step : KeyCommand → Step Answer
  | .make id d => do Step.storeKey id (← Step.ofExcept d.build)
  | .publicHalf key id => do
    match HashScheme.publicHalf? Sha256.digest (← Step.find State.keys key) with
    | some half => Step.storeKey id half
    | none => throw (.unknown key)

/-- Carries out a command about a registry. -/
def RegistryCommand.step (id : String) (command : RegistryCommand) : Step Answer := do
  let r ← Step.registry id
  match command with
  | .register name oid codePoint d =>
    let identity ← Step.ofExcept (identityOf name oid codePoint)
    let adapter ← Step.ofExcept (d.build identity.oid)
    let r ← Step.ofExcept (← Step.adapters (r.register identity adapter))
    Step.storeRegistry id r
    return .registry r
  | .override name oid codePoint d =>
    let identity ← Step.ofExcept (identityOf name oid codePoint)
    let adapter ← Step.ofExcept (d.build identity.oid)
    let (r, displaced) ← Step.adapters (r.override identity adapter)
    Step.storeRegistry id r
    return .overridden r displaced
  | .show => return .registry r
  | .pairs => return .pairs r.signatureAndHashPairs
  | .lookup (.name name) => return .record (← Step.ofExcept (r.lookupName name))
  | .lookup (.oid oid) =>
    let oid ← Step.ofExcept (Oid.ofText oid)
    return .record (← Step.ofExcept (r.lookupOid oid))
  | .lookup (.scheme codePoint) => return .record (← Step.ofExcept (r.lookupScheme ⟨codePoint⟩))
  | .supports (.key key) =>
    let k ← Step.find State.keys key
    return .flag (← Step.adapters (r.supportsKey k))
  | .supports (.oid oid) => return .flag (r.supportsOid (← Step.ofExcept (Oid.ofText oid)))
  | .supports (.scheme codePoint) => return .flag (r.supportsScheme ⟨codePoint⟩)
  | .supports (.pair hash signature) => return .flag (r.supportsPair ⟨hash, signature⟩)
  | .signer name => return .label (some (← Step.ofExcept (r.dispatch.signer name)).label)
  | .verifier codePoint =>
    return .label (some (← Step.ofExcept (r.dispatch.verifier ⟨codePoint⟩)).label)
  | .sign name message privateKey =>
    return .bytes (← Step.ofExcept (← Step.adapters (r.dispatch.sign name message privateKey)))
  | .verify codePoint message publicKey signature =>
    let answer ← Step.adapters (r.dispatch.verify ⟨codePoint⟩ message publicKey signature)
    return .flag (← Step.ofExcept answer)
  | .readPrivateKey d key =>
    let info ← Step.ofExcept d.build
    Step.storeKey key (← Step.ofExcept (← Step.adapters (r.readPrivateKey info)))
  | .readPublicKey d key parameters =>
    let info ← Step.ofExcept d.build
    Step.storeKey key (← Step.ofExcept (← Step.adapters (r.readPublicKey info parameters)))
  | .writePrivateKey key ds? =>
    let k ← Step.find State.keys key
    let attributes ← match ds? with
      | none => pure none
      | some ds => some <$> Step.ofExcept (Attributes.build ds)
    return .privateKeyInfo (← Step.ofExcept (← Step.adapters (r.writePrivateKey k attributes)))
  | .writePublicKey key =>
    let k ← Step.find State.keys key
    return .publicKeyInfo (← Step.ofExcept (← Step.adapters (r.writePublicKey k)))
  | .parsePublicKey d =>
    let info ← Step.ofExcept d.build
    return .payload (← Step.ofExcept (← Step.adapters (r.parsePublicKey info)))
  | .engine key target =>
    let k ← Step.find State.keys key
    let e ← Step.ofExcept (← Step.adapters (r.signatureEngine k))
    Step.storeEngine target e
    return .engine e.name
  | .bind name target =>
    let record ← Step.ofExcept (r.lookupName name)
    let e := (EngineBinding.ofRecord record).newEngine
    Step.storeEngine target e
    return .engine e.name

/-- The operation that a command asks of an engine. -/
def EngineCommand.operation : EngineCommand → Step (EngineOperation KeyBody)
  | .initSign key => .initSign <$> Step.find State.keys key
  | .initVerify key => .initVerify <$> Step.find State.keys key
  | .update piece => return .update piece
  | .sign => return .sign
  | .verify signature => return .verify signature

/-- What an engine replies, as an answer. -/
def Answer.ofReply : EngineReply → Answer
  | .done => .done
  | .signature octets => .bytes octets
  | .verdict valid => .flag valid

/-- Carries out a command about an engine. It stays as the operation leaves it, also where that
fails. -/
def EngineCommand.step (id : String) (command : EngineCommand) : Step Answer := do
  let e ← Step.find State.engines id
  let operation ← command.operation
  let (result, e) ← Step.adapters (e.perform operation)
  Step.storeEngine id e
  return .ofReply (← Step.ofExcept result)

/-- Carries out a command about a host. -/
def HostCommand.step (id : String) : HostCommand → Step Answer
  | .make refusesAliasRemoval script? => do
    let h : Host := ⟨.empty refusesAliasRemoval, script?⟩
    Step.modify fun state => { state with hosts := state.hosts.insert id h }
    return .host h.table
  | .configure registry leniency only? => do
    let r ← Step.registry registry
    let records ← match only? with
      | none => pure r.records
      | some name => (fun record => [record]) <$> Step.ofExcept (r.lookupName name)
    -- Publishing may fail after it has changed the host, so its result is part of the answer.
    let result ← Step.hosted id fun h => h.provider.publishAll leniency records
    let table := (← Step.host id).table
    return .published table result <| r.records.map fun record =>
      (record.oid, (table.converter? record.oid).map (·.label))
  | .show => return .host (← Step.host id).table
  | .addEntry registry d content => do
    let key ← Step.ofExcept d.build
    let e ← match content with
      | .alias name => pure (.alias name)
      | .bind name =>
        let record ← Step.ofExcept ((← Step.registry registry).lookupName name)
        pure (.engine (.ofRecord record))
    Step.ofExcept (← Step.hosted id fun h => h.provider.askAdd key e)
    return .done
  | .removeEntry d => do
    let key ← Step.ofExcept d.build
    return .removed (← Step.ofExcept (← Step.hosted id fun h => h.provider.askRemove key))
  | .entry d => do
    let key ← Step.ofExcept d.build
    let held? ← Step.hosted id fun h => h.provider.askEntry key
    let removable ← Step.hosted id fun h => h.provider.askIsRemovable key
    return .found held? removable
  | .aliases oid => do
    let oid ← Step.ofExcept (Oid.ofText oid)
    let entries ← (ProviderKey.aliases oid).mapM fun key => do
      return (key, ← Step.hosted id fun h => h.provider.askEntry key)
    return .aliases entries
  | .addConverter oid d => do
    let oid ← Step.ofExcept (Oid.ofText oid)
    let adapter ← Step.ofExcept (d.build oid)
    Step.ofExcept (← Step.hosted id fun h => h.provider.askAddConverter oid adapter)
    return .done
  | .removeConverter oid => do
    let oid ← Step.ofExcept (Oid.ofText oid)
    let adapter? ← Step.hosted id fun h => h.provider.askRemoveConverter oid
    return .label (adapter?.map (·.label))
  | .converter oid => do
    let oid ← Step.ofExcept (Oid.ofText oid)
    return .label (((← Step.host id).table.converter? oid).map (·.label))
  | .resolve algorithm => return .binding ((← Step.host id).table.resolveSignature algorithm)
  | .engine algorithm target => do
    let e ← Step.ofExcept ((← Step.host id).table.signatureEngine algorithm)
    Step.storeEngine target e
    return .engine e.name

/-- Carries out a command. -/
def Command.step : Command → Step Answer
  | .key command => command.step
  | .registry id command => command.step id
  | .engine id command => command.step id
  | .host id command => command.step id

/-- The calls among marks, as they are reported. -/
def callTexts (marks : List Mark) : List String :=
  marks.filterMap fun
    | .adapter label request => some (label ++ "." ++ request.text)
    | .provider request => some request.text
    | .event _ => none

/-- What is reported on a command. -/
structure Report where
  result : Except StepError Answer
  calls : List String
  log : List Event

/-- Carries out commands one after the other. -/
def run (state : State) : List Command → List Report
  | [] => []
  | command :: rest =>
    let outcome := command.step.run.run state
    ⟨outcome.value, callTexts outcome.marks, events outcome.marks⟩ :: run outcome.world rest

end SignatureCatalog.Session
