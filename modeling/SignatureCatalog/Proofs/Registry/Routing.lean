import SignatureCatalog.Proofs.Registry.Ownership
import SignatureCatalog.Sample.HashScheme
import SignatureCatalog.Sample.ScriptedAdapter

/-!
# The routing rule

Four operations begin by looking for the owner of a key, and adapters may be anything: one may
accept every key, one may change its mind, one may log whom it met. So it is part of the rule not
only which record is found but who is asked on the way.

A `Course` is how the question went round: those who said no, the one who said yes, if any, and
those who were never asked. Every search of a list of candidates has a course that leads through
them in order (`exists_leads`, by induction on the candidates). With the course at hand the four
operations are straight-line programs: put the question to those who are asked, and then do
something for the owner, or give up (`Course.serve`, `Follows`).

The rest is who the candidates are (`HasCandidates`), and that the search for the owner is a search
among them (`Reachable.owner_eq`). A key that tells its algorithm is shown to that record only, so
what becomes of it depends on nothing else in the registry (`RoutesAlike`).
-/

namespace SignatureCatalog

variable {ω β : Type}

/-! ### Courses -/

/-- Asks one record after another whether it supports a key. -/
def askEach (k : Key β) (records : List (Record ω β)) : Act Mark ω (List Bool) :=
  records.mapM fun record => record.adapter.askSupports k

theorem run_askEach_nil (k : Key β) (w : ω) :
    (askEach k ([] : List (Record ω β))).run w = ⟨[], w, []⟩ := rfl

theorem run_askEach_cons (k : Key β) (first : Record ω β) (rest : List (Record ω β)) (w : ω) :
    (askEach k (first :: rest)).run w =
      let asked := (first.adapter.askSupports k).run w
      let others := (askEach k rest).run asked.world
      ⟨asked.value :: others.value, others.world, asked.marks ++ others.marks⟩ := by
  show ((first :: rest).mapM fun record => record.adapter.askSupports k : Act _ _ _).run w = _
  rw [List.mapM_cons]
  simp only [Act.run_bind, Act.run_pure, List.append_nil]
  rfl

/-- Nobody is asked for anything else. -/
theorem adapterCalls_askEach (k : Key β) (records : List (Record ω β)) (w : ω) :
    adapterCalls ((askEach k records).run w).marks =
      records.map fun record => (record.adapter.label, .supports) := by
  induction records generalizing w with
  | nil => rfl
  | cons first rest ih =>
    rw [run_askEach_cons]
    dsimp only
    rw [adapterCalls_append, ih, Adapter.askSupports, Adapter.run_ask]
    show (first.adapter.label, _) :: adapterCalls (List.map Mark.event _) ++ _ = _
    rw [adapterCalls_map_event]
    rfl

/-- How a question about a key went round. -/
structure Course (ω β : Type) where
  /-- Who said no, in order. -/
  declined : List (Record ω β)
  /-- Who said yes. -/
  owner? : Option (Record ω β)
  /-- Who was not asked any more. -/
  unasked : List (Record ω β)

namespace Course

variable {α : Type}

/-- Everyone who is asked, in order. -/
def asked (c : Course ω β) : List (Record ω β) :=
  c.declined ++ c.owner?.toList

/-- What those who are asked say. -/
def answers (c : Course ω β) : List Bool :=
  c.declined.map (fun _ => false) ++ c.owner?.toList.map fun _ => true

/-- Puts the question to everyone who is asked, and goes on for the owner if there is one. -/
def serve (c : Course ω β) (k : Key β) (next : Record ω β → Act Mark ω (Except Error α)) :
    Act Mark ω (Except Error α) := do
  let _ ← askEach k c.asked
  match c.owner? with
  | some record => next record
  | none => return .error .unsupportedParameter

/-- **The question goes round the candidates in order, until one says yes.** -/
structure Leads (c : Course ω β) (k : Key β) (candidates : List (Record ω β)) (w : ω) : Prop where
  split : candidates = c.asked ++ c.unasked
  /-- Nobody is left out unless there is an owner. -/
  exhausts : c.owner? = none → c.unasked = []
  answered : ((askEach k c.asked).run w).value = c.answers

end Course

namespace Registry

variable {k : Key β} {w : ω}

/-- **Every search has a course**, and comes to asking those whom the course asks. -/
theorem exists_leads (k : Key β) (candidates : List (Record ω β)) (w : ω) :
    ∃ c : Course ω β, c.Leads k candidates w ∧
      (firstSupporting k candidates).run w = ((fun _ => c.owner?) <$> askEach k c.asked).run w := by
  -- by induction on the candidates, in every world, as each adapter may change it for the next
  induction candidates generalizing w with
  | nil => exact ⟨⟨[], none, []⟩, ⟨rfl, fun _ => rfl, rfl⟩, rfl⟩
  | cons first rest ih =>
    cases hasked : ((first.adapter.askSupports k).run w).value with
    | true =>
      -- the search ends here, and `rest` is not asked
      refine ⟨⟨[], some first, rest⟩, ⟨rfl, fun h => (nomatch h), ?_⟩, ?_⟩
      · show ((askEach k [first]).run w).value = [true]
        rw [run_askEach_cons]
        dsimp only
        rw [hasked, run_askEach_nil]
      · show _ = ((fun _ => some first) <$> askEach k [first]).run w
        rw [Act.run_map, run_askEach_cons, firstSupporting, Act.run_bind]
        simp only [hasked, if_true, Act.run_pure, run_askEach_nil]
    | false =>
      -- the search goes on in the world that the first adapter leaves
      obtain ⟨c, hleads, hrun⟩ := ih ((first.adapter.askSupports k).run w).world
      refine ⟨⟨first :: c.declined, c.owner?, c.unasked⟩, ⟨?_, hleads.exhausts, ?_⟩, ?_⟩
      · show first :: rest = first :: (c.asked ++ c.unasked)
        rw [hleads.split]
      · show ((askEach k (first :: c.asked)).run w).value = false :: c.answers
        rw [run_askEach_cons, ← hleads.answered, ← hasked]
      · show _ = ((fun _ => c.owner?) <$> askEach k (first :: c.asked)).run w
        rw [Act.run_map, run_askEach_cons, firstSupporting, Act.run_bind]
        simp only [hasked, Bool.false_eq_true, if_false, hrun, Act.run_map]

/-! ### Candidates -/

/-- The records that may own a key, in the order in which they are asked. -/
def candidates (r : Registry ω β) (k : Key β) : List (Record ω β) :=
  match k.algorithm? with
  | some oid => r.records.filter fun record => record.oid = oid
  | none => r.records

variable {r r' : Registry ω β} {oid : Oid} {record : Record ω β}

theorem candidates_of_tagged (tagged : k.algorithm? = some oid) :
    r.candidates k = r.records.filter fun record => record.oid = oid := by
  rw [candidates, tagged]

theorem candidates_of_untagged (untagged : k.algorithm? = none) : r.candidates k = r.records := by
  rw [candidates, untagged]

/-- **Who is asked about a key**: of a registry that has an algorithm under the identifier that the
key tells, that record, and of one that has none, nobody. Where the key tells nothing, everybody. -/
structure HasCandidates (r : Registry ω β) (k : Key β) : Prop where
  tagged : ∀ oid, k.algorithm? = some oid → ∀ record ∈ r.records, record.oid = oid →
    r.candidates k = [record]
  unregistered : ∀ oid, k.algorithm? = some oid → (∀ record ∈ r.records, record.oid ≠ oid) →
    r.candidates k = []
  untagged : k.algorithm? = none → r.candidates k = r.records

theorem Reachable.hasCandidates (h : r.Reachable) (k : Key β) : r.HasCandidates k := by
  refine ⟨?_, ?_, candidates_of_untagged⟩
  · intro oid tagged record hrecord hoid
    have exact := h.exactLookup_oid
    have nodup : r.records.Nodup := exact.distinct.of_map
    have found := (exact.found_iff oid record).mpr ⟨hrecord, hoid⟩
    rw [candidates_of_tagged tagged]
    apply List.perm_singleton.mp
    apply (List.perm_ext_iff_of_nodup (nodup.filter _) (List.nodup_singleton _)).mpr
    intro a
    -- the members of either list are what the lookup finds
    rw [List.mem_filter, decide_eq_true_iff, ← exact.found_iff, found, List.mem_singleton,
      Except.ok.injEq, eq_comm]
  · intro oid tagged missing
    rw [candidates_of_tagged tagged]
    apply List.filter_eq_nil_iff.mpr
    intro record hrecord
    rw [decide_eq_true_iff]
    exact missing record hrecord

/-- **The owner is the first candidate whose adapter supports the key.** -/
theorem Reachable.owner_eq (h : r.Reachable) (k : Key β) :
    r.owner k = (fun found => found.elim (.error .unsupportedParameter) .ok) <$>
      firstSupporting k (r.candidates k) := by
  refine Act.ext fun w => ?_
  rw [Act.run_map]
  -- the search is written in two ways, one for each kind of key
  cases tagged : k.algorithm? with
  | none =>
    rw [candidates_of_untagged tagged, owner, tagged]
    dsimp only
    rw [Act.run_bind]
    dsimp only
    cases ((firstSupporting k r.records).run w).value with
    | none => rw [Act.run_pure, List.append_nil]; rfl
    | some record => rw [Act.run_pure, List.append_nil]; rfl
  | some oid =>
    cases found : r.lookupOid oid with
    | error e =>
      -- nobody is asked, as by the search among none
      obtain ⟨-, missing⟩ := (h.exactLookup_oid.notFound_iff oid e).mp found
      rw [owner_of_tagged_of_notFound tagged found,
        (h.hasCandidates k).unregistered oid tagged missing]
      rfl
    | ok record =>
      -- the one candidate is asked, as by the search among one
      obtain ⟨hrecord, hoid⟩ := (h.exactLookup_oid.found_iff oid record).mp found
      rw [(h.hasCandidates k).tagged oid tagged record hrecord hoid, owner, tagged]
      dsimp only
      rw [found]
      dsimp only
      rw [firstSupporting, Act.run_bind, Act.run_bind]
      dsimp only
      cases ((record.adapter.askSupports k).run w).value with
      | true => rfl
      | false => rfl

/-! ### Operations -/

/-- **An operation follows a course.** It puts the question, does `next` for the owner, and fails
for want of an owner exactly where there is none. The adapters receive the question in turn, and
then the owner receives `requests`. -/
structure Follows {α : Type} (c : Course ω β) (k : Key β) (w : ω)
    (next : Record ω β → Act Mark ω (Except Error α)) (requests : List AdapterRequest)
    (operation : Act Mark ω (Except Error α)) : Prop where
  run_eq : operation.run w = (c.serve k next).run w
  unsupported_iff : (operation.run w).value = .error .unsupportedParameter ↔ c.owner? = none
  calls : adapterCalls (operation.run w).marks =
    c.asked.map (fun record => (record.adapter.label, .supports)) ++
      c.owner?.toList.flatMap fun record =>
        requests.map fun request => (record.adapter.label, request)

/-- The search for the owner comes to asking those whom the course asks. -/
def Finds (r : Registry ω β) (k : Key β) (w : ω) (c : Course ω β) : Prop :=
  (r.owner k).run w =
    let asked := (askEach k c.asked).run w
    ⟨c.owner?.elim (.error .unsupportedParameter) .ok, asked.world, asked.marks⟩

section

variable {α : Type} {c : Course ω β} {next : Record ω β → Act Mark ω (Except Error α)}
  {requests : List AdapterRequest}

theorem Finds.run_andThen (hfinds : r.Finds k w c) :
    ((r.owner k).andThen next).run w = (c.serve k next).run w := by
  rw [Act.andThen, Act.run_bind, hfinds, Course.serve, Act.run_bind]
  cases c.owner? with
  | none => rfl
  | some record => rfl

/-- What is done for the owner follows the course of the search for it. -/
theorem Finds.follows (hfinds : r.Finds k w c)
    (supported : ∀ record w, ((next record).run w).value ≠ .error .unsupportedParameter)
    (calls : ∀ record w, adapterCalls ((next record).run w).marks =
      requests.map fun request => (record.adapter.label, request)) :
    Follows c k w next requests ((r.owner k).andThen next) := by
  refine ⟨hfinds.run_andThen, ?_, ?_⟩
  · rw [hfinds.run_andThen, Course.serve, Act.run_bind]
    -- what is done for an owner does not fail for want of one
    cases c.owner? with
    | none => exact iff_of_true rfl rfl
    | some record => exact iff_of_false (supported record _) nofun
  · rw [hfinds.run_andThen, Course.serve, Act.run_bind]
    dsimp only
    rw [adapterCalls_append, adapterCalls_askEach]
    cases c.owner? with
    | none => rfl
    | some record =>
      rw [calls, Option.toList_some, List.flatMap_singleton]

/-- A request to an adapter leaves that call, and fails in the adapter's own name only. -/
theorem Finds.follows_attempt (hfinds : r.Finds k w c) (request : AdapterRequest)
    (act : Record ω β → Act Event ω (Except Failure α)) :
    Follows c k w (fun record => record.adapter.attempt request (act record)) [request]
      ((r.owner k).andThen fun record => record.adapter.attempt request (act record)) := by
  refine hfinds.follows (fun record w => ?_) (fun record w => ?_)
  · rw [Adapter.run_attempt]
    cases ((act record).run w).value with
    | ok a => exact nofun
    | error failure => exact nofun
  · rw [Adapter.run_attempt]
    show (record.adapter.label, request) :: adapterCalls (List.map Mark.event _) = _
    rw [adapterCalls_map_event]
    rfl

end

/-- **The routing rule.** In the world `w` the question about a key takes the course `c` through the
candidates, and all four operations follow it. -/
structure RoutesBy (r : Registry ω β) (k : Key β) (w : ω) (c : Course ω β) : Prop where
  leads : c.Leads k (r.candidates k) w
  finds : r.Finds k w c
  supportsKey : (r.supportsKey k).run w = ((fun _ => c.owner?.isSome) <$> askEach k c.asked).run w
  writePrivateKey : ∀ attributes, Follows c k w
    (fun record => record.adapter.attempt .writePrivateKey
      (record.adapter.writePrivateKey k attributes))
    [.writePrivateKey] (r.writePrivateKey k attributes)
  writePublicKey : Follows c k w
    (fun record => record.adapter.attempt .writePublicKey (record.adapter.writePublicKey k))
    [.writePublicKey] (r.writePublicKey k)
  signatureEngine : Follows c k w (fun record => return .ok (.new record.name record.adapter)) []
    (r.signatureEngine k)

/-- Every key is routed by the rule, in every world. -/
theorem Reachable.exists_routesBy (h : r.Reachable) (k : Key β) (w : ω) :
    ∃ c, r.RoutesBy k w c := by
  obtain ⟨c, hleads, hrun⟩ := exists_leads k (r.candidates k) w
  have hfinds : r.Finds k w c := by
    -- the search for the owner is a search among the candidates, and so takes its course
    unfold Finds
    rw [h.owner_eq, Act.run_map, hrun, Act.run_map]
  refine ⟨c, hleads, hfinds, ?_, ?_, ?_, ?_⟩
  · rw [supportsKey, Act.run_bind, hfinds, Act.run_map]
    dsimp only
    rw [Act.run_pure, List.append_nil]
    cases c.owner? with
    | none => rfl
    | some record => rfl
  · intro attributes
    exact hfinds.follows_attempt .writePrivateKey fun record =>
      record.adapter.writePrivateKey k attributes
  · exact hfinds.follows_attempt .writePublicKey fun record => record.adapter.writePublicKey k
  · exact hfinds.follows (fun _ _ => nofun) (fun _ _ => rfl)

/-! ### Agreement -/

/-- **In the world `w` two registries treat a key alike**: they come to the same, with the same
calls on the way. -/
structure RoutesAlike (r r' : Registry ω β) (k : Key β) (w : ω) : Prop where
  owner : (r'.owner k).run w = (r.owner k).run w
  supportsKey : (r'.supportsKey k).run w = (r.supportsKey k).run w
  writePrivateKey : ∀ attributes,
    (r'.writePrivateKey k attributes).run w = (r.writePrivateKey k attributes).run w
  writePublicKey : (r'.writePublicKey k).run w = (r.writePublicKey k).run w
  signatureEngine : (r'.signatureEngine k).run w = (r.signatureEngine k).run w

/-- All that an operation takes from the registry is the owner. -/
theorem routesAlike_of_owner (h : (r'.owner k).run w = (r.owner k).run w) :
    RoutesAlike r r' k w := by
  have andThen {α : Type} (next : Record ω β → Act Mark ω (Except Error α)) :
      ((r'.owner k).andThen next).run w = ((r.owner k).andThen next).run w := by
    -- the search leaves the same owner in the same world, and the rest starts from there
    rw [Act.andThen, Act.andThen, Act.run_bind, Act.run_bind, h]
  refine ⟨h, ?_, fun attributes => andThen _, andThen _, andThen _⟩
  rw [supportsKey, supportsKey, Act.run_bind, Act.run_bind, h]

/-- Registries with the same record under an object identifier find the same there. -/
theorem Reachable.lookupOid_congr (h : r.Reachable) (h' : r'.Reachable)
    (agree : ∀ record, record.oid = oid → (record ∈ r.records ↔ record ∈ r'.records)) :
    r'.lookupOid oid = r.lookupOid oid := by
  cases found : r.lookupOid oid with
  | ok record =>
    obtain ⟨hmem, hoid⟩ := (h.exactLookup_oid.found_iff oid record).mp found
    exact (h'.exactLookup_oid.found_iff oid record).mpr ⟨(agree record hoid).mp hmem, hoid⟩
  | error e =>
    obtain ⟨he, hne⟩ := (h.exactLookup_oid.notFound_iff oid e).mp found
    refine (h'.exactLookup_oid.notFound_iff oid e).mpr ⟨he, fun record hmem hoid => ?_⟩
    exact hne record ((agree record hoid).mpr hmem) hoid

/-- A key that tells its algorithm depends on the record for it, and on nothing else. -/
theorem Reachable.routesAlike (h : r.Reachable) (h' : r'.Reachable)
    (tagged : k.algorithm? = some oid)
    (agree : ∀ record, record.oid = oid → (record ∈ r.records ↔ record ∈ r'.records)) (w : ω) :
    RoutesAlike r r' k w := by
  refine routesAlike_of_owner ?_
  rw [owner, owner, tagged]
  dsimp only
  rw [h.lookupOid_congr h' agree]

/-- **One routing rule on every path.** After any history every key is routed by the rule, whatever
the adapters say. A key that tells its algorithm comes to the same in any other registry with the
same record for it, whatever else the two hold. -/
theorem routing_ofHistory (history : List (Change ω β × ω)) (k : Key β) :
    let r := ofHistory history
    (∀ w, ∃ c, r.RoutesBy k w c) ∧ r.HasCandidates k ∧
      ∀ oid, k.algorithm? = some oid → ∀ history' : List (Change ω β × ω),
        (∀ record, record.oid = oid →
          (record ∈ r.records ↔ record ∈ (ofHistory history').records)) →
        ∀ w, RoutesAlike r (ofHistory history') k w := by
  intro r
  have h : r.Reachable := reachable_ofHistory history
  refine ⟨h.exists_routesBy k, h.hasCandidates k, ?_⟩
  intro oid tagged history' agree
  exact h.routesAlike (reachable_ofHistory history') tagged agree

/-- A greedy adapter that was registered first does not come near a key that tells its algorithm,
and is the only one asked about a key that does not. -/
theorem routing_past_greedy :
    let greedy : Adapter Unit Sample.KeyBody := Sample.AdapterScript.adapter ⟨[], some true, none⟩
      (Sample.HashScheme.adapter id ⟨⟨[0x2a, 0x03, 0x05]⟩, .flat⟩ "greedy")
    let modest : Adapter Unit Sample.KeyBody :=
      Sample.HashScheme.adapter id ⟨⟨[0x2a, 0x03, 0x04]⟩, .flat⟩ "modest"
    let last : Change Unit Sample.KeyBody × Unit :=
      (.register ⟨"B", ⟨[0x2a, 0x03, 0x04]⟩, ⟨2⟩⟩ modest, ())
    let history := [(.register ⟨"A", ⟨[0x2a, 0x03, 0x05]⟩, ⟨1⟩⟩ greedy, ()), last]
    let k := Sample.HashScheme.key ⟨[0x2a, 0x03, 0x04]⟩ true []
    (ofHistory history).candidates k = [⟨⟨"B", ⟨[0x2a, 0x03, 0x04]⟩, ⟨2⟩⟩, modest, .flat⟩] ∧
      RoutesAlike (ofHistory history) (ofHistory [last]) k () ∧
      (∃ c, (ofHistory history).RoutesBy k.untagged () c) ∧
      adapterCalls (((ofHistory history).writePublicKey k).run ()).marks =
        [("modest", .supports), ("modest", .writePublicKey)] ∧
      adapterCalls (((ofHistory history).writePublicKey k.untagged).run ()).marks =
        [("greedy", .supports), ("greedy", .writePublicKey)] := by
  intro greedy modest last history k
  obtain ⟨-, candidates, agrees⟩ := routing_ofHistory history k
  obtain ⟨routes, -⟩ := routing_ofHistory history k.untagged
  refine ⟨candidates.tagged _ rfl _ (List.mem_cons_of_mem _ List.mem_cons_self) rfl,
    agrees _ rfl [last] (fun record hoid => ?_) (), routes (), rfl, rfl⟩
  show record ∈ [_, _] ↔ record ∈ [_]
  rw [List.mem_cons, or_iff_right]
  -- the greedy record has another object identifier
  rintro rfl
  exact absurd hoid (by decide)

end Registry

end SignatureCatalog
