import SignatureCatalog.Proofs.Provider.Calls

/-!
# What becomes of a provider's errors

A provider may answer anything: it may refuse what it has said it would allow, report an error where
there is none, and change its state as it likes. What publishing makes of it is read here off the
lists of calls that publishing makes.

A failure that is tolerated is passed over, and there is always a call after it. Any other failure
is the last call and comes back as it is, and nothing comes back but what the last call has told
(`ErrorsPropagate`). No place is filled that has not been cleared right before (`ClearsFirst`), and
nothing is written before the check has passed (`InStages`). The first two carry over to records in
sequence, since a record that fails is the last, and so to the registry as a whole.
-/

namespace SignatureCatalog

variable {π ω β : Type}

/-! ### What becomes of failures -/

/-- The call ends publishing with this error: it has failed, or it has told that an entry in the way
cannot be removed. -/
def ProviderCall.Ends (leniency : Leniency) (c : ProviderCall ω β) (e : Error) : Prop :=
  c.IsFatal leniency e ∨ ∃ key, c = .isRemovable key false ∧ e = key.obstruction

/-- **Failures come back, or are passed over.** -/
structure ErrorsPropagate (leniency : Leniency) (result : Except Error Unit)
    (calls : List (ProviderCall ω β)) : Prop where
  /-- A failure that is not tolerated is the last call, and comes back as it is. -/
  returned : ∀ before c after e, calls = before ++ c :: after → c.IsFatal leniency e →
    after = [] ∧ result = .error e
  /-- After a failure that is tolerated there are more calls. -/
  tolerated : ∀ before c after, calls = before ++ c :: after → c.IsTolerated leniency → after ≠ []
  /-- An error that comes back is that of the last call. -/
  origin : ∀ e, result = .error e → ∃ before c, calls = before ++ [c] ∧ c.Ends leniency e

namespace ErrorsPropagate

variable {leniency : Leniency} {result : Except Error Unit} {c : ProviderCall ω β}
  {calls calls' : List (ProviderCall ω β)}

/-- Calls that change nothing do not fail, and the error has to be that of the last one. -/
theorem of_write? (hcalls : ∀ c ∈ calls, c.write? = none)
    (origin : ∀ e, result = .error e → ∃ before c, calls = before ++ [c] ∧ c.Ends leniency e) :
    ErrorsPropagate leniency result calls := by
  have hmem : ∀ before c after, calls = before ++ c :: after → c.failure? = none := by
    intro before c after hsplit
    exact ProviderCall.failure?_of_write? (hcalls c (hsplit ▸ List.mem_append_cons_self))
  refine ⟨fun before c after e hsplit hfatal => ?_, fun before c after hsplit htolerated => ?_,
    origin⟩
  · exact absurd hfatal (ProviderCall.not_isFatal_of_failure? (hmem before c after hsplit) e)
  · exact absurd htolerated
      (ProviderCall.not_isTolerated_of_failure? (hmem before c after hsplit))

/-- A failure that is not tolerated, by itself. -/
theorem of_isFatal {e : Error} (hfatal : c.IsFatal leniency e) :
    ErrorsPropagate leniency (.error e) [c] := by
  have hsingle : ∀ before c' after, [c] = before ++ c' :: after → c' = c ∧ after = [] := by
    intro before c' after hsplit
    rcases List.append_eq_singleton_iff.mp hsplit.symm with ⟨-, heq⟩ | ⟨-, heq⟩
    · exact List.cons.inj heq
    · cases heq
  refine ⟨fun before c' after e' hsplit hfatal' => ?_, fun before c' after hsplit htolerated => ?_,
    fun e' herror => ?_⟩
  · obtain ⟨rfl, hafter⟩ := hsingle before c' after hsplit
    -- a call has one failure, so the error that comes back is the one it is fatal with
    rw [Option.some.inj (hfatal.1.symm.trans hfatal'.1)]
    exact ⟨hafter, rfl⟩
  · obtain ⟨rfl, -⟩ := hsingle before c' after hsplit
    exact absurd htolerated hfatal.2
  · obtain rfl := Except.error.inj herror
    exact ⟨[], c, rfl, .inl hfatal⟩

/-- One more call in front, which is passed over. -/
theorem cons (h : ErrorsPropagate leniency result calls) (hpasses : ∀ e, ¬c.IsFatal leniency e)
    (hgoesOn : c.IsTolerated leniency → calls ≠ []) :
    ErrorsPropagate leniency result (c :: calls) := by
  refine ⟨fun before c' after e hsplit hfatal => ?_, fun before c' after hsplit htolerated => ?_,
    fun e herror => ?_⟩
  · rcases List.cons_eq_append_iff.mp hsplit with ⟨rfl, heq⟩ | ⟨before', rfl, hrest⟩
    · obtain ⟨rfl, rfl⟩ := List.cons.inj heq
      exact absurd hfatal (hpasses e)
    · exact h.returned before' c' after e hrest hfatal
  · rcases List.cons_eq_append_iff.mp hsplit with ⟨rfl, heq⟩ | ⟨before', rfl, hrest⟩
    · obtain ⟨rfl, rfl⟩ := List.cons.inj heq
      exact hgoesOn htolerated
    · exact h.tolerated before' c' after hrest htolerated
  · obtain ⟨before, c', rfl, hends⟩ := h.origin e herror
    exact ⟨c :: before, c', rfl, hends⟩

/-- Where all goes well, each call is passed over, and the next ones follow. -/
theorem of_cons (h : ErrorsPropagate leniency (.ok ()) (c :: calls)) :
    (∀ e, ¬c.IsFatal leniency e) ∧ (c.IsTolerated leniency → calls ≠ []) ∧
      ErrorsPropagate leniency (.ok ()) calls := by
  refine ⟨fun e hfatal => ?_, h.tolerated [] c calls rfl, ?_, ?_, nofun⟩
  · cases (h.returned [] c calls e rfl hfatal).2
  · intro before c' after e hsplit hfatal
    exact h.returned (c :: before) c' after e (by rw [hsplit, List.cons_append]) hfatal
  · intro before c' after hsplit htolerated
    exact h.tolerated (c :: before) c' after (by rw [hsplit, List.cons_append]) htolerated

/-- Calls after which all is well, and then others. -/
theorem append (h : ErrorsPropagate leniency (.ok ()) calls)
    (h' : ErrorsPropagate leniency result calls') :
    ErrorsPropagate leniency result (calls ++ calls') := by
  -- all went well in the first calls, so whatever is tolerated there has a call behind it there
  induction calls with
  | nil => exact h'
  | cons c calls ih =>
    obtain ⟨hpasses, hgoesOn, hrest⟩ := h.of_cons
    exact (ih hrest).cons hpasses fun htolerated =>
      List.append_ne_nil_of_left_ne_nil (hgoesOn htolerated) _

end ErrorsPropagate

section

variable {leniency : Leniency} {record : Record ω β} {result : Except Error Unit}
  {calls : List (ProviderCall ω β)}

theorem CarriesOut.errorsPropagate {writes : List (ProviderWrite ω β)}
    (h : CarriesOut leniency writes result calls)
    (hlast : ∀ w, writes.getLast? = some w →
      ∀ c : ProviderCall ω β, c.write? = some w → ¬c.IsTolerated leniency) :
    ErrorsPropagate leniency result calls := by
  induction h with
  | done => exact .of_write? (fun c hc => absurd hc List.not_mem_nil) nofun
  | @goesOn w rest c result calls hwrite hpasses hrest ih =>
    refine (ih fun w' hw' => hlast w' ?_).cons hpasses fun htolerated hnil => ?_
    · rw [List.getLast?_cons, hw']
      rfl
    · -- only the last write has no call behind it
      subst hnil
      cases hrest with
      | done => exact hlast w rfl c hwrite htolerated
  | stops hwrite hfatal => exact .of_isFatal hfatal

/-- The last write of a record is that of its converter. -/
theorem Record.getLast?_writes (record : Record ω β) :
    record.writes.getLast? = some (.addConverter record.oid record.adapter) := rfl

theorem Searches.errorsPropagate_of_none {keys : List ProviderKey}
    (h : Searches keys none calls) : ErrorsPropagate leniency (.ok ()) calls :=
  .of_write? h.write? nofun

theorem Searches.errorsPropagate_of_some {keys : List ProviderKey} {key : ProviderKey}
    (h : Searches keys (some key) calls) :
    ErrorsPropagate leniency (.error key.obstruction) calls := by
  refine .of_write? h.write? fun e herror => ?_
  obtain rfl := Except.error.inj herror
  obtain ⟨before, hcalls⟩ := h.exists_last
  exact ⟨before, _, hcalls, .inr ⟨key, rfl, rfl⟩⟩

theorem Publishes.errorsPropagate (h : Publishes leniency record result calls) :
    ErrorsPropagate leniency result calls := by
  cases h with
  | obstructed hchecks => exact hchecks.errorsPropagate_of_some
  | written hchecks hwrites =>
    refine hchecks.errorsPropagate_of_none.append (hwrites.errorsPropagate ?_)
    intro w hw c hwrite htolerated
    -- converters are never passed over
    obtain rfl := Option.some.inj (record.getLast?_writes.symm.trans hw)
    obtain ⟨key, -, hrequest⟩ := htolerated.exists_alias
    rw [ProviderCall.request_of_write? hwrite] at hrequest
    rcases hrequest with hrequest | hrequest <;> cases hrequest

theorem PublishesAll.errorsPropagate {records : List (Record ω β)}
    (h : PublishesAll leniency records result calls) : ErrorsPropagate leniency result calls := by
  induction h with
  | done => exact .of_write? (fun c hc => absurd hc List.not_mem_nil) nofun
  | goesOn hrecord _ ih => exact hrecord.errorsPropagate.append ih
  | stops hrecord => exact hrecord.errorsPropagate

end

/-! ### The order of the calls -/

/-- What has to come right before a request, if something has to: the removal of what is in the
place of an addition. -/
def ProviderRequest.clearing? : ProviderRequest → Option ProviderRequest
  | .add key => some (.remove key)
  | .addConverter oid => some (.removeConverter oid)
  | _ => none

/-- **Nothing is added unless the place has been cleared right before.** -/
def ClearsFirst (requests : List ProviderRequest) : Prop :=
  ∀ before request after, requests = before ++ request :: after →
    ∀ clearing, request.clearing? = some clearing → ∃ before', before = before' ++ [clearing]

namespace ClearsFirst

variable {requests requests' : List ProviderRequest}

/-- Requests among which are no additions. -/
theorem of_clearing? (h : ∀ request ∈ requests, request.clearing? = none) :
    ClearsFirst requests := by
  intro before request after hsplit clearing hclearing
  rw [h request (hsplit ▸ List.mem_append_cons_self)] at hclearing
  cases hclearing

/-- An addition and the removal before it. -/
theorem pair {request clearing : ProviderRequest} (h : request.clearing? = some clearing)
    (hclearing : clearing.clearing? = none) : ClearsFirst [clearing, request] := by
  intro before request' after hsplit clearing' hclearing'
  rcases List.cons_eq_append_iff.mp hsplit with ⟨-, heq⟩ | ⟨before', rfl, hrest⟩
  -- the removal comes first, and asks for nothing before it
  · obtain ⟨rfl, -⟩ := List.cons.inj heq
    rw [hclearing] at hclearing'
    cases hclearing'
  · rcases List.append_eq_singleton_iff.mp hrest.symm with ⟨rfl, heq⟩ | ⟨-, heq⟩
    · obtain ⟨rfl, -⟩ := List.cons.inj heq
      rw [h] at hclearing'
      exact ⟨[], by rw [Option.some.inj hclearing', List.nil_append]⟩
    · cases heq

theorem append (h : ClearsFirst requests) (h' : ClearsFirst requests') :
    ClearsFirst (requests ++ requests') := by
  intro before request after hsplit clearing hclearing
  rcases List.append_eq_append_iff.mp hsplit with ⟨mid, rfl, hrest⟩ | ⟨mid, rfl, hrest⟩
  · -- the addition is in the second part, and so is what comes right before it
    obtain ⟨before', rfl⟩ := h' mid request after hrest clearing hclearing
    exact ⟨requests ++ before', (List.append_assoc _ _ _).symm⟩
  · cases mid with
    | nil =>
      -- what opens the second part has nothing before it there, so it needs no removal
      obtain ⟨before', hbefore'⟩ := h' [] request after hrest.symm clearing hclearing
      exact absurd hbefore'.symm (List.append_ne_nil_of_right_ne_nil _ (List.cons_ne_nil _ _))
    | cons first mid =>
      obtain ⟨rfl, -⟩ := List.cons.inj hrest
      exact h before request mid rfl clearing hclearing

theorem of_initial (h : ClearsFirst requests') (hinitial : requests <+: requests') :
    ClearsFirst requests := by
  obtain ⟨more, rfl⟩ := hinitial
  rintro before request after rfl clearing hclearing
  -- only what comes before an addition matters, and a longer list has the same there
  exact h before request (after ++ more) (by rw [List.append_assoc, List.cons_append]) clearing
    hclearing

end ClearsFirst

section

variable {leniency : Leniency} {record : Record ω β} {result : Except Error Unit}
  {calls : List (ProviderCall ω β)}

theorem clearsFirst_aliasWrites (name : String) (keys : List ProviderKey) :
    ClearsFirst ((aliasWrites name keys : List (ProviderWrite ω β)).map ProviderWrite.request) := by
  induction keys with
  | nil => exact .of_clearing? fun _ h => absurd h List.not_mem_nil
  | cons key rest ih =>
    rw [aliasWrites, List.flatMap_cons, List.map_append]
    exact (ClearsFirst.pair rfl rfl).append ih

theorem Record.clearsFirst_writes (record : Record ω β) :
    ClearsFirst (record.writes.map ProviderWrite.request) := by
  rw [writes, List.map_append, List.map_append]
  exact (ClearsFirst.pair rfl rfl).append
    ((clearsFirst_aliasWrites record.name record.aliasKeys).append (ClearsFirst.pair rfl rfl))

/-- What has been carried out of some writes clears first, if the writes do. -/
theorem CarriesOut.clearsFirst {writes : List (ProviderWrite ω β)}
    (h : CarriesOut leniency writes result calls)
    (hwrites : ClearsFirst (writes.map ProviderWrite.request)) :
    ClearsFirst (calls.map ProviderCall.request) :=
  hwrites.of_initial (h.map_initial fun _ _ => ProviderCall.request_of_write?)

theorem Searches.clearsFirst {keys : List ProviderKey} {key? : Option ProviderKey}
    (h : Searches keys key? calls) : ClearsFirst (calls.map ProviderCall.request) := by
  refine .of_clearing? (List.forall_mem_map.mpr fun c hc => ?_)
  have hread := h.write? c hc
  cases c with
  | entry | isRemovable => rfl
  | remove | add | removeConverter | addConverter => cases hread

theorem Publishes.clearsFirst (h : Publishes leniency record result calls) :
    ClearsFirst (calls.map ProviderCall.request) := by
  cases h with
  | obstructed hchecks => exact hchecks.clearsFirst
  | written hchecks hwrites =>
    rw [List.map_append]
    exact hchecks.clearsFirst.append (hwrites.clearsFirst record.clearsFirst_writes)

theorem PublishesAll.clearsFirst {records : List (Record ω β)}
    (h : PublishesAll leniency records result calls) :
    ClearsFirst (calls.map ProviderCall.request) := by
  induction h with
  | done => exact .of_clearing? fun _ h => absurd h List.not_mem_nil
  | goesOn hrecord _ ih =>
    rw [List.map_append]
    exact hrecord.clearsFirst.append ih
  | stops hrecord => exact hrecord.clearsFirst

/-- **First the check, then the writes.** -/
structure InStages (leniency : Leniency) (record : Record ω β) (result : Except Error Unit)
    (checks writes : List (ProviderCall ω β)) : Prop where
  /-- The check changes nothing, -/
  reads : ∀ c ∈ checks, c.write? = none
  /-- and looks at the keys that matter in their order. -/
  looked : (checks.map ProviderCall.request).Sublist
    ((record.checkedKeys leniency).flatMap fun key => [.entry key, .isRemovable key])
  /-- Nothing is written unless it has looked at all of them and found none in the way. -/
  passed : writes ≠ [] → Searches (record.checkedKeys leniency) none checks
  /-- What is written are the writes of the record in their order, -/
  written : writes.map ProviderCall.write? <+: record.writes.map some
  /-- and all of them where publishing succeeds. -/
  complete : result = .ok () → writes.map ProviderCall.write? = record.writes.map some

theorem Publishes.exists_inStages (h : Publishes leniency record result calls) :
    ∃ checks writes, calls = checks ++ writes ∧
      InStages leniency record result checks writes := by
  cases h with
  | obstructed hchecks =>
    exact ⟨calls, [], (List.append_nil _).symm, hchecks.write?, hchecks.request,
      fun h => absurd rfl h, List.nil_prefix, nofun⟩
  | written hchecks hwrites =>
    refine ⟨_, _, rfl, hchecks.write?, hchecks.request, fun _ => hchecks,
      hwrites.map_initial fun _ _ => id, ?_⟩
    rintro rfl
    exact hwrites.map_write?_of_ok

end

/-- **What any provider is asked, and what becomes of its errors**, when a record is published and
when a registry is. The provider may answer anything and do anything with its state. -/
theorem Provider.publishing_propagates_errors (p : Provider π ω β) (leniency : Leniency) :
    (∀ record : Record ω β,
      (p.publish leniency record).Records (p.recording.publish leniency record)
        fun result calls =>
          (∃ checks writes, calls = checks ++ writes ∧
            InStages leniency record result checks writes) ∧
          ErrorsPropagate leniency result calls ∧
          ClearsFirst (calls.map ProviderCall.request)) ∧
      ∀ r : Registry ω β,
        (p.configure leniency r).Records (p.recording.configure leniency r)
          fun result calls =>
            PublishesAll leniency r.records result calls ∧
            ErrorsPropagate leniency result calls ∧
            ClearsFirst (calls.map ProviderCall.request) := by
  constructor
  · intro record
    exact (p.records_publish leniency record).mono fun _ _ h =>
      ⟨h.exists_inStages, h.errorsPropagate, h.clearsFirst⟩
  · intro r
    exact (p.records_publishAll leniency r.records).mono fun _ _ h =>
      ⟨h, h.errorsPropagate, h.clearsFirst⟩

end SignatureCatalog
