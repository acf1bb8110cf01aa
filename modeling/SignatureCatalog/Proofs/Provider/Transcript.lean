import SignatureCatalog.Provider.Basic

/-!
# What a provider is asked and what it answers

The marks of an act tell what a provider was asked. They say nothing of what it answered, nor of
what it was given to add. A `ProviderCall` has all of it, and `Provider.recording` is a provider
that keeps its calls in a list beside its state and is otherwise the same.

`Act.Records` puts an act beside the same act carried out with the recording provider: values,
states and marks are those of the first, what is added to the list are the calls behind the marks,
and a condition holds of the value and of these calls. There is one rule for each way acts are made,
so that what a provider may be asked, and what becomes of its answers, is shown for all providers
in one pass over the act.
-/

namespace SignatureCatalog

variable {π ω β α γ : Type}

/-- A call to a provider: what it is asked, with all that it is given, and what it answers. -/
inductive ProviderCall (ω β : Type) where
  | entry (key : ProviderKey) (answer : Option (ProviderEntry ω β))
  | isRemovable (key : ProviderKey) (answer : Bool)
  | remove (key : ProviderKey) (answer : Except Error (Option (ProviderEntry ω β)))
  | add (key : ProviderKey) (e : ProviderEntry ω β) (answer : Except Error Unit)
  | removeConverter (oid : Oid) (answer : Option (Adapter ω β))
  | addConverter (oid : Oid) (adapter : Adapter ω β) (answer : Except Error Unit)

namespace ProviderCall

/-- The mark that a call leaves. -/
def request : ProviderCall ω β → ProviderRequest
  | .entry key _ => .entry key
  | .isRemovable key _ => .isRemovable key
  | .remove key _ => .remove key
  | .add key _ _ => .add key
  | .removeConverter oid _ => .removeConverter oid
  | .addConverter oid _ _ => .addConverter oid

/-- The error that a call is answered with, if it is one. -/
def failure? : ProviderCall ω β → Option Error
  | .remove _ (.error e) => some e
  | .add _ _ (.error e) => some e
  | .addConverter _ _ (.error e) => some e
  | _ => none

end ProviderCall

/-- A request to change a provider, with all that it is given. -/
inductive ProviderWrite (ω β : Type) where
  | remove (key : ProviderKey)
  | add (key : ProviderKey) (e : ProviderEntry ω β)
  | removeConverter (oid : Oid)
  | addConverter (oid : Oid) (adapter : Adapter ω β)

/-- The mark that a write leaves. -/
def ProviderWrite.request : ProviderWrite ω β → ProviderRequest
  | .remove key => .remove key
  | .add key _ => .add key
  | .removeConverter oid => .removeConverter oid
  | .addConverter oid _ => .addConverter oid

/-- The write of a call, if it is one. -/
def ProviderCall.write? : ProviderCall ω β → Option (ProviderWrite ω β)
  | .entry .. => none
  | .isRemovable .. => none
  | .remove key _ => some (.remove key)
  | .add key e _ => some (.add key e)
  | .removeConverter oid _ => some (.removeConverter oid)
  | .addConverter oid adapter _ => some (.addConverter oid adapter)

/-- Only writes can fail. -/
theorem ProviderCall.failure?_of_write? {c : ProviderCall ω β} (h : c.write? = none) :
    c.failure? = none := by
  cases c with
  | entry | isRemovable => rfl
  | remove | add | removeConverter | addConverter => cases h

theorem ProviderCall.request_of_write? {c : ProviderCall ω β} {w : ProviderWrite ω β}
    (h : c.write? = some w) : c.request = w.request := by
  cases c with
  | entry | isRemovable => cases h
  | remove | add | removeConverter | addConverter => cases h; rfl

namespace Provider

/-- A step that is added to a list of calls as well. -/
def noting (call : α → ProviderCall ω β) (step : π → α × π) :
    π × List (ProviderCall ω β) → α × (π × List (ProviderCall ω β)) :=
  fun world => ((step world.1).1, (step world.1).2, world.2 ++ [call (step world.1).1])

/-- The same provider, keeping its calls beside its state. -/
def recording (p : Provider π ω β) : Provider (π × List (ProviderCall ω β)) ω β where
  entry key := noting (.entry key) (p.entry key)
  addEntry key e := noting (.add key e) (p.addEntry key e)
  removeEntry key := noting (.remove key) (p.removeEntry key)
  isRemovable key := noting (.isRemovable key) (p.isRemovable key)
  addConverter oid adapter := noting (.addConverter oid adapter) (p.addConverter oid adapter)
  removeConverter oid := noting (.removeConverter oid) (p.removeConverter oid)

end Provider

namespace Act

/-- The act does the same with the recording provider, and its value and the calls that it makes
satisfy a condition. -/
def Records (act : Act Mark π α) (recorded : Act Mark (π × List (ProviderCall ω β)) α)
    (post : α → List (ProviderCall ω β) → Prop) : Prop :=
  ∀ s past, ∃ calls,
    recorded.run (s, past) =
        ⟨(act.run s).value, ((act.run s).world, past ++ calls), (act.run s).marks⟩ ∧
      providerCalls (act.run s).marks = calls.map ProviderCall.request ∧
      post (act.run s).value calls

variable {act : Act Mark π α} {recorded : Act Mark (π × List (ProviderCall ω β)) α}

theorem Records.mono {post post' : α → List (ProviderCall ω β) → Prop}
    (h : Records act recorded post) (imp : ∀ a calls, post a calls → post' a calls) :
    Records act recorded post' := by
  intro s past
  obtain ⟨calls, hrun, hmarks, hpost⟩ := h s past
  exact ⟨calls, hrun, hmarks, imp _ _ hpost⟩

theorem records_pure {a : α} {post : α → List (ProviderCall ω β) → Prop} (h : post a []) :
    Records (pure a : Act Mark π α) (pure a) post := by
  intro s past
  refine ⟨[], ?_, rfl, h⟩
  rw [run_pure, run_pure, List.append_nil]

/-- What is logged is no call. -/
theorem records_log {e : Event} {post : Unit → List (ProviderCall ω β) → Prop} (h : post () []) :
    Records (log e : Act Mark π Unit) (log e) post := by
  intro s past
  refine ⟨[], ?_, rfl, h⟩
  rw [log, log, run_mark, run_mark, List.append_nil]

/-- Asking is one call. -/
theorem records_ask {request : ProviderRequest} {step : π → α × π} {call : α → ProviderCall ω β}
    {post : α → List (ProviderCall ω β) → Prop} (hrequest : ∀ a, (call a).request = request)
    (h : ∀ a, post a [call a]) :
    Records (Provider.ask request step) (Provider.ask request (Provider.noting call step))
      post := by
  intro s past
  refine ⟨[call (step s).1], ?_, ?_, ?_⟩
  · rw [Provider.run_ask, Provider.run_ask, Provider.noting]
  · rw [Provider.run_ask, List.map_singleton, hrequest]
    rfl
  · rw [Provider.run_ask]
    exact h _

theorem Records.bind {next : α → Act Mark π γ}
    {next' : α → Act Mark (π × List (ProviderCall ω β)) γ}
    {post : γ → List (ProviderCall ω β) → Prop}
    (h : Records act recorded fun a calls =>
      Records (next a) (next' a) fun c calls' => post c (calls ++ calls')) :
    Records (act >>= next) (recorded >>= next') post := by
  intro s past
  obtain ⟨calls, hrun, hmarks, hnext⟩ := h s past
  -- the rest is recorded from where the first act leaves both the state and the list
  obtain ⟨calls', hrun', hmarks', hpost⟩ := hnext (act.run s).world (past ++ calls)
  refine ⟨calls ++ calls', ?_, ?_, hpost⟩
  · rw [run_bind, hrun, run_bind]
    dsimp only
    rw [hrun', List.append_assoc]
  · rw [run_bind, providerCalls_append, hmarks, hmarks', List.map_append]

/-- After a success the rest has its turn, and after a failure it has none. -/
theorem Records.andThen {ε : Type} {act : Act Mark π (Except ε α)}
    {recorded : Act Mark (π × List (ProviderCall ω β)) (Except ε α)}
    {next : α → Act Mark π (Except ε γ)}
    {next' : α → Act Mark (π × List (ProviderCall ω β)) (Except ε γ)}
    {post : Except ε γ → List (ProviderCall ω β) → Prop}
    (h : Records act recorded fun result calls => match result with
      | .ok a => Records (next a) (next' a) fun c calls' => post c (calls ++ calls')
      | .error e => post (.error e) calls) :
    Records (act.andThen next) (recorded.andThen next') post := by
  refine .bind (h.mono ?_)
  intro result calls hresult
  cases result with
  | ok a => exact hresult
  -- behind a failure there is an act that does nothing, and so no more calls
  | error e =>
    refine records_pure ?_
    rw [List.append_nil]
    exact hresult

end Act

end SignatureCatalog
