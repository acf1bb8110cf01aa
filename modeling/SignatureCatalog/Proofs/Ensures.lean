import SignatureCatalog.Provider.Basic

/-!
# What an act ensures

`Act.Ensures view before act post` says what an act comes to in every world that looks a certain
way: whatever else the world is, if it is seen as `before`, then the value of the act, the way the
world is seen afterwards and the events it logs satisfy `post`. Calls among the marks are left out.

There is one rule for each way acts are made. They work from the end of an act to its start: the
rule for a sequence asks of the first act that the rest ensures what is wanted of the whole.
-/

namespace SignatureCatalog.Act

variable {ω σ α β : Type}

/-- In every world that is seen as `before`, the act ends as `post` says. -/
def Ensures (view : ω → σ) (before : σ) (act : Act Mark ω α)
    (post : α → σ → List Event → Prop) : Prop :=
  ∀ world, view world = before →
    post (act.run world).value (view (act.run world).world) (events (act.run world).marks)

variable {view : ω → σ} {before : σ} {act : Act Mark ω α}

theorem Ensures.mono {post post' : α → σ → List Event → Prop} (h : Ensures view before act post)
    (imp : ∀ a after es, post a after es → post' a after es) : Ensures view before act post' :=
  fun world hworld => imp _ _ _ (h world hworld)

theorem ensures_pure {a : α} {post : α → σ → List Event → Prop} (h : post a before []) :
    Ensures view before (pure a) post := by
  intro world hworld
  rw [run_pure, hworld]
  exact h

theorem ensures_log {e : Event} {post : Unit → σ → List Event → Prop} (h : post () before [e]) :
    Ensures view before (log e) post := by
  intro world hworld
  rw [log, run_mark, hworld]
  exact h

/-- A provider's step is all that happens when it is asked. -/
theorem ensures_ask {request : ProviderRequest} {step : ω → α × ω}
    {post : α → σ → List Event → Prop}
    (h : ∀ world, view world = before → post (step world).1 (view (step world).2) []) :
    Ensures view before (Provider.ask request step) post := by
  intro world hworld
  rw [Provider.run_ask]
  exact h world hworld

theorem Ensures.bind {next : α → Act Mark ω β} {post : β → σ → List Event → Prop}
    (h : Ensures view before act fun a mid es =>
      Ensures view mid (next a) fun b after es' => post b after (es ++ es')) :
    Ensures view before (act >>= next) post := by
  intro world hworld
  have hnext : post _ _ (_ ++ _) := h world hworld _ rfl
  -- the rest starts from the world as the first act leaves it, however that one looks
  rw [← events_append] at hnext
  exact hnext

section

variable {ε : Type} {act : Act Mark ω (Except ε α)} {next : α → Act Mark ω (Except ε β)}
  {post : Except ε β → σ → List Event → Prop}

/-- After a success the rest has its turn. -/
theorem Ensures.andThen_of_ok
    (h : Ensures view before act fun result mid es => ∃ a, result = .ok a ∧
      Ensures view mid (next a) fun b after es' => post b after (es ++ es')) :
    Ensures view before (act.andThen next) post := by
  intro world hworld
  obtain ⟨a, hvalue, hnext⟩ := h world hworld
  have hnext : post _ _ (_ ++ _) := hnext _ rfl
  rw [← events_append] at hnext
  rw [run_andThen_of_ok hvalue]
  exact hnext

/-- After a failure it has none. -/
theorem Ensures.andThen_of_error
    (h : Ensures view before act fun result mid es => ∃ e, result = .error e ∧
      post (.error e) mid es) :
    Ensures view before (act.andThen next) post := by
  intro world hworld
  obtain ⟨e, hvalue, hpost⟩ := h world hworld
  rw [run_andThen_of_error hvalue]
  exact hpost

end

end SignatureCatalog.Act
