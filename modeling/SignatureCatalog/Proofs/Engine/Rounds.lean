import SignatureCatalog.Proofs.Engine.Session

/-!
# Rounds

An engine that has been prepared once can work through any number of messages. Each of them is a
`Round`: the pieces are added, and the engine signs or verifies at the end. A round begins with an
empty buffer and leaves an empty buffer (`SigningMachine.run_round`), so what it comes to does not
depend on the rounds before it, and any list of rounds is carried out one round at a time
(`SigningMachine.exists_run_rounds`).
-/

namespace SignatureCatalog

variable {ω β : Type}

/-- A message in pieces, what is asked about it, and the answer to that. -/
structure Round (β : Type) where
  pieces : List Bytes
  last : EngineOperation β
  answer : Except Error EngineReply

/-- The exchanges of a round: the pieces are taken, and then there is the answer. -/
def Round.exchanges (round : Round β) : List (Exchange β) :=
  round.pieces.map (fun piece => (.update piece, .ok .done)) ++ [(round.last, round.answer)]

namespace SigningMachine

variable {a : Adapter ω β} {mode : EngineMode} {w w₁ : ω} {m : List Mark}

/-- **A round begins and ends with an empty buffer.** -/
theorem run_round {round : Round β} (prepared : mode ≠ .uninitialized)
    (ending : Step a ⟨mode, round.pieces.flatten⟩ w round.last round.answer ⟨mode, []⟩ w₁ m) :
    Run a ⟨mode, []⟩ w round.exchanges ⟨mode, []⟩ w₁ m :=
  run_message prepared ending

/-- If every message gets its answer in any world, then so do all of them one after the other. -/
theorem exists_run_rounds {rounds : List (Round β)} (prepared : mode ≠ .uninitialized)
    (endings : ∀ round ∈ rounds, ∀ w, ∃ w₁ m,
      Step a ⟨mode, round.pieces.flatten⟩ w round.last round.answer ⟨mode, []⟩ w₁ m) (w : ω) :
    ∃ w' m, Run a ⟨mode, []⟩ w (rounds.flatMap Round.exchanges) ⟨mode, []⟩ w' m := by
  -- what carries from round to round is the state, prepared and without a message; the world is
  -- another each time
  induction rounds generalizing w with
  | nil => exact ⟨w, [], .nil _ _⟩
  | cons round rest ih =>
    obtain ⟨hround, hrest⟩ := List.forall_mem_cons.mp endings
    obtain ⟨w₁, m, ending⟩ := hround w
    -- the rest meets the machine as the first round has found it
    obtain ⟨w', m', others⟩ := ih hrest w₁
    exact ⟨w', m ++ m', (run_round prepared ending).append others⟩

end SigningMachine

namespace SignatureEngine

open SigningMachine

/-- **The engine answers so**: whatever the world, the operations of these exchanges get these
replies. -/
def Answers (engine : SignatureEngine ω β) (exchanges : List (Exchange β)) : Prop :=
  ∀ w, ((engine.performAll (exchanges.map Prod.fst)).run w).value.1 = exchanges

/-- An operation that gets its reply in any world is answered so. -/
theorem answers_step {engine : SignatureEngine ω β} {operation : EngineOperation β}
    {reply : Except Error EngineReply} {s : SigningMachine}
    (step : ∀ w, ∃ w₁ m, Step engine.adapter engine.machine w operation reply s w₁ m) :
    engine.Answers [(operation, reply)] := by
  intro w
  obtain ⟨w₁, m, hstep⟩ := step w
  have h := run_performAll_of_run (.cons hstep (.nil s w₁)) engine.name
  exact congrArg (fun outcome => outcome.value.1) h

/-- An engine that can be prepared and has an answer to every message works through any rounds. -/
theorem answers_rounds {engine : SignatureEngine ω β} {first : EngineOperation β}
    {mode : EngineMode} {rounds : List (Round β)} (prepared : mode ≠ .uninitialized)
    (preparation : ∀ w, ∃ w₁ m,
      Step engine.adapter engine.machine w first (.ok .done) ⟨mode, []⟩ w₁ m)
    (endings : ∀ round ∈ rounds, ∀ w, ∃ w₁ m,
      Step engine.adapter ⟨mode, round.pieces.flatten⟩ w round.last round.answer ⟨mode, []⟩ w₁ m) :
    engine.Answers ((first, .ok .done) :: rounds.flatMap Round.exchanges) := by
  intro w
  obtain ⟨w₁, m, hfirst⟩ := preparation w
  obtain ⟨w', m', others⟩ := exists_run_rounds prepared endings w₁
  have h := run_performAll_of_run (.cons hfirst others) engine.name
  exact congrArg (fun outcome => outcome.value.1) h

end SignatureEngine

end SignatureCatalog
