import SignatureCatalog.Proofs.Engine.Machine

/-!
# Engines are signing machines

`SignatureEngine.performAll` carries out any list of operations on an engine. An engine with its
name and adapter taken off is a state of the signing machine, and one operation on it is one step
(`step_iff_run_perform`), so a history of an engine is a run of the machine and there is no other
run with the same operations (`run_iff_run_performAll`).

`performAll_refines_machine` puts this together with what a run holds: the message of an engine is
made of the pieces since its last successful preparation, signature or verification, its key is that
of its last successful preparation, and these two are what the adapter is given. Failures in between
leave no trace.
-/

namespace SignatureCatalog

open SigningMachine

variable {ω β : Type}

theorem EngineMode.isInitialized_iff {mode : EngineMode} :
    mode.isInitialized = true ↔ mode ≠ .uninitialized := by
  cases mode <;> simp [EngineMode.isInitialized]

/-- The engine of an algorithm in a state of the machine. -/
def SigningMachine.engine (s : SigningMachine) (name : String) (a : Adapter ω β) :
    SignatureEngine ω β :=
  ⟨name, a, s.mode, s.buffer⟩

namespace SignatureEngine

/-- The state of the machine that an engine is in. -/
def machine (engine : SignatureEngine ω β) : SigningMachine :=
  ⟨engine.mode, engine.message⟩

/-- Carries out operations one after the other, and tells the exchanges. -/
def performAll (engine : SignatureEngine ω β) :
    List (EngineOperation β) → Act Mark ω (List (Exchange β) × SignatureEngine ω β)
  | [] => return ([], engine)
  | operation :: rest => do
    let first ← engine.perform operation
    let others ← performAll first.2 rest
    return ((operation, first.1) :: others.1, others.2)

@[simp] theorem machine_engine (s : SigningMachine) (name : String) (a : Adapter ω β) :
    (s.engine name a).machine = s := rfl

@[simp] theorem engine_fresh (name : String) (a : Adapter ω β) :
    fresh.engine name a = SignatureEngine.new name a := rfl

@[simp] theorem adapter_engine (s : SigningMachine) (name : String) (a : Adapter ω β) :
    (s.engine name a).adapter = a := rfl

@[simp] theorem mode_engine (s : SigningMachine) (name : String) (a : Adapter ω β) :
    (s.engine name a).mode = s.mode := rfl

@[simp] theorem message_engine (s : SigningMachine) (name : String) (a : Adapter ω β) :
    (s.engine name a).message = s.buffer := rfl

@[simp] theorem prepared_engine (s : SigningMachine) (name : String) (a : Adapter ω β)
    (mode : EngineMode) : (s.engine name a).prepared mode = engine ⟨mode, []⟩ name a := rfl

@[simp] theorem cleared_engine (s : SigningMachine) (name : String) (a : Adapter ω β) :
    (s.engine name a).cleared = engine ⟨s.mode, []⟩ name a := rfl

variable {a : Adapter ω β} {s s' : SigningMachine} {w w' : ω} {m : List Mark}
  {operation : EngineOperation β} {reply : Except Error EngineReply}
  {exchanges : List (Exchange β)} {operations : List (EngineOperation β)}

/-! ### One operation -/

/-- An engine does what the machine does. -/
theorem run_perform_of_step (h : Step a s w operation reply s' w' m) (name : String) :
    ((s.engine name a).perform operation).run w = ⟨(reply, s'.engine name a), w', m⟩ := by
  -- each way an operation can end is one branch of the engine, with its questions answered as the
  -- step has it
  cases h with
  | initSign_public kind => simp [perform, perform.reply, initSign, kind, Except.map]
  | initSign_unsupported kind asked =>
    simp [perform, perform.reply, initSign, kind, asked, Except.map]
  | initSign_refused kind asked written =>
    simp [perform, perform.reply, initSign, kind, asked, written, Except.map]
  | initSign_done kind asked written =>
    simp [perform, perform.reply, initSign, kind, asked, written, Except.map]
  | initVerify_private kind => simp [perform, perform.reply, initVerify, kind, Except.map]
  | initVerify_unsupported kind asked =>
    simp [perform, perform.reply, initVerify, kind, asked, Except.map]
  | initVerify_refused kind asked written =>
    simp [perform, perform.reply, initVerify, kind, asked, written, Except.map]
  | initVerify_unaligned kind asked written unaligned =>
    simp [perform, perform.reply, initVerify, kind, asked, written, unaligned, Except.map]
  | initVerify_done kind asked written aligned =>
    simp [perform, perform.reply, initVerify, kind, asked, written, aligned, Except.map]
  | update_done prepared =>
    rw [run_perform_update, update, mode_engine, if_pos (EngineMode.isInitialized_iff.mpr prepared)]
    rfl
  | update_refused unprepared =>
    rw [run_perform_update, update, mode_engine, unprepared]
    rfl
  | sign_done mode asked =>
    simp only [perform, sign, mode_engine, mode]
    simp [perform.reply, asked, mode]
  | sign_refused mode =>
    simp only [perform, sign, mode_engine]
    rfl
  | verify_done mode asked =>
    simp only [perform, verify, mode_engine, mode]
    simp [perform.reply, asked, mode]
  | verify_refused mode =>
    simp only [perform, verify, mode_engine]
    rfl

/-- **One operation is one step.** -/
theorem step_iff_run_perform (name : String) :
    Step a s w operation reply s' w' m ↔
      ((s.engine name a).perform operation).run w = ⟨(reply, s'.engine name a), w', m⟩ := by
  refine ⟨fun h => run_perform_of_step h name, fun h => ?_⟩
  obtain ⟨reply₁, s₁, w₁, m₁, step⟩ := Step.exists a s w operation
  -- the machine has some step, and the engine can only have done that one
  rw [run_perform_of_step step] at h
  simp only [Outcome.mk.injEq, Prod.mk.injEq] at h
  obtain ⟨⟨rfl, hs⟩, rfl, rfl⟩ := h
  obtain rfl : s₁ = s' := congrArg machine hs
  exact step

/-! ### All operations -/

/-- Operations that the machine carries out in a run are carried out by the engine alike. -/
theorem run_performAll_of_run (h : Run a s w exchanges s' w' m) (name : String) :
    ((s.engine name a).performAll (exchanges.map Prod.fst)).run w =
      ⟨(exchanges, s'.engine name a), w', m⟩ := by
  induction h with
  | nil => rfl
  | cons first _ ih => simp [performAll, run_perform_of_step first, ih]

/-- Whatever operations an engine carries out, they are a run of the machine. -/
theorem exists_run_performAll (s : SigningMachine) (name : String) (a : Adapter ω β) (w : ω)
    (operations : List (EngineOperation β)) :
    ∃ exchanges s' w' m, exchanges.map Prod.fst = operations ∧ Run a s w exchanges s' w' m ∧
      ((s.engine name a).performAll operations).run w = ⟨(exchanges, s'.engine name a), w', m⟩ := by
  -- the machine takes a step for every operation, whatever state the one before left it in
  have run : ∃ exchanges s' w' m,
      exchanges.map Prod.fst = operations ∧ Run a s w exchanges s' w' m := by
    induction operations generalizing s w with
    | nil => exact ⟨[], s, w, [], rfl, .nil s w⟩
    | cons operation rest ih =>
      obtain ⟨reply, s₁, w₁, m₁, first⟩ := Step.exists a s w operation
      obtain ⟨exchanges, s₂, w₂, m₂, rfl, others⟩ := ih s₁ w₁
      exact ⟨(operation, reply) :: exchanges, s₂, w₂, m₁ ++ m₂, rfl, .cons first others⟩
  obtain ⟨exchanges, s', w', m, rfl, h⟩ := run
  exact ⟨exchanges, s', w', m, rfl, h, run_performAll_of_run h name⟩

/-- **A history is a run.** The exchanges of an engine are those of the one run of the machine with
the same operations. -/
theorem run_iff_run_performAll (name : String) :
    exchanges.map Prod.fst = operations ∧ Run a s w exchanges s' w' m ↔
      ((s.engine name a).performAll operations).run w = ⟨(exchanges, s'.engine name a), w', m⟩ := by
  constructor
  · rintro ⟨rfl, h⟩
    exact run_performAll_of_run h name
  · intro h
    obtain ⟨exchanges₁, s₁, w₁, m₁, hops, run, h₁⟩ := exists_run_performAll s name a w operations
    -- some run has these operations, and the engine has done what that run says
    rw [h₁] at h
    simp only [Outcome.mk.injEq, Prod.mk.injEq] at h
    obtain ⟨⟨rfl, hs⟩, rfl, rfl⟩ := h
    obtain rfl : s₁ = s' := congrArg machine hs
    exact ⟨hops, run⟩

/-- What signing replies depends on nothing but the mode and the message. -/
theorem value_run_sign (engine : SignatureEngine ω β) (w : ω) :
    (engine.sign.run w).value.1 = match engine.mode with
      | .sign privateKey =>
        ((engine.adapter.sign engine.message privateKey).run w).value.mapError .adapter
      | _ => .error (.engineState .notSigning) := by
  unfold sign
  -- both sides look at the mode
  cases engine.mode with
  | sign => simp
  | _ => rfl

/-- What verifying replies depends on nothing but the mode and the message. -/
theorem value_run_verify (engine : SignatureEngine ω β) (signature : Bytes) (w : ω) :
    ((engine.verify signature).run w).value.1 = match engine.mode with
      | .verify publicKey =>
        ((engine.adapter.verify engine.message publicKey signature).run w).value.mapError .adapter
      | _ => .error (.engineState .notVerifying) := by
  unfold verify
  cases engine.mode with
  | verify => simp
  | _ => rfl

/-- **An engine is a signing machine, and its message is what was added since it began.** A history
of a new engine is the one run of the machine with the same operations: reply by reply, call by
call, and up to the state that is left. After it the engine holds the pieces since its last
successful preparation, signature or verification, in the mode of its last successful preparation,
and with these the adapter answers the next signature or verification. -/
theorem performAll_refines_machine (name : String) (a : Adapter ω β)
    (operations : List (EngineOperation β)) (w : ω) :
    let outcome := ((new name a).performAll operations).run w
    let exchanges := outcome.value.1
    let engine := outcome.value.2
    (∀ t s w' m, t.map Prod.fst = operations ∧ Run a fresh w t s w' m ↔
        t = exchanges ∧ s = engine.machine ∧ w' = outcome.world ∧ m = outcome.marks) ∧
      engine.name = name ∧ engine.adapter = a ∧
      engine.message = Exchange.pending exchanges ∧
      InForce a fresh w exchanges engine.mode ∧
      ((engine.sign.run outcome.world).value.1 = match engine.mode with
        | .sign privateKey =>
          ((a.sign (Exchange.pending exchanges) privateKey).run outcome.world).value.mapError
            .adapter
        | _ => .error (.engineState .notSigning)) ∧
      ∀ signature, ((engine.verify signature).run outcome.world).value.1 = match engine.mode with
        | .verify publicKey =>
          ((a.verify (Exchange.pending exchanges) publicKey signature).run
            outcome.world).value.mapError .adapter
        | _ => .error (.engineState .notVerifying) := by
  obtain ⟨exchanges, s, w', m, hops, run, h⟩ := exists_run_performAll fresh name a w operations
  rw [engine_fresh] at h
  dsimp only
  rw [h]
  refine ⟨fun t s₁ w₁ m₁ => ?_, rfl, rfl, run.buffer_eq_pending, run.inForce, ?_,
    fun signature => ?_⟩
  -- the runs with these operations are what the engine can have done, which is one thing
  · rw [run_iff_run_performAll name, engine_fresh, h]
    simp only [Outcome.mk.injEq, Prod.mk.injEq, machine_engine]
    constructor
    · rintro ⟨⟨rfl, hs⟩, rfl, rfl⟩
      exact ⟨rfl, (congrArg machine hs).symm, rfl, rfl⟩
    · rintro ⟨rfl, rfl, rfl, rfl⟩
      exact ⟨⟨rfl, rfl⟩, rfl, rfl⟩
  -- the next signature is made of the message, which is what is pending
  · rw [value_run_sign, message_engine, run.buffer_eq_pending]
    rfl
  · rw [value_run_verify, message_engine, run.buffer_eq_pending]
    rfl

end SignatureEngine

end SignatureCatalog
