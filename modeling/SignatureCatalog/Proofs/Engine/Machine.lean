import Mathlib.Data.List.DropRight
import SignatureCatalog.Engine

/-!
# The signing machine

An abstract machine for signing and verifying piecewise. Its state is a mode, with the octets of the
key in use, and a buffer; `SigningMachine.Step` says what each operation does to it, one constructor
for each way an operation can end. An adapter answers as it likes, and may change its world and log
as it does, so a step also has the world it meets, the world it leaves and the marks of the calls
it makes.

The rules by operation:

* preparing succeeds exactly if the key is of the right kind, the adapter supports it and its key
  info can be written (and, for verifying, has a string of octets as its payload). Then the mode
  is set and the buffer is empty; otherwise both stay as they were.
* an update adds to the buffer in any mode but the initial one;
* signing, in the mode for it, hands the buffer and the octets of the key to the adapter and empties
  the buffer, whatever the adapter answers. In any other mode it is refused, nobody is asked, and
  nothing changes. Verifying is the same in its own mode.

A machine never gets stuck (`Step.exists`). A run is a list of exchanges, each an operation with the
reply it got, and what the machine holds after a run can be read off the exchanges alone: the buffer
is made of the pieces since the last exchange that began a new message (`Run.buffer_eq_pending`),
and the mode is the one that the last successful preparation set (`Run.inForce`).
-/

namespace SignatureCatalog

variable {ω β : Type}

/-- An operation with the reply to it. -/
abbrev Exchange (β : Type) := EngineOperation β × Except Error EngineReply

/-- The state of the machine. -/
structure SigningMachine where
  mode : EngineMode
  buffer : Bytes
  deriving DecidableEq, Repr

namespace SigningMachine

/-- The machine at the start: not prepared, and without a message. -/
def fresh : SigningMachine := ⟨.uninitialized, []⟩

/-! ### Steps -/

/-- What one operation does: the reply to it, the state after it, the world as it leaves it and the
marks of the calls it makes. -/
inductive Step (a : Adapter ω β) (s : SigningMachine) (w : ω) :
    EngineOperation β → Except Error EngineReply → SigningMachine → ω → List Mark → Prop where
  | initSign_public {k : Key β} (kind : k.isPrivate = false) :
      Step a s w (.initSign k) (.error .unsupportedParameter) s w []
  | initSign_unsupported {k : Key β} {w₁ : ω} {m₁ : List Mark} (kind : k.isPrivate = true)
      (asked : (a.askSupports k).run w = ⟨false, w₁, m₁⟩) :
      Step a s w (.initSign k) (.error .unsupportedParameter) s w₁ m₁
  | initSign_refused {k : Key β} {e : Error} {w₁ w₂ : ω} {m₁ m₂ : List Mark}
      (kind : k.isPrivate = true) (asked : (a.askSupports k).run w = ⟨true, w₁, m₁⟩)
      (written : (a.attempt .writePrivateKey (a.writePrivateKey k none)).run w₁ =
        ⟨.error e, w₂, m₂⟩) :
      Step a s w (.initSign k) (.error e) s w₂ (m₁ ++ m₂)
  | initSign_done {k : Key β} {info : PrivateKeyInfo} {w₁ w₂ : ω} {m₁ m₂ : List Mark}
      (kind : k.isPrivate = true) (asked : (a.askSupports k).run w = ⟨true, w₁, m₁⟩)
      (written : (a.attempt .writePrivateKey (a.writePrivateKey k none)).run w₁ =
        ⟨.ok info, w₂, m₂⟩) :
      Step a s w (.initSign k) (.ok .done) ⟨.sign info.privateKey, []⟩ w₂ (m₁ ++ m₂)
  | initVerify_private {k : Key β} (kind : k.isPrivate = true) :
      Step a s w (.initVerify k) (.error .unsupportedParameter) s w []
  | initVerify_unsupported {k : Key β} {w₁ : ω} {m₁ : List Mark} (kind : k.isPrivate = false)
      (asked : (a.askSupports k).run w = ⟨false, w₁, m₁⟩) :
      Step a s w (.initVerify k) (.error .unsupportedParameter) s w₁ m₁
  | initVerify_refused {k : Key β} {e : Error} {w₁ w₂ : ω} {m₁ m₂ : List Mark}
      (kind : k.isPrivate = false) (asked : (a.askSupports k).run w = ⟨true, w₁, m₁⟩)
      (written : (a.attempt .writePublicKey (a.writePublicKey k)).run w₁ = ⟨.error e, w₂, m₂⟩) :
      Step a s w (.initVerify k) (.error e) s w₂ (m₁ ++ m₂)
  | initVerify_unaligned {k : Key β} {info : SubjectPublicKeyInfo} {e : Der.Error} {w₁ w₂ : ω}
      {m₁ m₂ : List Mark}
      (kind : k.isPrivate = false) (asked : (a.askSupports k).run w = ⟨true, w₁, m₁⟩)
      (written : (a.attempt .writePublicKey (a.writePublicKey k)).run w₁ = ⟨.ok info, w₂, m₂⟩)
      (unaligned : info.keyOctets = .error e) :
      Step a s w (.initVerify k) (.error (.decode e)) s w₂ (m₁ ++ m₂)
  | initVerify_done {k : Key β} {info : SubjectPublicKeyInfo} {octets : Bytes} {w₁ w₂ : ω}
      {m₁ m₂ : List Mark}
      (kind : k.isPrivate = false) (asked : (a.askSupports k).run w = ⟨true, w₁, m₁⟩)
      (written : (a.attempt .writePublicKey (a.writePublicKey k)).run w₁ = ⟨.ok info, w₂, m₂⟩)
      (aligned : info.keyOctets = .ok octets) :
      Step a s w (.initVerify k) (.ok .done) ⟨.verify octets, []⟩ w₂ (m₁ ++ m₂)
  | update_done {piece : Bytes} (prepared : s.mode ≠ .uninitialized) :
      Step a s w (.update piece) (.ok .done) ⟨s.mode, s.buffer ++ piece⟩ w []
  | update_refused {piece : Bytes} (unprepared : s.mode = .uninitialized) :
      Step a s w (.update piece) (.error (.engineState .notInitialized)) s w []
  | sign_done {privateKey : Bytes} {answer : Except Error Bytes} {w₁ : ω} {m₁ : List Mark}
      (mode : s.mode = .sign privateKey)
      (asked : (a.attempt .sign (a.sign s.buffer privateKey)).run w = ⟨answer, w₁, m₁⟩) :
      Step a s w .sign (answer.map .signature) ⟨s.mode, []⟩ w₁ m₁
  | sign_refused (mode : ∀ privateKey, s.mode ≠ .sign privateKey) :
      Step a s w .sign (.error (.engineState .notSigning)) s w []
  | verify_done {publicKey signature : Bytes} {answer : Except Error Bool} {w₁ : ω}
      {m₁ : List Mark} (mode : s.mode = .verify publicKey)
      (asked : (a.attempt .verify (a.verify s.buffer publicKey signature)).run w =
        ⟨answer, w₁, m₁⟩) :
      Step a s w (.verify signature) (answer.map .verdict) ⟨s.mode, []⟩ w₁ m₁
  | verify_refused {signature : Bytes} (mode : ∀ publicKey, s.mode ≠ .verify publicKey) :
      Step a s w (.verify signature) (.error (.engineState .notVerifying)) s w []

/-- **The machine never gets stuck.** -/
theorem Step.exists (a : Adapter ω β) (s : SigningMachine) (w : ω) (operation : EngineOperation β) :
    ∃ reply s' w' m, Step a s w operation reply s' w' m := by
  cases operation with
  | initSign k =>
    -- a preparation ends at the first question that goes against it: kind, support, key info
    cases kind : k.isPrivate with
    | false => exact ⟨_, _, _, _, .initSign_public kind⟩
    | true =>
      rcases asked : (a.askSupports k).run w with ⟨_ | _, w₁, m₁⟩
      · exact ⟨_, _, _, _, .initSign_unsupported kind asked⟩
      · rcases written : (a.attempt .writePrivateKey (a.writePrivateKey k none)).run w₁ with
          ⟨e | info, w₂, m₂⟩
        · exact ⟨_, _, _, _, .initSign_refused kind asked written⟩
        · exact ⟨_, _, _, _, .initSign_done kind asked written⟩
  | initVerify k =>
    cases kind : k.isPrivate with
    | true => exact ⟨_, _, _, _, .initVerify_private kind⟩
    | false =>
      rcases asked : (a.askSupports k).run w with ⟨_ | _, w₁, m₁⟩
      · exact ⟨_, _, _, _, .initVerify_unsupported kind asked⟩
      · rcases written : (a.attempt .writePublicKey (a.writePublicKey k)).run w₁ with
          ⟨e | info, w₂, m₂⟩
        · exact ⟨_, _, _, _, .initVerify_refused kind asked written⟩
        · cases octets : info.keyOctets with
          | error e => exact ⟨_, _, _, _, .initVerify_unaligned kind asked written octets⟩
          | ok key => exact ⟨_, _, _, _, .initVerify_done kind asked written octets⟩
  | update piece =>
    by_cases h : s.mode = .uninitialized
    · exact ⟨_, _, _, _, .update_refused h⟩
    · exact ⟨_, _, _, _, .update_done h⟩
  | sign =>
    -- signing and verifying depend on the mode alone, since any answer will do
    by_cases h : ∃ privateKey, s.mode = .sign privateKey
    · obtain ⟨privateKey, mode⟩ := h
      exact ⟨_, _, _, _, .sign_done mode rfl⟩
    · exact ⟨_, _, _, _, .sign_refused (not_exists.mp h)⟩
  | verify signature =>
    by_cases h : ∃ publicKey, s.mode = .verify publicKey
    · obtain ⟨publicKey, mode⟩ := h
      exact ⟨_, _, _, _, .verify_done mode rfl⟩
    · exact ⟨_, _, _, _, .verify_refused (not_exists.mp h)⟩

/-! ### Runs -/

/-- A sequence of steps, as the exchanges in it. -/
inductive Run (a : Adapter ω β) :
    SigningMachine → ω → List (Exchange β) → SigningMachine → ω → List Mark → Prop where
  | nil (s : SigningMachine) (w : ω) : Run a s w [] s w []
  | cons {s s₁ s₂ : SigningMachine} {w w₁ w₂ : ω} {operation : EngineOperation β}
      {reply : Except Error EngineReply} {rest : List (Exchange β)} {m₁ m₂ : List Mark}
      (first : Step a s w operation reply s₁ w₁ m₁) (others : Run a s₁ w₁ rest s₂ w₂ m₂) :
      Run a s w ((operation, reply) :: rest) s₂ w₂ (m₁ ++ m₂)

end SigningMachine

/-! ### What exchanges tell -/

namespace Exchange

/-- Whether a preparation succeeded. -/
def prepares : Exchange β → Bool
  | (.initSign _, reply) => reply.isOk
  | (.initVerify _, reply) => reply.isOk
  | _ => false

/-- Whether a new message begins: after a preparation that succeeded, and after a message went to
the adapter, with success or without. -/
def beginsMessage : Exchange β → Bool
  | (.sign, .error (.engineState _)) => false
  | (.verify _, .error (.engineState _)) => false
  | (.sign, _) => true
  | (.verify _, _) => true
  | exchange => prepares exchange

/-- The piece that is added to the message. -/
def piece : Exchange β → Bytes
  | (.update piece, .ok _) => piece
  | _ => []

/-- The message under way: the pieces since it began. -/
def pending (exchanges : List (Exchange β)) : Bytes :=
  (exchanges.rtakeWhile fun exchange => !beginsMessage exchange).flatMap piece

/-- The effect of an exchange on the message under way. -/
def absorb (message : Bytes) (exchange : Exchange β) : Bytes :=
  if beginsMessage exchange then [] else message ++ piece exchange

/-- Taking the exchanges one by one comes to the same as looking back from the last one. -/
theorem foldl_absorb_eq_pending (exchanges : List (Exchange β)) :
    exchanges.foldl absorb [] = pending exchanges := by
  -- from the back, where the last exchange either begins a message or adds its piece
  induction exchanges using List.reverseRecOn with
  | nil => simp [pending]
  | append_singleton exchanges exchange ih =>
    rw [List.foldl_append, List.foldl_cons, List.foldl_nil, ih, absorb, pending, pending,
      List.rtakeWhile_concat]
    cases beginsMessage exchange with
    | true => rfl
    | false => simp

/-- A message goes to the adapter with it, so a new one begins: whatever the adapter answers, it is
not that the engine is in the wrong state. -/
theorem beginsMessage_of_attempt {α : Type} {a : Adapter ω β} {request : AdapterRequest}
    {act : Act Event ω (Except Failure α)} {w w₁ : ω} {answer : Except Error α} {m₁ : List Mark}
    {operation : EngineOperation β}
    (asks : operation = .sign ∨ ∃ signature, operation = .verify signature)
    (asked : (a.attempt request act).run w = ⟨answer, w₁, m₁⟩) (f : α → EngineReply) :
    beginsMessage (operation, answer.map f) = true := by
  rw [Adapter.run_attempt, Outcome.mk.injEq] at asked
  -- what an adapter fails with is wrapped, so it is no complaint of the engine's
  obtain ⟨rfl, -, -⟩ := asked
  rcases asks with rfl | ⟨signature, rfl⟩
  · cases (act.run w).value <;> rfl
  · cases (act.run w).value <;> rfl

end Exchange

namespace SigningMachine

variable {a : Adapter ω β} {s s' : SigningMachine} {w w' : ω} {m : List Mark}
  {operation : EngineOperation β} {reply : Except Error EngineReply}
  {exchanges : List (Exchange β)}

/-- A step changes the buffer as its exchange tells. -/
theorem Step.buffer_eq (h : Step a s w operation reply s' w' m) :
    s'.buffer = Exchange.absorb s.buffer (operation, reply) := by
  unfold Exchange.absorb
  cases h with
  -- a message that has gone to the adapter is gone, whatever came back
  | sign_done mode asked => rw [if_pos (Exchange.beginsMessage_of_attempt (.inl rfl) asked _)]
  | verify_done mode asked =>
    rw [if_pos (Exchange.beginsMessage_of_attempt (.inr ⟨_, rfl⟩) asked _)]
  | initSign_done => rfl
  | initVerify_done => rfl
  | update_done => rfl
  -- the others are refusals, with no piece in them
  | _ => exact (List.append_nil _).symm

/-- Only a preparation that succeeds changes the mode. -/
theorem Step.mode_eq (h : Step a s w operation reply s' w' m)
    (unprepared : Exchange.prepares (operation, reply) = false) : s'.mode = s.mode := by
  cases h with
  | initSign_done => cases unprepared
  | initVerify_done => cases unprepared
  | _ => rfl

/-- A preparation that succeeds replies so and empties the buffer. -/
theorem Step.prepared (h : Step a s w operation reply s' w' m)
    (prepares : Exchange.prepares (operation, reply) = true) :
    reply = .ok .done ∧ s' = ⟨s'.mode, []⟩ := by
  cases h with
  | initSign_done => exact ⟨rfl, rfl⟩
  | initVerify_done => exact ⟨rfl, rfl⟩
  | _ => cases prepares

theorem Run.buffer_eq (h : Run a s w exchanges s' w' m) :
    s'.buffer = exchanges.foldl Exchange.absorb s.buffer := by
  induction h with
  | nil => rfl
  | cons first _ ih => rw [ih, first.buffer_eq, List.foldl_cons]

/-- **The buffer holds the pieces since the message began.** -/
theorem Run.buffer_eq_pending (h : Run a fresh w exchanges s' w' m) :
    s'.buffer = Exchange.pending exchanges := by
  rw [h.buffer_eq, fresh, Exchange.foldl_absorb_eq_pending]

/-- The mode in force after exchanges that began in a given state: the one at the start as long as
no preparation succeeded, and then the one set by the last that did. -/
inductive InForce (a : Adapter ω β) (s : SigningMachine) (w : ω) (exchanges : List (Exchange β)) :
    EngineMode → Prop where
  | never (unprepared : ∀ exchange ∈ exchanges, Exchange.prepares exchange = false) :
      InForce a s w exchanges s.mode
  | since {before rest : List (Exchange β)} {operation : EngineOperation β} {s₁ : SigningMachine}
      {w₁ w₂ : ω} {m₁ m₂ : List Mark} {mode : EngineMode}
      (split : exchanges = before ++ (operation, .ok .done) :: rest)
      (earlier : Run a s w before s₁ w₁ m₁)
      (preparation : Step a s₁ w₁ operation (.ok .done) ⟨mode, []⟩ w₂ m₂)
      (prepares : Exchange.prepares (operation, .ok .done) = true)
      (last : ∀ exchange ∈ rest, Exchange.prepares exchange = false) :
      InForce a s w exchanges mode

/-- **The mode is the one in force.** -/
theorem Run.inForce (h : Run a s w exchanges s' w' m) : InForce a s w exchanges s'.mode := by
  -- the rest of a run decides, and the first exchange only if no preparation in it succeeded
  induction h with
  | nil => exact .never (by simp)
  | @cons s s₁ s₂ w w₁ w₂ operation reply rest m₁ m₂ first _ ih =>
    generalize s₂.mode = mode at ih
    cases ih with
    | since split earlier preparation prepares last =>
      -- the last preparation is in the rest, with one more exchange before it
      refine .since ?_ (.cons first earlier) preparation prepares last
      rw [split, List.cons_append]
    | never unprepared =>
      cases prepares : Exchange.prepares (operation, reply) with
      | false =>
        rw [first.mode_eq prepares]
        refine .never fun exchange hmem => ?_
        rcases List.mem_cons.mp hmem with rfl | hmem
        · exact prepares
        · exact unprepared exchange hmem
      | true =>
        -- this is the last preparation that succeeds, since none of the others does
        obtain ⟨rfl, hs₁⟩ := first.prepared prepares
        exact .since rfl (.nil s w) (hs₁ ▸ first) prepares unprepared

end SigningMachine

end SignatureCatalog
