import SignatureCatalog.Proofs.Engine.Refinement

/-!
# Sessions

A session is the use that engines are made for: prepare, add the pieces of a message, and sign or
verify at the end. If the preparation succeeds, a session comes to one call of the adapter, with the
pieces joined and the octets that the preparation took from the key; how the message was cut makes
no difference (`run_performAll_signing`, `run_performAll_verifying`). The engine may have been in
any state before, since a preparation that succeeds forgets it.
-/

namespace SignatureCatalog

variable {ω β : Type}

/-- The operations of a session: the first prepares, and the last one is about the message that is
made of the pieces in between. -/
def EngineOperation.session (first : EngineOperation β) (pieces : List Bytes)
    (last : EngineOperation β) : List (EngineOperation β) :=
  first :: (pieces.map .update ++ [last])

/-- The replies in a session that gets to its last operation. -/
def EngineReply.session (pieces : List Bytes) (answer : Except Error EngineReply) :
    List (Except Error EngineReply) :=
  .ok .done :: (pieces.map (fun _ => .ok .done) ++ [answer])

/-- The exchanges in a session that gets to its last operation. -/
def Exchange.session (first : EngineOperation β) (pieces : List Bytes) (last : EngineOperation β)
    (answer : Except Error EngineReply) : List (Exchange β) :=
  (first, .ok .done) :: (pieces.map (fun piece => (.update piece, .ok .done)) ++ [(last, answer)])

@[simp] theorem Exchange.map_fst_session (first : EngineOperation β) (pieces : List Bytes)
    (last : EngineOperation β) (answer : Except Error EngineReply) :
    (session first pieces last answer).map Prod.fst =
      EngineOperation.session first pieces last := by
  simp [session, EngineOperation.session, Function.comp_def]

@[simp] theorem Exchange.map_snd_session (first : EngineOperation β) (pieces : List Bytes)
    (last : EngineOperation β) (answer : Except Error EngineReply) :
    (session first pieces last answer).map Prod.snd = EngineReply.session pieces answer := by
  simp [session, EngineReply.session, Function.comp_def]

namespace SigningMachine

variable {a : Adapter ω β} {s s₁ s₂ : SigningMachine} {w w₁ w₂ : ω} {m₁ m₂ : List Mark}

/-- One run after another is a run. -/
theorem Run.append {exchanges exchanges' : List (Exchange β)}
    (h : Run a s w exchanges s₁ w₁ m₁) (h' : Run a s₁ w₁ exchanges' s₂ w₂ m₂) :
    Run a s w (exchanges ++ exchanges') s₂ w₂ (m₁ ++ m₂) := by
  induction h with
  | nil => exact h'
  | cons first _ ih =>
    rw [List.append_assoc]
    exact .cons first (ih h')

/-- Updates of a machine that is prepared join their pieces to the buffer, and nobody is asked. -/
theorem run_updates {mode : EngineMode} (prepared : mode ≠ .uninitialized) (buffer : Bytes)
    (pieces : List Bytes) (w : ω) :
    Run a ⟨mode, buffer⟩ w (pieces.map fun piece => (.update piece, .ok .done))
      ⟨mode, buffer ++ pieces.flatten⟩ w [] := by
  -- on the pieces, with what is in the buffer already growing by one of them at a time
  induction pieces generalizing buffer with
  | nil =>
    rw [List.flatten_nil, List.append_nil]
    exact .nil _ _
  | cons piece rest ih =>
    have others := ih (buffer ++ piece)
    rw [List.append_assoc] at others
    exact .cons (.update_done prepared) others

/-- Pieces that are added to an empty buffer, and a last operation on the pieces joined. -/
theorem run_message {last : EngineOperation β} {mode : EngineMode} {pieces : List Bytes}
    {answer : Except Error EngineReply} (prepared : mode ≠ .uninitialized)
    (ending : Step a ⟨mode, pieces.flatten⟩ w last answer s₁ w₁ m₁) :
    Run a ⟨mode, []⟩ w
      (pieces.map (fun piece => (.update piece, .ok .done)) ++ [(last, answer)]) s₁ w₁ m₁ := by
  have updates := run_updates (a := a) prepared [] pieces w
  rw [List.nil_append] at updates
  -- the last operation is a run by itself
  have final : Run a ⟨mode, pieces.flatten⟩ w [(last, answer)] s₁ w₁ (m₁ ++ []) :=
    .cons ending (.nil _ _)
  rw [List.append_nil] at final
  exact updates.append final

/-- A preparation that succeeds, and a last operation on the pieces joined, are a session. -/
theorem Run.session {first last : EngineOperation β} {mode : EngineMode} {pieces : List Bytes}
    {answer : Except Error EngineReply} (prepared : mode ≠ .uninitialized)
    (preparation : Step a s w first (.ok .done) ⟨mode, []⟩ w₁ m₁)
    (ending : Step a ⟨mode, pieces.flatten⟩ w₁ last answer s₂ w₂ m₂) :
    Run a s w (Exchange.session first pieces last answer) s₂ w₂ (m₁ ++ m₂) :=
  .cons preparation (run_message prepared ending)

end SigningMachine

namespace SignatureEngine

open SigningMachine

variable {engine : SignatureEngine ω β} {k : Key β} {w w₁ w₂ : ω} {m₁ m₂ : List Mark}

/-- **A signing session is one call.** Once the adapter has accepted the key and written its key
info, it signs the pieces joined with the octets of the private key; whatever it answers is the last
reply, and the engine is left prepared and without a message. -/
theorem run_performAll_signing {info : PrivateKeyInfo} (kind : k.isPrivate = true)
    (asked : (engine.adapter.askSupports k).run w = ⟨true, w₁, m₁⟩)
    (written : (engine.adapter.attempt .writePrivateKey
      (engine.adapter.writePrivateKey k none)).run w₁ = ⟨.ok info, w₂, m₂⟩)
    (pieces : List Bytes) :
    let call := (engine.adapter.attempt .sign
      (engine.adapter.sign pieces.flatten info.privateKey)).run w₂
    (engine.performAll (EngineOperation.session (.initSign k) pieces .sign)).run w =
      ⟨(Exchange.session (.initSign k) pieces .sign (call.value.map .signature),
        engine.prepared (.sign info.privateKey)), call.world, m₁ ++ m₂ ++ call.marks⟩ := by
  intro call
  -- the call has the answer it has, so the last step is one that goes through to the adapter
  have ending : Step engine.adapter ⟨.sign info.privateKey, pieces.flatten⟩ w₂ .sign
      (call.value.map .signature) ⟨.sign info.privateKey, []⟩ call.world call.marks :=
    .sign_done rfl rfl
  have preparation : Step engine.adapter engine.machine w (.initSign k) (.ok .done)
      ⟨.sign info.privateKey, []⟩ w₂ (m₁ ++ m₂) :=
    .initSign_done kind asked written
  have h := run_performAll_of_run (.session EngineMode.noConfusion preparation ending) engine.name
  rw [Exchange.map_fst_session] at h
  exact h

/-- **A verifying session is one call** in the same way, with the octets of the public key. -/
theorem run_performAll_verifying {info : SubjectPublicKeyInfo} {octets : Bytes}
    (kind : k.isPrivate = false)
    (asked : (engine.adapter.askSupports k).run w = ⟨true, w₁, m₁⟩)
    (written : (engine.adapter.attempt .writePublicKey
      (engine.adapter.writePublicKey k)).run w₁ = ⟨.ok info, w₂, m₂⟩)
    (aligned : info.keyOctets = .ok octets) (pieces : List Bytes) (signature : Bytes) :
    let call := (engine.adapter.attempt .verify
      (engine.adapter.verify pieces.flatten octets signature)).run w₂
    (engine.performAll (EngineOperation.session (.initVerify k) pieces (.verify signature))).run w =
      ⟨(Exchange.session (.initVerify k) pieces (.verify signature) (call.value.map .verdict),
        engine.prepared (.verify octets)), call.world, m₁ ++ m₂ ++ call.marks⟩ := by
  intro call
  have ending : Step engine.adapter ⟨.verify octets, pieces.flatten⟩ w₂ (.verify signature)
      (call.value.map .verdict) ⟨.verify octets, []⟩ call.world call.marks :=
    .verify_done rfl rfl
  have preparation : Step engine.adapter engine.machine w (.initVerify k) (.ok .done)
      ⟨.verify octets, []⟩ w₂ (m₁ ++ m₂) :=
    .initVerify_done kind asked written aligned
  have h := run_performAll_of_run (.session EngineMode.noConfusion preparation ending) engine.name
  rw [Exchange.map_fst_session] at h
  exact h

end SignatureEngine

end SignatureCatalog
