/-!
# Acts

Adapters and hosts are outside the catalog. They may keep a state of their own and answer
differently each time they are asked, so asking them is an act on an outside world `ω`. An act also
leaves marks of some type `μ`, in order: the log entries written and, on the catalog's side, the
calls made.

An act is a function of the world it meets. It yields a value, the world as it leaves it, and its
marks; acts in sequence thread the world and concatenate the marks. `Act.run_pure`, `Act.run_bind`,
`Act.run_mark` and `Act.run_relabel` are all that proofs use.
-/

namespace SignatureCatalog

/-- What an act comes to. -/
structure Outcome (μ ω α : Type) where
  value : α
  world : ω
  marks : List μ

/-- An act on a world `ω` that leaves marks `μ` and yields `α`. -/
def Act (μ ω α : Type) : Type := ω → Outcome μ ω α

namespace Act

variable {μ ν ω α β : Type}

/-- Carries an act out in a given world. -/
def run (act : Act μ ω α) (world : ω) : Outcome μ ω α := act world

instance : Monad (Act μ ω) where
  pure a := fun world => ⟨a, world, []⟩
  bind act next := fun world =>
    let first := act world
    let second := next first.value first.world
    ⟨second.value, second.world, first.marks ++ second.marks⟩

/-- Leaves one mark. -/
def mark (m : μ) : Act μ ω Unit := fun world => ⟨(), world, [m]⟩

/-- Leaves one mark for each member of a list. -/
def markAll (ms : List μ) : Act μ ω Unit := fun world => ⟨(), world, ms⟩

/-- An act that changes the world and leaves no mark. -/
def ofStep (step : ω → α × ω) : Act μ ω α := fun world =>
  let (a, world') := step world
  ⟨a, world', []⟩

/-- The same act, with its marks told in other words. -/
def relabel (f : μ → ν) (act : Act μ ω α) : Act ν ω α := fun world =>
  let outcome := act world
  ⟨outcome.value, outcome.world, outcome.marks.map f⟩

/-- The same act, carried out in a part of a larger world. -/
def focus {σ : Type} (part : σ → ω) (replace : ω → σ → σ) (act : Act μ ω α) : Act μ σ α :=
  fun world =>
    let outcome := act (part world)
    ⟨outcome.value, replace outcome.world world, outcome.marks⟩

/-- The same act, leaving only some of its marks. -/
def leaving (keep : μ → Bool) (act : Act μ ω α) : Act μ ω α := fun world =>
  let outcome := act world
  { outcome with marks := outcome.marks.filter keep }

/-- Goes on with what an act yields, unless it fails. -/
def andThen {ε : Type} (act : Act μ ω (Except ε α)) (next : α → Act μ ω (Except ε β)) :
    Act μ ω (Except ε β) := do
  match ← act with
  | .ok a => next a
  | .error e => return .error e

@[ext] theorem ext {act act' : Act μ ω α} (h : ∀ world, act.run world = act'.run world) :
    act = act' :=
  funext h

@[simp] theorem run_pure (a : α) (world : ω) :
    (pure a : Act μ ω α).run world = ⟨a, world, []⟩ := rfl

@[simp] theorem run_bind (act : Act μ ω α) (next : α → Act μ ω β) (world : ω) :
    (act >>= next).run world =
      let first := act.run world
      let second := (next first.value).run first.world
      ⟨second.value, second.world, first.marks ++ second.marks⟩ := rfl

@[simp] theorem run_map (f : α → β) (act : Act μ ω α) (world : ω) :
    (f <$> act).run world =
      ⟨f (act.run world).value, (act.run world).world, (act.run world).marks⟩ := by
  show Outcome.mk (f (act world).value) (act world).world ((act world).marks ++ []) = _
  rw [List.append_nil]; rfl

@[simp] theorem run_mark (m : μ) (world : ω) : (mark m).run world = ⟨(), world, [m]⟩ := rfl

@[simp] theorem run_markAll (ms : List μ) (world : ω) :
    (markAll ms).run world = ⟨(), world, ms⟩ := rfl

@[simp] theorem run_ofStep (step : ω → α × ω) (world : ω) :
    (ofStep step : Act μ ω α).run world = ⟨(step world).1, (step world).2, []⟩ := rfl

@[simp] theorem run_relabel (f : μ → ν) (act : Act μ ω α) (world : ω) :
    (act.relabel f).run world =
      ⟨(act.run world).value, (act.run world).world, (act.run world).marks.map f⟩ := rfl

/-- After a success the next act meets the world as the first one left it. -/
theorem run_andThen_of_ok {ε : Type} {act : Act μ ω (Except ε α)}
    {next : α → Act μ ω (Except ε β)} {world : ω} {a : α} (h : (act.run world).value = .ok a) :
    (act.andThen next).run world =
      ⟨((next a).run (act.run world).world).value, ((next a).run (act.run world).world).world,
        (act.run world).marks ++ ((next a).run (act.run world).world).marks⟩ := by
  simp [andThen, h]

/-- After a failure nothing more happens. -/
theorem run_andThen_of_error {ε : Type} {act : Act μ ω (Except ε α)}
    {next : α → Act μ ω (Except ε β)} {world : ω} {e : ε} (h : (act.run world).value = .error e) :
    (act.andThen next).run world =
      ⟨.error e, (act.run world).world, (act.run world).marks⟩ := by
  simp [andThen, h]

/-- Doing nothing before or after an act changes nothing, and a sequence of acts may be grouped at
will. -/
instance : LawfulMonad (Act μ ω) :=
  LawfulMonad.mk' (Act μ ω)
    (fun act => ext fun world => by
      show Outcome.mk (act world).value (act world).world ((act world).marks ++ []) = act world
      rw [List.append_nil])
    (fun _ _ => ext fun _ => by simp)
    (fun _ _ _ => ext fun _ => by simp)

end Act

end SignatureCatalog
