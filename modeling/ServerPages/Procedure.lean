/-!
# Procedures

A procedure changes a state and may fail; what it changed before it failed stays
changed. Procedures on a part of a state are procedures on the whole.

Application code has a second way to stop: it may break down. A failure is told to
whoever asked for the page, a breakdown is nothing that a page can answer.
-/

namespace ServerPages

/-- Computations on a state that may fail with an error. -/
abbrev Procedure (σ ε : Type) : Type → Type := ExceptT ε (StateM σ)

namespace Procedure

variable {σ τ ε δ α : Type}

def runFrom (procedure : Procedure σ ε α) (state : σ) : Except ε α × σ :=
  (ExceptT.run procedure).run state

def ofRun (run : σ → Except ε α × σ) : Procedure σ ε α :=
  ExceptT.mk fun state => run state

def step (change : σ → Except ε σ) : Procedure σ ε Unit :=
  ofRun fun state =>
    match change state with
    | .ok next => (.ok (), next)
    | .error error => (.error error, state)

def mapError (f : ε → δ) (procedure : Procedure σ ε α) : Procedure σ δ α :=
  ofRun fun state =>
    let (result, next) := procedure.runFrom state
    (result.mapError f, next)

def within (part : τ → σ) (withPart : σ → τ → τ) (procedure : Procedure σ ε α) :
    Procedure τ ε α :=
  ofRun fun state =>
    let (result, next) := procedure.runFrom (part state)
    (result, withPart next state)

@[simp] theorem runFrom_ofRun (run : σ → Except ε α × σ) (state : σ) :
    (ofRun run).runFrom state = run state := rfl

@[simp] theorem runFrom_pure (value : α) (state : σ) :
    (pure value : Procedure σ ε α).runFrom state = (.ok value, state) := rfl

theorem runFrom_bind {β : Type} (first : Procedure σ ε α) (next : α → Procedure σ ε β)
    (state : σ) :
    (first >>= next).runFrom state =
      match first.runFrom state with
      | (.ok value, state) => (next value).runFrom state
      | (.error error, state) => (.error error, state) := by
  simp only [runFrom, ExceptT.run_bind, StateT.run_bind]
  rcases h : (ExceptT.run first).run state with ⟨result, next⟩
  cases result <;> rfl

end Procedure

inductive Breakdown
  | brokeDown
  deriving DecidableEq, Repr

inductive Halt (ε : Type)
  | failed (error : ε)
  | brokeDown
  deriving DecidableEq, Repr

namespace Halt

def map {ε δ : Type} (f : ε → δ) : Halt ε → Halt δ
  | .failed error => .failed (f error)
  | .brokeDown => .brokeDown

end Halt

end ServerPages
