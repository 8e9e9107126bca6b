/-!
# Routines

A routine is a finite run of indivisible requests, each followed by what is done with its reply. It
is a value, so one can stop between two requests, look at the state there, or let others go on. A
routine ends with a result or dies without one.
-/

namespace FirmwareUpdate

/-- A routine over requests `E` whose replies have the types `R`. -/
inductive Routine {E : Type} (R : E → Type) (α : Type) : Type where
  | done (a : α)
  | died
  | step (e : E) (next : R e → Routine R α)

namespace Routine

variable {E : Type} {R : E → Type} {α β γ : Type}

def request (e : E) : Routine R (R e) := .step e .done

def bind : Routine R α → (α → Routine R β) → Routine R β
  | .done a, f => f a
  | .died, _ => .died
  | .step e next, f => .step e fun r => (next r).bind f

instance : Monad (Routine R) where
  pure := .done
  bind := bind

@[simp] theorem pure_eq (a : α) : (pure a : Routine R α) = .done a := rfl

@[simp] theorem done_bind (a : α) (f : α → Routine R β) : (Routine.done a >>= f) = f a := rfl

@[simp] theorem died_bind (f : α → Routine R β) : ((.died : Routine R α) >>= f) = .died := rfl

@[simp] theorem step_bind (e : E) (next : R e → Routine R α) (f : α → Routine R β) :
    (Routine.step e next >>= f) = .step e fun r => next r >>= f := rfl

@[simp] theorem request_bind (e : E) (f : R e → Routine R β) :
    (request e >>= f) = .step e f := rfl

theorem bind_pure' (p : Routine R α) : p.bind .done = p := by
  induction p with
  | done a => rfl
  | died => rfl
  | step e next ih => exact congrArg (Routine.step e) (funext ih)

theorem bind_assoc' (p : Routine R α) (f : α → Routine R β) (g : β → Routine R γ) :
    (p.bind f).bind g = p.bind fun a => (f a).bind g := by
  induction p with
  | done a => rfl
  | died => rfl
  | step e next ih => exact congrArg (Routine.step e) (funext ih)

instance : LawfulMonad (Routine R) :=
  LawfulMonad.mk' (Routine R) (fun p => bind_pure' p) (fun _ _ => rfl) bind_assoc'

def attempt : Routine R α → Routine R (Option α)
  | .done a => .done (some a)
  | .died => .done none
  | .step e next => .step e fun r => (next r).attempt

def orElse (p : Routine R α) (ifDied : α) : Routine R α := do
  return (← p.attempt).getD ifDied

def ensuring (p : Routine R α) (after : Routine R Unit) : Routine R α := do
  match ← p.attempt with
  | some a =>
    after
    return a
  | none =>
    after
    .died

/-- The routine over a larger set of requests. -/
def embed {F : Type} {S : F → Type} (f : E → F) (reply : (e : E) → S (f e) → R e) :
    Routine R α → Routine S α
  | .done a => .done a
  | .died => .died
  | .step e next => .step (f e) fun s => (next (reply e s)).embed f reply

def run {σ : Type} (answer : (e : E) → σ → R e × σ) : Routine R α → σ → Option α × σ
  | .done a, s => (some a, s)
  | .died, s => (none, s)
  | .step e next, s => (next (answer e s).1).run answer (answer e s).2

/-- The states between the requests of a run, the first and the last included. -/
def states {σ : Type} (answer : (e : E) → σ → R e × σ) : Routine R α → σ → List σ
  | .done _, s => [s]
  | .died, s => [s]
  | .step e next, s => s :: (next (answer e s).1).states answer (answer e s).2

end Routine

end FirmwareUpdate
