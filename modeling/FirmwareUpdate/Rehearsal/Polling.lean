import FirmwareUpdate.Device
import FirmwareUpdate.Worker

/-!
# Polling by itself

The autofetch worker and its timer without an engine. The fetch only counts; it can be blocked, and
then goes on when it is let go.
-/

namespace FirmwareUpdate.Rehearsal

inductive PollState where
  | running
  | stopped
  | dropped
  deriving DecidableEq, Repr

structure Polling where
  period : Nat
  state : PollState
  /-- The period is over, and its tick is still to be handed to the worker. -/
  due : Bool
  worker : Worker
  blocking : Bool
  fetches : Nat
  journal : List Event

inductive Polled where
  | unarmed
  | dropped
  | buffered
  | blocked
  | done
  deriving DecidableEq, Repr

namespace Polling

def note (p : Polling) (e : Event) : Polling := { p with journal := p.journal ++ [e] }

def start? (faults : Faults) (period : Nat) : Except UpdateError Polling :=
  let d : Device := { Device.fresh .valid with faults := faults }
  match d.startWorker with
  | .error c => .error (.timer c)
  | .ok () =>
    match (d.setTimer .periodic period).1 with
    | .error c => .error (.timer c)
    | .ok _ => .ok ⟨period, .running, false, .idle, false, 0, [.autofetchStarted (period / 1000)]⟩

/-- The timer has waited for its period without being cancelled. It waits again when its tick has been
handed over. -/
def elapse (p : Polling) : Bool × Polling :=
  if p.state = .running ∧ p.due = false then (true, { p with due := true }) else (false, p)

/-- The timer hands the tick that is due to the worker. Whether it was cancelled meanwhile is not asked. -/
def arrive (p : Polling) : TickFate × Polling :=
  if p.due = false then (.unarmed, p)
  else
    let p := { p with due := false }
    match p.worker.offer with
    | (false, _) => (.dropped, p.note .autofetchSkipped)
    | (true, worker) => (.accepted, { p with worker := worker })

/-- The worker takes the waiting tick, if it can; tells whether a fetch starts. -/
def takeTick (p : Polling) : Bool × Polling :=
  match p.worker.take with
  | (false, _) => (false, p)
  | (true, worker) => (true, { p with worker := worker, fetches := p.fetches + 1 }.note .autofetchChecking)

def finish (p : Polling) : Polling := { p with worker := p.worker.finish }

/-- The worker takes the waiting tick, if it can, and fetches. -/
def fetch (p : Polling) : Polling :=
  match p.takeTick with
  | (false, p) => p
  | (true, p) => if p.blocking then p else p.finish

/-- A tick that is handed over as soon as it is due. -/
def tick (p : Polling) : Polled × Polling :=
  match p.elapse.2.arrive with
  | (.unarmed, q) | (.unheard, q) => (.unarmed, q)
  | (.dropped, q) => (.dropped, q)
  | (.accepted, q) =>
    let q := q.fetch
    (if p.worker.busy then .buffered else if q.worker.busy then .blocked else .done, q)

def block (p : Polling) : Polling := { p with blocking := true }

def unblock (p : Polling) : Polling := { p with blocking := false }.finish.fetch

def stop (p : Polling) : Polling :=
  if p.state = .running then { p with state := .stopped }.note .autofetchStopped else p

def drop (p : Polling) : Bool × Polling :=
  (p.state ≠ .dropped, { p.stop with state := .dropped })

end Polling

end FirmwareUpdate.Rehearsal
