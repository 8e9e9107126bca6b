/-!
# Timers

The timers of one boot, in the order in which they were set. A one-shot timer fires once or is
cancelled; a periodic one stays armed until it is cancelled.
-/

namespace FirmwareUpdate

inductive TimerKind where
  | once
  | periodic
  deriving DecidableEq, Repr

inductive TimerState where
  | armed
  | fired
  | cancelled
  deriving DecidableEq, Repr

structure Timer where
  kind : TimerKind
  span : Nat
  state : TimerState
  deriving DecidableEq, Repr

/-- A timer is known by its place in the order. -/
abbrev TimerId := Nat

abbrev Timers := List Timer

namespace Timers

def add (ts : Timers) (kind : TimerKind) (span : Nat) : TimerId × Timers :=
  (ts.length, ts ++ [⟨kind, span, .armed⟩])

def isArmed (ts : Timers) (id : TimerId) : Bool :=
  match ts[id]? with
  | some t => t.state == .armed
  | none => false

def setState (ts : Timers) (id : TimerId) (state : TimerState) : Timers :=
  ts.modify id fun t => { t with state := state }

def cancel (ts : Timers) (id : TimerId) : Bool × Timers :=
  if ts.isArmed id then (true, ts.setState id .cancelled) else (false, ts)

def newest? (ts : Timers) (kind : TimerKind) : Option TimerId :=
  ((List.range ts.length).filter fun id =>
    match ts[id]? with
    | some t => t.kind == kind
    | none => false).getLast?

end Timers

end FirmwareUpdate
