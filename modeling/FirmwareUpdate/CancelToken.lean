/-!
# Cancelling and one-shot timers

A cancel token is claimed by whoever cancels it first. A one-shot timer is a thread that waits on
its token and then claims it itself: only if the claim succeeds does its callback run, so a
cancellation and the callback exclude one another.
-/

namespace FirmwareUpdate

structure CancelToken where
  cancelled : Bool
  deriving DecidableEq, Repr

namespace CancelToken

def fresh : CancelToken := ⟨false⟩

/-- Cancels; true for the first call only. -/
def cancel (t : CancelToken) : Bool × CancelToken := (!t.cancelled, ⟨true⟩)

end CancelToken

inductive ShotPhase where
  | waiting
  | claiming
  | firing
  | ended
  deriving DecidableEq, Repr

structure Shot where
  token : CancelToken
  phase : ShotPhase
  /-- How often the callback has run. -/
  hits : Nat
  deriving DecidableEq, Repr

namespace Shot

def scheduled : Shot := ⟨.fresh, .waiting, 0⟩

/-- The wait ends, because the time is over or because the token was cancelled. -/
def wake (s : Shot) : Shot :=
  match s.phase with
  | .waiting => { s with phase := if s.token.cancelled then .ended else .claiming }
  | _ => s

def claim (s : Shot) : Bool × Shot :=
  match s.phase with
  | .claiming =>
    let (first, token) := s.token.cancel
    (first, { s with token := token, phase := if first then .firing else .ended })
  | _ => (false, s)

def fire (s : Shot) : Shot :=
  match s.phase with
  | .firing => { s with phase := .ended, hits := s.hits + 1 }
  | _ => s

def cancel (s : Shot) : Bool × Shot :=
  let (first, token) := s.token.cancel
  (first, { s with token := token })

end Shot

end FirmwareUpdate
