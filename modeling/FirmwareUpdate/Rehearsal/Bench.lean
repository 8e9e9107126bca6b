import FirmwareUpdate.CancelToken

/-!
# The timer bench

A cancel token, the handle of a timer, and a counter of the shots that went off.
-/

namespace FirmwareUpdate.Rehearsal

structure Bench where
  token : CancelToken
  handle : Option CancelToken
  hits : Nat
  deriving DecidableEq, Repr

namespace Bench

def empty : Bench := ⟨.fresh, none, 0⟩

def cancel (b : Bench) : Bool × Bench :=
  let (first, token) := b.token.cancel
  (first, { b with token := token })

def wait (b : Bench) : Bool := b.token.cancelled

def waitAndCancel (b : Bench) : (Bool × Bool) × Bench :=
  let (first, b) := b.cancel
  ((first, b.wait), b)

/-- Sets a one-shot timer, lets it run out, and keeps its handle. -/
def shoot (b : Bench) : Bench :=
  let shot := Shot.scheduled.wake.claim.2.fire
  { b with handle := some shot.token, hits := b.hits + shot.hits }

def arm (b : Bench) : Bench := { b with handle := some .fresh }

def cancelTwice : Bool × Bool :=
  let (first, token) := CancelToken.fresh.cancel
  (first, token.cancel.1)

def cancelHandle (b : Bench) : Option Bool × Bench :=
  match b.handle with
  | none => (none, b)
  | some token =>
    let (first, token) := token.cancel
    (some first, { b with handle := some token })

def dropHandle (b : Bench) : Bool × Bench := (b.handle.isSome, { b with handle := none })

end Bench

end FirmwareUpdate.Rehearsal
