/-!
# Autofetch worker

Timer ticks reach the worker through a buffer for one tick. The worker takes a tick, fetches, and
takes the next; a tick that finds the buffer full is dropped.
-/

namespace FirmwareUpdate

/-- What becomes of a tick. -/
inductive TickFate where
  | unarmed
  | dropped
  | accepted
  | unheard
  deriving DecidableEq, Repr

structure Worker where
  busy : Bool
  buffered : Bool
  deriving DecidableEq, Repr

namespace Worker

def idle : Worker := ⟨false, false⟩

def offer (w : Worker) : Bool × Worker :=
  if w.buffered then (false, w) else (true, { w with buffered := true })

/-- The worker takes the waiting tick if it can; tells whether a fetch starts. -/
def take (w : Worker) : Bool × Worker :=
  if w.buffered && !w.busy then (true, ⟨true, false⟩) else (false, w)

def finish (w : Worker) : Worker := { w with busy := false }

end Worker

end FirmwareUpdate
