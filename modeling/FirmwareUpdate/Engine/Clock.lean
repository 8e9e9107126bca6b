import FirmwareUpdate.Engine.Booting

/-!
# A trial against the clock

The confirmation task makes its attempts at once and then every so many milliseconds. The rollback
timer was set when the trial began; when its time comes before an attempt is acknowledged, the image
is rolled back.
-/

namespace FirmwareUpdate.World

variable {A : Application}

def rollbackNow (w : World A) : World A :=
  match w.engine.validation.rollbackTimer with
  | some id => (w.fireOnce id).2
  | none => w

/-- Attempts to confirm, at most `most` of them, until one ends the task or the rollback timer's time
comes. So far `made` attempts have failed, and the next one is due as many intervals after the
first. -/
def confirmUntil (b : Behaviour A) (interval deadline : Nat) :
    (most : Nat) → (made : Nat) → World A → World A
  | 0, _, w => w.rollbackNow
  | most + 1, made, w =>
    if w.engine.validation.rollbackTimer.isSome ∧ deadline ≤ made * interval then w.rollbackNow
    else
      match Activity.run b (Activity.confirmAttempt (made + 1) interval) w with
      | (some .retry, w) => confirmUntil b interval deadline most (made + 1) (w.attempted .resting)
      | (none, w) => (w.attempted .broken).joinConfirmation.2
      | (some _, w) => w.attempted .ended

/-- Waits for the confirmation task, with the rollback timer's time at `deadline`. An attempt uses
up one of the answers that wait on the network, and the last one is acknowledged. -/
def awaitConfirmation (b : Behaviour A) (deadline : Nat) (w : World A) : World A :=
  match w.engine.validation.confirmation with
  | some c =>
    if c.phase = .poised then
      confirmUntil b c.interval deadline (w.device.network.postReplies.length + 1) 0 w
    else w
  | none => w

end FirmwareUpdate.World
