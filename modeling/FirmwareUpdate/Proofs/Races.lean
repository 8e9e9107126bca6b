import FirmwareUpdate.Proofs.Erasures
import FirmwareUpdate.Proofs.RollbackNet

/-!
# Timers that expire before they act

The platform marks a one-shot timer as spent and calls the engine afterwards. In between the others may
have their turns, and cancelling the timer has no effect any more. A race is a boot in which these two
steps are taken apart.
-/

namespace FirmwareUpdate

variable {A : Application}

namespace World

def expire (w : World A) (id : TimerId) : World A :=
  { w with device := { w.device with timers := w.device.timers.setState id .fired } }

theorem fireOnce_of_fuse {w : World A} {id : TimerId} (h : w.device.timers.fuse id = true) :
    (w.fireOnce id).2 = (w.expire id).rollbackDue := by
  unfold fireOnce
  rw [if_pos (Timers.isArmed_of_fuse h)]
  rfl

end World

namespace Boot

def expire (b : Boot A) (id : TimerId) : Boot A := { b with world := b.world.expire id }

def ring (b : Boot A) (id : TimerId) : Boot A :=
  ⟨b.world.rollbackDue, b.tasks, .fired b.world id :: b.history⟩

theorem fire_of_fuse {b : Boot A} {id : TimerId} (h : b.world.device.timers.fuse id = true) :
    b.fire id = ⟨(b.world.expire id).rollbackDue, b.tasks, .fired b.world id :: b.history⟩ := by
  unfold fire
  rw [if_pos h, World.fireOnce_of_fuse h]

end Boot

/-- A boot, and the timers that have expired and not acted yet. -/
structure Race (A : Application) where
  boot : Boot A
  due : List TimerId

namespace Race

inductive Step (A : Application) where
  | move (m : Move A)
  | expire (id : TimerId)
  | ring

def start (A : Application) (d : Device) (version : String) : Race A := ⟨.start A d version, []⟩

/-- Takes a step. One that is impossible changes nothing. -/
def step (r : Race A) : Step A → Race A
  | .move m => { r with boot := r.boot.step m }
  | .expire id =>
    if r.boot.world.device.timers.fuse id then ⟨r.boot.expire id, r.due ++ [id]⟩ else r
  | .ring =>
    match r.due with
    | id :: due => ⟨r.boot.ring id, due⟩
    | [] => r

def run (r : Race A) (steps : List (Step A)) : Race A := steps.foldl step r

theorem run_induction {P : Boot A → Prop} {r : Race A} (h : P r.boot)
    (hmove : ∀ b m, P b → P (b.step m)) (hexpire : ∀ b id, P b → P (b.expire id))
    (hring : ∀ b id, P b → P (b.ring id)) (steps : List (Step A)) : P (r.run steps).boot := by
  have hstep (r : Race A) (h : P r.boot) (st : Step A) : P (r.step st).boot := by
    cases st with
    | move m => exact hmove _ m h
    | expire id =>
      simp only [step]
      split
      · exact hexpire _ id h
      · exact h
    | ring =>
      simp only [step]
      split
      · exact hring _ _ h
      · exact h
  induction steps generalizing r with
  | nil => exact h
  | cons st steps ih => exact ih (hstep r h st)

/-! ## What holds of a boot holds of a race -/

variable (d : Device) (version : String) (steps : List (Step A))

theorem recorded_run : ((start A d version).run steps).boot.world.Recorded d.nextBoot
    ((start A d version).run steps).boot.history := by
  have hstart : (start A d version).boot.world.Recorded d.nextBoot (start A d version).boot.history :=
    ⟨rfl, trivial⟩
  refine run_induction (P := fun b => b.world.Recorded d.nextBoot b.history) hstart ?_ ?_ ?_ steps
  · intro b m h
    exact (b.turn_step m).recorded h
  · intro b id h
    exact ⟨h.nextBoot, h.genuine⟩
  · intro b id h
    exact ⟨b.world.trialStep_rollbackDue.nextBoot.trans h.nextBoot, h.nextBoot, h.genuine⟩

theorem orderly_run :
    ((start A d version).run steps).boot.Heeding (Orderly fun _ => True) Quits := by
  have hstart : (start A d version).boot.Heeding (Orderly fun _ => True) Quits :=
    ⟨(fun _ _ h => nomatch h), (fun _ _ h => nomatch h), trivial⟩
  refine run_induction hstart ?_ ?_ ?_ steps
  · intro b m h
    exact h.step (fun c _ => heeds_call fun _ _ => trivial) Activity.heeds_confirmAttempt
  · intro b id h
    exact ⟨h.begun, h.tasks, h.history⟩
  · intro b id h
    exact h.fired _ id

end Race

end FirmwareUpdate
