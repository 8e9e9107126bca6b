import FirmwareUpdate.Proofs.Conduct
import FirmwareUpdate.Proofs.RollbackNet
import FirmwareUpdate.Proofs.TickAccounts

/-!
# Ticks

A boot whose autofetch timers tick. A timer whose period is over owes a tick, and hands it to its worker later,
without another look at whether it was cancelled. When the worker takes the tick up a round begins, as one more
task of the boot, and the worker is free again when the round is over.
-/

namespace FirmwareUpdate

open Routine

variable {A : Application}

namespace World

structure Stirred (w w' : World A) : Prop where
  device : ∃ journal, w'.device = { w.device with journal := journal }
  engine : ∃ workers deserted, w'.engine = { w.engine with workers := workers, deserted := deserted }

variable {w w' : World A}

theorem stirred_setWorker (w : World A) (id : TimerId) (worker : Worker) : w.Stirred (w.setWorker id worker) :=
  ⟨⟨_, rfl⟩, _, _, rfl⟩

theorem stirred_offerTick (w : World A) (id : TimerId) : w.Stirred (w.offerTick id).2 := by
  unfold offerTick
  split
  · exact ⟨⟨_, rfl⟩, _, _, rfl⟩
  split
  · exact w.stirred_setWorker id _
  · exact ⟨⟨_, rfl⟩, _, _, rfl⟩

theorem stirred_takeTick (w : World A) (id : TimerId) : w.Stirred (w.takeTick id).2 := w.stirred_setWorker id _

theorem stirred_loseWorker (w : World A) (id : TimerId) : w.Stirred (w.loseWorker id) := ⟨⟨_, rfl⟩, _, _, rfl⟩

theorem Stirred.timers (hs : w.Stirred w') : w'.device.timers = w.device.timers := by
  obtain ⟨⟨journal, hd⟩, -⟩ := hs
  rw [hd]

theorem Stirred.keepsNet (h : w.Stirred w') : KeepsNet w w' := by
  obtain ⟨⟨journal, hd⟩, workers, deserted, he⟩ := h
  refine .of_eq ?_ ?_ ?_ ?_ ?_
  · rw [hd]
  all_goals rw [he]

end World

/-- A boot, the rounds that have begun in it, each with its task, and the ticks; the newest first. -/
structure Ticking (A : Application) where
  boot : Boot A
  rounds : List (TimerId × Nat)
  ticks : List (TimerId × TickFate)
  /-- The timers whose period is over, and whose tick has not been handed over. -/
  owing : List TimerId

namespace Ticking

inductive Step (A : Application) where
  | move (m : Move A)
  | elapse (id : TimerId)
  | offer (id : TimerId)
  | take (id : TimerId)
  | finish (id : TimerId)

def start (A : Application) (d : Device) (version : String) : Ticking A := ⟨.start A d version, [], [], []⟩

def withWorld (r : Ticking A) (w : World A) : Ticking A := { r with boot := { r.boot with world := w } }

/-- The timer has waited for its period without being cancelled. It waits again when its tick has been handed
over. -/
def elapse (r : Ticking A) (id : TimerId) : Ticking A :=
  let timers := r.boot.world.device.timers
  if timers.kind? id = some .periodic ∧ timers.isArmed id = true ∧ id ∉ r.owing then
    { r with owing := id :: r.owing }
  else r

def offer (r : Ticking A) (id : TimerId) : Ticking A :=
  if id ∈ r.owing then
    let (fate, w) := r.boot.world.offerTick id
    { r.withWorld w with ticks := (id, fate) :: r.ticks, owing := r.owing.filter (· != id) }
  else r

def take (r : Ticking A) (id : TimerId) : Ticking A :=
  match r.boot.world.takeTick id with
  | (false, _) => r
  | (true, w) =>
    { r with
      boot := (r.withWorld w).boot.step (.call .autofetch)
      rounds := (id, r.boot.tasks.length) :: r.rounds }

/-- A worker whose round is over goes on, or is lost if the round has died. -/
def finish (r : Ticking A) (id : TimerId) : Ticking A :=
  match (r.rounds.lookup id).bind (r.boot.tasks[·]?) with
  | some (.call (.done _)) => r.withWorld (r.boot.world.finishRound id)
  | some (.call .died) => r.withWorld (r.boot.world.loseWorker id)
  | _ => r

def step (r : Ticking A) : Step A → Ticking A
  | .move m => { r with boot := r.boot.step m }
  | .elapse id => r.elapse id
  | .offer id => r.offer id
  | .take id => r.take id
  | .finish id => r.finish id

def run (r : Ticking A) (steps : List (Step A)) : Ticking A := steps.foldl step r

theorem run_append (r : Ticking A) (before after : List (Step A)) :
    r.run (before ++ after) = (r.run before).run after := List.foldl_append

theorem boot_moves (r : Ticking A) (ms : List (Move A)) : (r.run (ms.map .move)).boot = r.boot.run ms := by
  induction ms generalizing r with
  | nil => rfl
  | cons m ms ih => exact ih _

theorem run_induction {P : Ticking A → Prop} {r : Ticking A} (h : P r) (hs : ∀ r st, P r → P (r.step st))
    (steps : List (Step A)) : P (r.run steps) := by
  induction steps generalizing r with
  | nil => exact h
  | cons st steps ih => exact ih (hs r st h)

/-- What every move preserves, and every change of workers, holds of the boot. -/
theorem boot_step {P : Boot A → Prop} (hmove : ∀ b m, P b → P (b.step m))
    (hstirred : ∀ b w, b.world.Stirred w → P b → P { b with world := w }) {r : Ticking A} (h : P r.boot)
    (st : Step A) : P (r.step st).boot := by
  cases st with
  | move m => exact hmove _ m h
  | elapse id =>
    simp only [step, elapse]
    split <;> exact h
  | offer id =>
    simp only [step, offer]
    split
    · exact hstirred _ _ (r.boot.world.stirred_offerTick id) h
    · exact h
  | take id =>
    simp only [step, take]
    split
    · exact h
    · rename_i w hw
      have hstir := r.boot.world.stirred_takeTick id
      rw [hw] at hstir
      exact hmove (r.withWorld w).boot (.call .autofetch) (hstirred r.boot w hstir h)
  | finish id =>
    simp only [step, finish]
    split
    · exact hstirred _ _ (r.boot.world.stirred_setWorker id _) h
    · exact hstirred _ _ (r.boot.world.stirred_loseWorker id) h
    · exact h

/-- What every turn preserves, and every change of workers, holds of the world and its history. -/
theorem run_turns {P : World A → List (Happening A) → Prop}
    (ht : ∀ {w h w' h'}, Turn w h w' h' → P w h → P w' h')
    (hstirred : ∀ {w h w'}, w.Stirred w' → P w h → P w' h) {r : Ticking A}
    (h : P r.boot.world r.boot.history) (steps : List (Step A)) :
    P (r.run steps).boot.world (r.run steps).boot.history := by
  refine run_induction (P := fun r => P r.boot.world r.boot.history) h (fun r st h => ?_) steps
  exact boot_step (P := fun b => P b.world b.history) (fun b m h => ht (b.turn_step m) h)
    (fun b w hw h => hstirred hw h) h st

/-! ## What holds of a boot -/

variable (d : Device) (version : String) (steps : List (Step A))

theorem timed_run : ((start A d version).run steps).boot.world.Timed :=
  run_turns (P := fun w _ => w.Timed) (fun ht h => (ht.net h).1) (fun hs h => hs.keepsNet.timed h)
    (World.timed_boot d version) steps

theorem recorded_run : ((start A d version).run steps).boot.world.Recorded d.nextBoot
    ((start A d version).run steps).boot.history := by
  have hstart : (start A d version).boot.world.Recorded d.nextBoot (start A d version).boot.history :=
    ⟨rfl, trivial⟩
  refine run_turns (fun ht h => Turn.recorded ht h) ?_ hstart steps
  intro w h w' hs hr
  obtain ⟨⟨journal, hd⟩, -⟩ := hs
  refine ⟨?_, hr.genuine⟩
  rw [← hr.nextBoot, World.nextBoot, hd]
  rfl

end Ticking

end FirmwareUpdate
