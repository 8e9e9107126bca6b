import FirmwareUpdate.Proofs.Verdicts

/-!
# The id of an applied job

A fetch that has applied a job has put the job's id on record. On the first boot of a new image the
confirmation of that image may be under way, which erases whatever is on record when it concludes. So
the id stays exactly as long as no confirmation concludes.
-/

namespace FirmwareUpdate

open Routine

variable {A : Application}

namespace Boot

/-- Until another id is saved, the id of a job that a fetch has applied is on record exactly if it has
not been erased since it was saved. The tasks that erase it are those that conclude the trial. -/
theorem applied_on_record_iff {d : Device} (hd : d.slots.running = .pendingVerify) (version : String)
    (ms : List (Move A)) {task : Nat} {t : List (Deed A)} {id : String}
    (hran : Ran Activity.fetch t (some (.ok (.applied id))))
    (ht : t <:+: (deedsBy task ((start A d version).run ms).history).reverse) :
    ∃ later s earlier, ((start A d version).run ms).history =
        later ++ .did task ⟨s, .saveJobId id, .ok ()⟩ :: earlier ∧
      ⟨s, .saveJobId id, .ok ()⟩ ∈ t ∧
      ((∀ x ∈ later, x.saved? = none) →
        (((start A d version).run ms).world.nextBoot.jobId = some (Bytes.ofText id) ↔
          ∀ x ∈ later, x.erases = false)) ∧
      ∀ after i s' r before, later = after ++ .did i ⟨s', .eraseJobId, r⟩ :: before →
        Concluding (deedsBy i (before ++ .did task ⟨s, .saveJobId id, .ok ()⟩ :: earlier)) := by
  have hsaved : Activity.AppliedSaved (some (.ok (.applied id))) (t.reverse ++ []) :=
    hran.ends Activity.heeds_fetch
  obtain ⟨s, hs⟩ := hsaved id rfl
  have hs : ⟨s, .saveJobId id, .ok ()⟩ ∈ t := by simpa using hs
  have hdid : .did task ⟨s, .saveJobId id, .ok ()⟩ ∈ ((start A d version).run ms).history :=
    mem_deedsBy.mp (List.mem_reverse.mp (ht.subset hs))
  obtain ⟨later, earlier, h⟩ := List.append_of_mem hdid
  refine ⟨later, s, earlier, h, hs, fun hsaved => ?_, ?_⟩
  · rw [(genuine_run d version ms).1, h, jobId_since_append hsaved]
    exact and_iff_right rfl
  · -- on a boot that began on trial nobody else erases
    rintro after i s' r before rfl
    rw [List.append_assoc] at h
    exact concluding_of_erased (by simp [hd]) version ms h

/-! ## A fetch while a report is on its way -/

/-- The report of success for job A is answered; before the engine goes on a fetch is called for. -/
def reporting : List (Move Agent.application) :=
  enabling ++ [.disturb ⟨[.answer offeredJob], [], [("u", .plain [1, 2, 3, 4])], .none, false, false, false⟩,
    .attempt] ++ List.replicate 2 (.go 1 obliging)

/-- The fetch applies job B, and then the confirmation of A concludes. -/
def applyingMeanwhile : List (Move Agent.application) :=
  reporting ++ .call .fetch :: List.replicate 40 (.go 2 obliging) ++ List.replicate 8 (.go 1 obliging)

def reportAnswered : World Agent.application :=
  ((start Agent.application trialDevice "1.0.0").run reporting).world

def applies (id : String) : Option (Except UpdateError FetchOutcome) → Bool
  | some (.ok (.applied id')) => id' == id
  | _ => false

theorem eq_of_applies {id : String} {o : Option (Except UpdateError FetchOutcome)} (h : applies id o = true) :
    o = some (.ok (.applied id)) := by
  unfold applies at h
  split at h
  · rw [eq_of_beq h]
  · cases h

theorem ran_applyingMeanwhile : ∃ t, Ran Activity.fetch t (some (.ok (.applied "B"))) ∧
    t <:+: (deedsBy 2
      ((start Agent.application trialDevice "1.0.0").run applyingMeanwhile).history).reverse := by
  have happlied : applies "B" (Routine.run (undergoing obliging) Activity.fetch reportAnswered).1 = true := by
    decide +kernel
  have hran := ran_trace (undergoing obliging) Activity.fetch reportAnswered
  rw [eq_of_applies happlied] at hran
  refine ⟨_, hran, ?_⟩
  have htasks : ((start Agent.application trialDevice "1.0.0").run reporting).tasks.length = 2 := by
    decide +kernel
  have hturns : (Activity.fetch.trace (undergoing obliging) reportAnswered).length ≤ 40 := by decide +kernel
  have hinfix := infix_fetch ((start Agent.application trialDevice "1.0.0").run reporting) obliging hturns
    (List.replicate 8 (.go 1 obliging))
  rwa [htasks, ← run_append] at hinfix

theorem applied_on_record_iff_applyingMeanwhile : trialDevice.slots.running = .pendingVerify ∧
    ∃ t : List (Deed Agent.application), Ran Activity.fetch t (some (.ok (.applied "B"))) ∧
      t <:+: (deedsBy 2
        ((start Agent.application trialDevice "1.0.0").run applyingMeanwhile).history).reverse ∧
      ∃ later s earlier, ((start Agent.application trialDevice "1.0.0").run applyingMeanwhile).history =
          later ++ .did 2 ⟨s, .saveJobId "B", .ok ()⟩ :: earlier ∧
        ⟨s, .saveJobId "B", .ok ()⟩ ∈ t ∧
        ((∀ x ∈ later, x.saved? = none) →
          (((start Agent.application trialDevice "1.0.0").run applyingMeanwhile).world.nextBoot.jobId =
              some (Bytes.ofText "B") ↔ ∀ x ∈ later, x.erases = false)) ∧
        ∀ after i s' r before, later = after ++ .did i ⟨s', .eraseJobId, r⟩ :: before →
          Concluding (deedsBy i (before ++ .did 2 ⟨s, .saveJobId "B", .ok ()⟩ :: earlier)) := by
  obtain ⟨t, hran, ht⟩ := ran_applyingMeanwhile
  have hd : trialDevice.slots.running = .pendingVerify := rfl
  exact ⟨hd, t, hran, ht, applied_on_record_iff hd "1.0.0" applyingMeanwhile hran ht⟩

/-- The confirmation of job A's image erases the id of job B, which was applied meanwhile. -/
theorem applied_then_erased : trialDevice.slots.running = .pendingVerify ∧
    (∃ t : List (Deed Agent.application), Ran Activity.fetch t (some (.ok (.applied "B"))) ∧
      t <:+: (deedsBy 2
        ((start Agent.application trialDevice "1.0.0").run applyingMeanwhile).history).reverse) ∧
    (((start Agent.application trialDevice "1.0.0").run applyingMeanwhile).history.filterMap
      Happening.saved?) = ["B"] ∧
    ((start Agent.application trialDevice "1.0.0").run applyingMeanwhile).world.nextBoot.staged =
      some [1, 2, 3, 4] ∧
    ((start Agent.application trialDevice "1.0.0").run applyingMeanwhile).world.nextBoot.jobId = none :=
  ⟨rfl, ran_applyingMeanwhile, by decide +kernel⟩

end Boot

end FirmwareUpdate
