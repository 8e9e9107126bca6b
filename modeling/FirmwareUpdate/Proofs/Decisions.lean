import FirmwareUpdate.Engine.Trial

/-!
# Decisions on the running image

Marking the image valid, marking it invalid, the rollback timer and an acknowledged report each give
up or use up the rollback timer, call the bootloader, and write the verdict down. What each of them
leaves of the world is told here part by part.
-/

namespace FirmwareUpdate

namespace Device

/-! ## The bootloader's part -/

section
variable (d : Device) (e : Event)

@[simp] theorem store_note : (d.note e).store = d.store := rfl
@[simp] theorem slots_note : (d.note e).slots = d.slots := rfl
@[simp] theorem network_note : (d.note e).network = d.network := rfl
@[simp] theorem timers_note : (d.note e).timers = d.timers := rfl
@[simp] theorem faults_note : (d.note e).faults = d.faults := rfl

theorem markValid_snd : d.markValid.2 = { d with slots := d.markValid.2.slots } := by
  unfold markValid; split <;> rfl

theorem rollback_snd : d.rollback.2 = { d with slots := d.rollback.2.slots } := by
  unfold rollback; split <;> rfl

theorem staged_markValid : d.markValid.2.slots.staged = d.slots.staged ∧
    d.markValid.2.slots.failWrites = d.slots.failWrites := by
  unfold markValid
  split
  · exact ⟨rfl, rfl⟩
  · dsimp only [Slots.markValid]; split <;> exact ⟨rfl, rfl⟩

theorem staged_rollback : d.rollback.2.slots.staged = d.slots.staged ∧
    d.rollback.2.slots.failWrites = d.slots.failWrites := by
  unfold rollback; split <;> exact ⟨rfl, rfl⟩

end

theorem markValid_congr {d d' : Device} (hs : d'.slots = d.slots) (hf : d'.faults = d.faults) :
    d'.markValid.1 = d.markValid.1 ∧ d'.markValid.2.slots = d.markValid.2.slots := by
  unfold markValid
  rw [hs, hf]
  split <;> exact ⟨rfl, by simp [hs]⟩

theorem rollback_congr {d d' : Device} (hs : d'.slots = d.slots) (hf : d'.faults = d.faults) :
    d'.rollback.1 = d.rollback.1 ∧ d'.rollback.2.slots = d.rollback.2.slots := by
  unfold rollback
  rw [hs, hf]
  split <;> exact ⟨rfl, by simp [hs]⟩

end Device

namespace World

variable {A : Application}

/-! ## Steps of the trial -/

/-- Between the worlds the device has changed within the engine's own reach: the running slot and
the calls to the bootloader, the timers, and the journal. -/
structure Inward (w w' : World A) : Prop where
  store : w'.device.store = w.device.store
  network : w'.device.network = w.device.network
  faults : w'.device.faults = w.device.faults
  staged : w'.device.slots.staged = w.device.slots.staged
  failWrites : w'.device.slots.failWrites = w.device.slots.failWrites

theorem Inward.refl (w : World A) : Inward w w := ⟨rfl, rfl, rfl, rfl, rfl⟩

theorem Inward.trans {w w₁ w₂ : World A} (h : Inward w w₁) (h' : Inward w₁ w₂) : Inward w w₂ where
  store := h'.store.trans h.store
  network := h'.network.trans h.network
  faults := h'.faults.trans h.faults
  staged := h'.staged.trans h.staged
  failWrites := h'.failWrites.trans h.failWrites

structure TrialStep (w w' : World A) : Prop extends Inward w w' where
  engine : { w'.engine with validation := w.engine.validation } = w.engine

namespace TrialStep

variable {w w₁ w₂ : World A}

theorem refl (w : World A) : TrialStep w w := ⟨⟨rfl, rfl, rfl, rfl, rfl⟩, rfl⟩

theorem trans (h : TrialStep w w₁) (h' : TrialStep w₁ w₂) : TrialStep w w₂ where
  toInward := h.toInward.trans h'.toInward
  engine := by rw [← h.engine, ← h'.engine]

theorem note (w : World A) (e : Event) : TrialStep w (w.note e) := ⟨⟨rfl, rfl, rfl, rfl, rfl⟩, rfl⟩

theorem withValidation (w : World A) (v : Validation) : TrialStep w (w.withValidation v) :=
  ⟨⟨rfl, rfl, rfl, rfl, rfl⟩, rfl⟩

theorem markedValid (w : World A) : TrialStep w { w with device := w.device.markValid.2 } := by
  rw [w.device.markValid_snd]
  exact ⟨⟨rfl, rfl, rfl, w.device.staged_markValid.1, w.device.staged_markValid.2⟩, rfl⟩

theorem rolledBack (w : World A) : TrialStep w { w with device := w.device.rollback.2 } := by
  rw [w.device.rollback_snd]
  exact ⟨⟨rfl, rfl, rfl, w.device.staged_rollback.1, w.device.staged_rollback.2⟩, rfl⟩

theorem cancelTimer (w : World A) (id : TimerId) :
    TrialStep w { w with device := (w.device.cancelTimer id).2 } := ⟨⟨rfl, rfl, rfl, rfl, rfl⟩, rfl⟩

theorem setTimer (w : World A) (kind : TimerKind) (span : Nat) :
    TrialStep w { w with device := (w.device.setTimer kind span).2 } := by
  unfold Device.setTimer
  split <;> exact ⟨⟨rfl, rfl, rfl, rfl, rfl⟩, rfl⟩

theorem moveValidation (w : World A) (state : ValidationState) : TrialStep w (w.moveValidation state) :=
  (note w _).trans (withValidation _ _)

theorem cancelRollbackTimer (w : World A) : TrialStep w w.cancelRollbackTimer := by
  unfold World.cancelRollbackTimer
  split
  · exact refl w
  · dsimp only
    split
    · exact (cancelTimer w _).trans ((withValidation _ _).trans (note _ _))
    · exact (cancelTimer w _).trans (withValidation _ _)

end TrialStep

/-! ## Giving up the rollback timer -/

section
variable (w : World A)

@[simp] theorem validation_cancelRollbackTimer : w.cancelRollbackTimer.engine.validation =
    { w.engine.validation with rollbackTimer := none } := by
  unfold cancelRollbackTimer
  split
  · rename_i h; rw [← h]
  · dsimp only; split <;> rfl

@[simp] theorem slots_cancelRollbackTimer : w.cancelRollbackTimer.device.slots = w.device.slots := by
  unfold cancelRollbackTimer
  split
  · rfl
  · dsimp only; split <;> rfl

def timersGivenUp : Timers :=
  match w.engine.validation.rollbackTimer with
  | none => w.device.timers
  | some id => (w.device.timers.cancel id).2

theorem timers_cancelRollbackTimer : w.cancelRollbackTimer.device.timers = w.timersGivenUp := by
  unfold cancelRollbackTimer timersGivenUp
  cases w.engine.validation.rollbackTimer with
  | none => rfl
  | some id => dsimp only; split <;> rfl

end

/-! ## Marking the image valid -/

section
variable (w : World A)

theorem trialStep_markValid : TrialStep w w.markValid.2 := by
  have h := (TrialStep.cancelRollbackTimer w).trans (.markedValid _)
  unfold markValid
  dsimp only
  split
  · rename_i he; rw [he] at h; exact h
  · rename_i he; rw [he] at h; exact h.trans ((TrialStep.withValidation _ _).trans (.note _ _))

theorem call_markValid : w.cancelRollbackTimer.device.markValid.1 = w.device.markValid.1 ∧
    w.cancelRollbackTimer.device.markValid.2.slots = w.device.markValid.2.slots :=
  Device.markValid_congr w.slots_cancelRollbackTimer (TrialStep.cancelRollbackTimer w).faults

theorem fst_markValid : w.markValid.1 = w.device.markValid.1.mapError .partition := by
  rw [← w.call_markValid.1]
  unfold markValid
  dsimp only
  split <;> rename_i he <;> rw [he] <;> rfl

theorem slots_markValid : w.markValid.2.device.slots = w.device.markValid.2.slots := by
  rw [← w.call_markValid.2]
  unfold markValid
  dsimp only
  split
  · rename_i he; rw [he]
  · rename_i he; rw [he]; rfl

theorem timers_markValid : w.markValid.2.device.timers = w.timersGivenUp := by
  have h : w.cancelRollbackTimer.device.markValid.2.timers = w.timersGivenUp := by
    rw [Device.markValid_snd, timers_cancelRollbackTimer]
  rw [← h]
  unfold markValid
  dsimp only
  split
  · rename_i he; rw [he]
  · rename_i he; rw [he]; rfl

theorem validation_markValid : w.markValid.2.engine.validation =
    match w.device.markValid.1 with
    | .error _ => { w.engine.validation with rollbackTimer := none }
    | .ok () => { w.engine.validation with
        rollbackTimer := none, valid := true
        state := if w.engine.validation.state = .notOtaBoot then .notOtaBoot else .valid } := by
  rw [← w.call_markValid.1]
  unfold markValid
  dsimp only
  split <;> rename_i he <;> rw [he] <;> simp [World.note, World.withValidation]

end

/-! ## Marking the image invalid -/

section
variable (w : World A)

def condemned : World A :=
  let w := w.withValidation { w.engine.validation with confirmCancelled := true }
  let w := w.cancelRollbackTimer
  let w := w.withValidation { w.engine.validation with valid := false, state := .invalid }
  w.note .markedInvalid

theorem markInvalid_eq : w.markInvalid = (w.condemned.device.rollback.1.mapError .partition,
    { w.condemned with device := w.condemned.device.rollback.2 }) := by
  unfold markInvalid condemned
  dsimp only
  split <;> rename_i he <;> rw [he] <;> rfl

theorem trialStep_condemned : TrialStep w w.condemned := by
  unfold condemned
  exact (TrialStep.withValidation w _).trans ((TrialStep.cancelRollbackTimer _).trans
    ((TrialStep.withValidation _ _).trans (.note _ _)))

theorem slots_condemned : w.condemned.device.slots = w.device.slots := by
  simp [condemned, World.note, World.withValidation]

theorem trialStep_markInvalid : TrialStep w w.markInvalid.2 := by
  rw [markInvalid_eq]
  exact w.trialStep_condemned.trans (.rolledBack _)

theorem slots_markInvalid : w.markInvalid.2.device.slots = w.device.rollback.2.slots := by
  rw [markInvalid_eq, ← (Device.rollback_congr w.slots_condemned w.trialStep_condemned.faults).2]

theorem timers_markInvalid : w.markInvalid.2.device.timers = w.timersGivenUp := by
  rw [markInvalid_eq, Device.rollback_snd]
  exact timers_cancelRollbackTimer (w.withValidation _)

theorem validation_markInvalid : w.markInvalid.2.engine.validation =
    { w.engine.validation with
      rollbackTimer := none, confirmCancelled := true, valid := false, state := .invalid } := by
  rw [markInvalid_eq]
  simp [condemned, World.note, World.withValidation]

end

/-! ## An acknowledged report -/

section
variable (w : World A)

theorem settleTrial_invalid (h : w.engine.validation.state = .invalid) :
    w.settleTrial = (false, w.note .confirmedTooLate) := by
  unfold settleTrial; rw [if_pos h]

variable {w} (h : w.engine.validation.state ≠ .invalid)
include h

theorem fst_settleTrial : w.settleTrial.1 = true := by
  unfold settleTrial; rw [if_neg h]

theorem slots_settleTrial : w.settleTrial.2.device.slots = w.device.markValid.2.slots := by
  rw [← w.call_markValid.2]
  unfold settleTrial
  rw [if_neg h]
  dsimp only
  split <;> rename_i he <;> rw [he] <;> rfl

theorem timers_settleTrial : w.settleTrial.2.device.timers = w.timersGivenUp := by
  have hm : w.cancelRollbackTimer.device.markValid.2.timers = w.timersGivenUp := by
    rw [Device.markValid_snd, timers_cancelRollbackTimer]
  rw [← hm]
  unfold settleTrial
  rw [if_neg h]
  dsimp only
  split <;> rename_i he <;> rw [he] <;> rfl

theorem validation_settleTrial : w.settleTrial.2.engine.validation =
    { w.engine.validation with rollbackTimer := none, valid := true, state := .valid } := by
  unfold settleTrial
  rw [if_neg h]
  dsimp only
  split <;> simp [World.note, World.withValidation]

omit h in
theorem trialStep_settleTrial (w : World A) : TrialStep w w.settleTrial.2 := by
  have hm := (TrialStep.cancelRollbackTimer w).trans (.markedValid _)
  unfold settleTrial
  split
  · exact .note w _
  · dsimp only
    split
    · rename_i he
      rw [he] at hm
      exact hm.trans ((TrialStep.note _ _).trans (.withValidation _ _))
    · rename_i he
      rw [he] at hm
      exact hm.trans (.withValidation _ _)

end

/-! ## The timer -/

def OnTrial (w : World A) : Prop :=
  w.engine.validation.state = .validating ∧ w.engine.validation.valid = false

instance (w : World A) : Decidable w.OnTrial := inferInstanceAs (Decidable (_ ∧ _))

section
variable (w : World A)

theorem rollbackDue_of_not_onTrial (h : ¬ w.OnTrial) : w.rollbackDue = w := by
  unfold rollbackDue
  rw [if_pos]
  rcases Classical.not_and_iff_not_or_not.mp h with hs | hv
  · exact .inl hs
  · exact .inr (by simpa using hv)

theorem trialStep_rollbackDue : TrialStep w w.rollbackDue := by
  unfold rollbackDue
  dsimp only
  split
  · exact .refl w
  · have h := ((TrialStep.note w .rollbackFired).trans (.withValidation _
      { w.engine.validation with confirmCancelled := true, state := .invalid })).trans (.rolledBack _)
    split
    · rename_i he; rw [he] at h; exact h.trans (.note _ _)
    · rename_i he; rw [he] at h; exact h

theorem timers_rollbackDue : w.rollbackDue.device.timers = w.device.timers := by
  have ht : ∀ d : Device, d.rollback.2.timers = d.timers := fun d => by rw [Device.rollback_snd]
  unfold rollbackDue
  dsimp only
  split
  · rfl
  · split <;> rename_i he <;> exact (congrArg (·.2.timers) he).symm.trans (ht _)

variable {w} (h : w.OnTrial)
include h

theorem undecided_of_onTrial :
    ¬ (w.engine.validation.state ≠ .validating ∨ w.engine.validation.valid = true) := by
  rintro (hs | hv)
  · exact hs h.1
  · rw [h.2] at hv; cases hv

theorem slots_rollbackDue : w.rollbackDue.device.slots = w.device.rollback.2.slots := by
  let fired := (w.note .rollbackFired).withValidation
    { w.engine.validation with confirmCancelled := true, state := .invalid }
  have hs : fired.device.slots = w.device.slots := rfl
  have hf : fired.device.faults = w.device.faults := rfl
  unfold rollbackDue
  rw [if_neg (undecided_of_onTrial h), ← (Device.rollback_congr hs hf).2]
  dsimp only
  split
  · rename_i he; rw [he]; rfl
  · rename_i he; rw [he]

theorem validation_rollbackDue : w.rollbackDue.engine.validation =
    { w.engine.validation with confirmCancelled := true, state := .invalid } := by
  unfold rollbackDue
  rw [if_neg (undecided_of_onTrial h)]
  dsimp only
  split <;> rfl

end

theorem trialStep_fireOnce (w : World A) (id : TimerId) : TrialStep w (w.fireOnce id).2 := by
  unfold fireOnce
  split
  · exact (TrialStep.mk ⟨rfl, rfl, rfl, rfl, rfl⟩ rfl : TrialStep w { w with
      device := { w.device with timers := w.device.timers.setState id .fired } }).trans
        (trialStep_rollbackDue _)
  · exact .refl w

/-! ## The course of the trial -/

section
variable (w : World A)

theorem trialStep_setRollbackTimer (seconds : Nat) : TrialStep w (w.setRollbackTimer seconds).2 := by
  have h := TrialStep.setTimer w .once (seconds * 1000)
  unfold setRollbackTimer
  split
  · rename_i he
    rw [he] at h
    exact h.trans (.note _ _)
  · rename_i he
    rw [he] at h
    exact h

theorem trialStep_keepRollbackTimer (id : TimerId) (seconds : Nat) :
    TrialStep w (w.keepRollbackTimer id seconds) := (TrialStep.withValidation w _).trans (.note _ _)

theorem trialStep_enterTrial : TrialStep w w.enterTrial := (TrialStep.moveValidation w _).trans (.note _ _)

theorem trialStep_beginTrial (seconds : Nat) : TrialStep w (w.beginTrial seconds) := by
  have h := w.trialStep_enterTrial.trans ((TrialStep.moveValidation _ .validating).trans
    (trialStep_setRollbackTimer _ seconds))
  unfold beginTrial
  split
  · rename_i he
    rw [he] at h
    exact h
  · rename_i he
    rw [he] at h
    exact h.trans (trialStep_keepRollbackTimer _ _ _)

theorem setRollbackTimer_eq (seconds : Nat) : w.setRollbackTimer seconds =
    if w.device.faults.once then (none, w.note (.rollbackNotArmed (.of "no once timer left")))
    else (some w.device.timers.length, { w with device :=
      { w.device with timers := (w.device.timers.add .once (seconds * 1000)).2 } }) := by
  unfold setRollbackTimer Device.setTimer
  cases w.device.faults.once <;> rfl

theorem once_enterTrial :
    (w.enterTrial.moveValidation .validating).device.faults.once = w.device.faults.once := rfl

theorem slots_beginTrial (seconds : Nat) : (w.beginTrial seconds).device.slots = w.device.slots := by
  rw [beginTrial, setRollbackTimer_eq, w.once_enterTrial]
  cases w.device.faults.once <;> rfl

theorem validation_beginTrial (seconds : Nat) : (w.beginTrial seconds).engine.validation =
    { w.engine.validation with
      state := .validating
      rollbackTimer := if w.device.faults.once then w.engine.validation.rollbackTimer else
        some w.device.timers.length } := by
  rw [beginTrial, setRollbackTimer_eq, w.once_enterTrial]
  cases w.device.faults.once <;> rfl

theorem timers_beginTrial (seconds : Nat) : (w.beginTrial seconds).device.timers =
    if w.device.faults.once then w.device.timers else (w.device.timers.add .once (seconds * 1000)).2 := by
  rw [beginTrial, setRollbackTimer_eq, w.once_enterTrial]
  cases w.device.faults.once <;> rfl

/-- What the start of the validation comes to. It is made once, and then goes by the running slot. -/
inductive Beginning (w : World A) (seconds : Nat) : Option (Except UpdateError BootKind) → World A → Prop
  | begun (h : w.engine.validation.state ≠ .init) : Beginning w seconds none w
  | illegible (h : w.engine.validation.state = .init) (c : Cause) :
      Beginning w seconds (some (.error (.partition c))) w
  | trial (h : w.engine.validation.state = .init) (hr : w.device.slots.running = .pendingVerify) :
      Beginning w seconds (some (.ok .trial)) ((w.note (.slotState .pendingVerify)).beginTrial seconds)
  | settled (h : w.engine.validation.state = .init) (hr : w.device.slots.running = .valid) :
      Beginning w seconds (some (.ok .settled))
        ((w.note (.slotState .valid)).flagValid.moveValidation .valid)
  | foreign {slot : SlotState} (h : w.engine.validation.state = .init) (hr : w.device.slots.running = slot)
      (hs : slot = .invalid ∨ slot = .undefined) :
      Beginning w seconds (some (.ok .foreign)) ((w.note (.slotState slot)).moveValidation .notOtaBoot)

theorem beginning (seconds : Nat) :
    w.Beginning seconds (w.beginValidation seconds).1 (w.beginValidation seconds).2 := by
  unfold beginValidation
  by_cases hi : w.engine.validation.state = .init
  · rw [if_neg (by simp [hi])]
    split
    · exact .illegible hi _
    · rename_i slot hslot
      have hr : w.device.slots.running = slot := by
        unfold Device.runningState at hslot
        split at hslot
        · cases hslot
        · exact Except.ok.inj hslot
      cases slot with
      | pendingVerify => exact .trial hi hr
      | valid => exact .settled hi hr
      | invalid => exact .foreign hi hr (.inl rfl)
      | undefined => exact .foreign hi hr (.inr rfl)
  · rw [if_pos hi]
    exact .begun hi

theorem trialStep_beginValidation (seconds : Nat) : TrialStep w (w.beginValidation seconds).2 := by
  have hb := w.beginning seconds
  generalize (w.beginValidation seconds).1 = r, (w.beginValidation seconds).2 = w' at hb ⊢
  cases hb with
  | begun | illegible => exact .refl w
  | trial => exact (TrialStep.note w _).trans (trialStep_beginTrial _ seconds)
  | settled => exact (TrialStep.note w _).trans ((TrialStep.withValidation _ _).trans (.moveValidation _ _))
  | foreign => exact (TrialStep.note w _).trans (.moveValidation _ _)

theorem trialStep_joinConfirmation : TrialStep w w.joinConfirmation.2 := by
  unfold joinConfirmation
  dsimp only
  split
  · exact (TrialStep.withValidation w _).trans (.note _ _)
  · exact .refl w

end

end World

end FirmwareUpdate
