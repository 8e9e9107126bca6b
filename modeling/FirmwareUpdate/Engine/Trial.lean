import FirmwareUpdate.Engine.World

/-!
# Validating the running image

On the first boot of a new image the bootloader reports its slot as pending. The image is then on
trial: a one-shot timer bounds how long it may run unconfirmed. Marking it valid, marking it
invalid, the timer, and a report that the service has acknowledged each decide the trial in one
indivisible step, which the lock on the state makes it: `mark_valid`, `mark_invalid`,
`rollback_timer_fired` and `confirmation_succeeded` hold it from beginning to end. The start of the
validation, `run` and `verify_new_image`, does not.
-/

namespace FirmwareUpdate

namespace World

variable {A : Application}

/-- Gives up the rollback timer's handle, which cancels the timer. -/
def cancelRollbackTimer (w : World A) : World A :=
  match w.engine.validation.rollbackTimer with
  | none => w
  | some id =>
    let (armed, device) := w.device.cancelTimer id
    let w := { w with device := device }.withValidation
      { w.engine.validation with rollbackTimer := none }
    if armed then w.note .rollbackCancelled else w

/-- Marks the running image valid. Calling it again is harmless. -/
def markValid (w : World A) : Except UpdateError Unit × World A :=
  let w := w.cancelRollbackTimer
  match w.device.markValid with
  | (.error c, device) => (.error (.partition c), { w with device := device })
  | (.ok (), device) =>
    let v := w.engine.validation
    let state := if v.state = .notOtaBoot then .notOtaBoot else .valid
    (.ok (), { w with device := device }.withValidation { v with valid := true, state := state }
      |>.note .markedValid)

def markInvalid (w : World A) : Except UpdateError Unit × World A :=
  let w := w.withValidation { w.engine.validation with confirmCancelled := true }
  let w := w.cancelRollbackTimer
  let w := w.withValidation { w.engine.validation with valid := false, state := .invalid }
  let w := w.note .markedInvalid
  match w.device.rollback with
  | (.error c, device) => (.error (.partition c), { w with device := device })
  | (.ok (), device) => (.ok (), { w with device := device })

/-- `rollback_timer_fired`: an image that is still on trial is rolled back. -/
def rollbackDue (w : World A) : World A :=
  let v := w.engine.validation
  if v.state ≠ .validating ∨ v.valid then w
  else
    let w := w.note .rollbackFired
    let w := w.withValidation { v with confirmCancelled := true, state := .invalid }
    match w.device.rollback with
    | (.error c, device) => { w with device := device }.note (.rollbackFailed c)
    | (.ok (), device) => { w with device := device }

/-- `confirmation_succeeded` up to the erasure of the job id: the service has acknowledged the image. False if
it was rolled back already. -/
def settleTrial (w : World A) : Bool × World A :=
  if w.engine.validation.state = .invalid then (false, w.note .confirmedTooLate)
  else
    let w := w.cancelRollbackTimer
    let w :=
      match w.device.markValid with
      | (.error c, device) => { w with device := device }.note (.notMarkedValid c)
      | (.ok (), device) => { w with device := device }
    (true, w.withValidation { w.engine.validation with valid := true, state := .valid })

/-- `set_state`. -/
def moveValidation (w : World A) (state : ValidationState) : World A :=
  (w.note (.validationMoved w.engine.validation.state state)).withValidation
    { w.engine.validation with state := state }

def flagValid (w : World A) : World A := w.withValidation { w.engine.validation with valid := true }

def enterTrial (w : World A) : World A := (w.moveValidation .pendingVerify).note .firstBoot

def setRollbackTimer (w : World A) (seconds : Nat) : Option TimerId × World A :=
  match w.device.setTimer .once (seconds * 1000) with
  | (.error c, device) => (none, { w with device := device }.note (.rollbackNotArmed c))
  | (.ok id, device) => (some id, { w with device := device })

def keepRollbackTimer (w : World A) (id : TimerId) (seconds : Nat) : World A :=
  w.withValidation { w.engine.validation with rollbackTimer := some id } |>.note (.rollbackArmed seconds)

/-- The start of `verify_new_image`. -/
def beginTrial (w : World A) (seconds : Nat) : World A :=
  match (w.enterTrial.moveValidation .validating).setRollbackTimer seconds with
  | (none, w) => w
  | (some id, w) => w.keepRollbackTimer id seconds

inductive BootKind where
  | trial
  | settled
  | foreign
  deriving DecidableEq, Repr

/-- The first part of `run`: looks at the running slot and starts the validation, once a boot. Nothing happens
unless the validation is still unstarted. It takes the steps of an `Opening` with nothing in between. -/
def beginValidation (w : World A) (rollbackSeconds : Nat) :
    Option (Except UpdateError BootKind) × World A :=
  if w.engine.validation.state ≠ .init then (none, w)
  else
    match w.device.runningState with
    | .error c => (some (.error (.partition c)), w)
    | .ok slot =>
      let w := w.note (.slotState slot)
      match slot with
      | .pendingVerify => (some (.ok .trial), w.beginTrial rollbackSeconds)
      | .valid => (some (.ok .settled), w.flagValid.moveValidation .valid)
      | .invalid | .undefined => (some (.ok .foreign), w.moveValidation .notOtaBoot)

/-- How far an enabling has got that starts the validation. It holds no lock from one step to the next, and
whoever has a turn in between may write what it has looked at, or written. -/
inductive Opening where
  /-- The validation was found unstarted. -/
  | looked
  | found (slot : SlotState)
  | pending
  | onTrial
  | armed (timer : TimerId)
  /-- The image is flagged as valid, and the state does not say so yet. -/
  | flagged
  deriving DecidableEq, Repr

/-- The next step, and how far it leads or what the start of the validation comes to. -/
def Opening.next (seconds : Nat) (w : World A) : Opening → (Opening ⊕ Except UpdateError BootKind) × World A
  | .looked =>
    match w.device.runningState with
    | .error c => (.inr (.error (.partition c)), w)
    | .ok slot => (.inl (.found slot), w.note (.slotState slot))
  | .found .pendingVerify => (.inl .pending, w.enterTrial)
  | .found .valid => (.inl .flagged, w.flagValid)
  | .found .invalid | .found .undefined => (.inr (.ok .foreign), w.moveValidation .notOtaBoot)
  | .pending => (.inl .onTrial, w.moveValidation .validating)
  | .onTrial =>
    match w.setRollbackTimer seconds with
    | (none, w) => (.inr (.ok .trial), w)
    | (some id, w) => (.inl (.armed id), w)
  | .armed id => (.inr (.ok .trial), w.keepRollbackTimer id seconds)
  | .flagged => (.inr (.ok .settled), w.moveValidation .valid)

/-- `spawn_confirmation`: starts the task that confirms the image. A task that is cancelled already ends at once.
That there is a task to be had is taken for granted. -/
def startConfirmation (w : World A) (interval : Nat) : World A :=
  let v := w.engine.validation
  let phase := if v.confirmCancelled then ConfirmPhase.ended else .poised
  w.withValidation { v with confirmation := some ⟨interval, 0, phase⟩ }

def attempted (w : World A) (phase : ConfirmPhase) : World A :=
  let v := w.engine.validation
  let after (c : Confirmation) : Confirmation := { c with attempts := c.attempts + 1, phase := phase }
  w.withValidation { v with confirmation := v.confirmation.map after }

/-- `wait_for_confirmation`, once the task has ended. That it died is told once. -/
def joinConfirmation (w : World A) : ValidationState × World A :=
  let v := w.engine.validation
  let w :=
    match v.confirmation with
    | some ⟨interval, attempts, .broken⟩ =>
      (w.withValidation { v with confirmation := some ⟨interval, attempts, .ended⟩ }).note
        .confirmationDied
    | _ => w
  (v.state, w)

def fireOnce (w : World A) (id : TimerId) : Bool × World A :=
  if w.device.timers.isArmed id then
    let timers := w.device.timers.setState id .fired
    (true, { w with device := { w.device with timers := timers } }.rollbackDue)
  else (false, w)

end World

end FirmwareUpdate
