import FirmwareUpdate.Engine.Fetching

/-!
# Enabling the engine and validating the boot

The first time the engine is enabled in a boot it looks at the running image. A new image is tested
and confirmed; an image that was valid before means that a job still on record did not take effect.
-/

namespace FirmwareUpdate.Activity

variable {A : Application}

def forgetJobId : Activity A Unit := do
  match ← perform .eraseJobId with
  | .ok () => return ()
  | .error c => note (.jobIdNotErased c)

/-- `reconcile_rolled_back_job`: a job id is left over on a normal boot. Its image was rolled back, and the
service is told. -/
def reconcile : Activity A Unit := do
  match ← perform .loadJobId with
  | .error c => note (.jobIdUnreadable c)
  | .ok none => return ()
  | .ok (some id) =>
    note (.jobRolledBack id)
    forgetJobId
    reportLogged id .rejected "Firmware rolled back"

/-- `confirmation_succeeded`. -/
def concludeTrial : Activity A Unit := do
  if ← perform .settleTrial then
    forgetJobId
    note .validated

inductive Attempt where
  | confirmed
  | cancelled
  | retry
  deriving DecidableEq, Repr

/-- One attempt of the confirmation task, `confirm`. A cancellation is seen when the attempt has failed. -/
def confirmAttempt (attempt interval : Nat) : Activity A Attempt := do
  if ← reportSuccess attempt interval then
    concludeTrial
    return .confirmed
  else if ← perform .confirmCancelled then return .cancelled
  else return .retry

/-- Starts the confirmation of an image that passed its self-test. Without a job there is nothing to
report and the image is accepted at once. -/
def confirmTrial (interval : Nat) : Activity A (Except UpdateError ValidationState) := do
  match ← perform .loadJobId with
  | .ok none =>
    note .nothingToReport
    concludeTrial
    return .ok (← perform .validationState)
  | .ok (some _) =>
    perform (.startConfirmation interval)
    return .ok (← perform .validationState)
  | .error c =>
    note (.jobIdUnreadable c)
    perform (.startConfirmation interval)
    return .ok (← perform .validationState)

/-- `verify_new_image` once the timer is set. -/
def testTrial (test : Option A.SelfTest) (interval : Nat) :
    Activity A (Except UpdateError ValidationState) := do
  match test with
  | none => confirmTrial interval
  | some test =>
    match ← perform (.diagnose test) with
    | .died => .died
    | .passed =>
      note .selfTestPassed
      confirmTrial interval
    | .failed c =>
      note (.selfTestFailed c)
      match ← perform .markInvalid with
      | .ok () => return .ok .invalid
      | .error e => return .error e

def validate (test : Option A.SelfTest) (config : Config) :
    Activity A (Option (Except UpdateError ValidationState)) := do
  match ← perform (.beginValidation config.rollbackTimeoutSecs.toNat) with
  | none => return none
  | some (.error e) => return some (.error e)
  | some (.ok .trial) => return some (← testTrial test config.confirmRetryIntervalMs.toNat)
  | some (.ok .settled) =>
    reconcile
    return some (.ok .valid)
  | some (.ok .foreign) => return some (.ok .notOtaBoot)

/-- Enables the engine. A failed validation is logged and does not undo it. -/
def enable (config : Config) (handler : Option A.Handler) (test : Option A.SelfTest) :
    Activity A (Except UpdateError Unit) := do
  match ← perform (.install config handler) with
  | .error e => return .error e
  | .ok () =>
    match ← validate test config with
    | none => return .ok ()
    | some (.ok state) =>
      note (.bootValidated state)
      return .ok ()
    | some (.error e) =>
      note (.bootValidationFailed e)
      return .ok ()

def disable : Activity A (Except UpdateError Unit) := perform .uninstall

end FirmwareUpdate.Activity
