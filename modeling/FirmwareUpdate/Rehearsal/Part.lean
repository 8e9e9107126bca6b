import FirmwareUpdate.Rehearsal.Cue

/-!
# Parts

Every operation of a script, every handler and every self-test as a part to be played.
-/

namespace FirmwareUpdate.Rehearsal

variable {ν : Type}

namespace Answer

def ofUnit : Except UpdateError Unit → Answer ν
  | .ok () => .ok
  | .error e => .refused e

def ofFetch : Except UpdateError FetchOutcome → Answer ν
  | .ok o => .fetched o
  | .error e => .refused e

def ofApply : Except UpdateError ApplyOutcome → Answer ν
  | .ok o => .applied o
  | .error e => .refused e

def ofSummary : Except Cause ImageSummary → Answer ν
  | .ok s => .summary s
  | .error c => .failed c

def ofResponse : Except Cause Response → Answer ν
  | .ok r => .response r
  | .error c => .failed c

end Answer

namespace Part

open Activity (reportFor)

def onEngine (p : Part ν (Answer ν)) : Part ν (Answer ν) := do
  if ← cue .booted then p else return .noEngine

/-- How far apart two attempts to confirm may be for the next one to be seen. -/
def patience : Nat := 50

def phaseAfter (interval : Nat) : Option Activity.Attempt → ConfirmPhase
  | none => .broken
  | some .confirmed | some .cancelled => .ended
  | some .retry => if interval ≤ patience then .poised else .resting

def tryToConfirm (c : Confirmation) : Part ν Confirming := do
  let boot ← cue .current
  let came ← (onBoot boot (Activity.confirmAttempt (c.attempts + 1) c.interval)).attempt
  cue (.attempted boot (phaseAfter c.interval came))
  return if came = some .retry then .retrying else .finished

/-- One step of the confirmation task. A resting task only notices that it has been cancelled. -/
def confirmStep : Part ν Confirming := do
  match ← cue .confirmation with
  | none => return .absent
  | some c =>
    match c.phase with
    | .poised => tryToConfirm c
    | .resting =>
      return if ← ofActivity (Activity.perform .confirmCancelled) then .finished else .waiting
    | .broken | .ended => return if c.attempts = 0 then .absent else .finished

def attemptLimit : Nat := 51

def confirmSteps : Nat → Part ν Confirming
  | 0 => return .retrying
  | most + 1 => do
    match ← confirmStep with
    | .retrying => confirmSteps most
    | other => return other

def roundLimit : Nat := 1000

def round (boot : BootId) : Part ν Unit := do
  if ← cue (.engage boot) then
    (onBoot boot Activity.autofetchRound).ensuring (cue (.disengage boot))
  else onBoot boot (Activity.note .autofetchChecking)

def rounds (boot : BootId) (id : TimerId) : Nat → Part ν Unit
  | 0 => return ()
  | most + 1 => do
    if ← cue (.takeTick boot id) then
      round boot
      cue (.finishRound boot id)
      rounds boot id most
    else return ()

def ofThread : Thread → Part ν (Answer ν)
  | .fetch => do return .ofFetch (← lasting Activity.fetch)
  | .worker boot id => do
    if (← (rounds boot id roundLimit).attempt).isNone then cue (.loseWorker boot id)
    return .over

def reportLimit : Nat := 10000

/-- Reports of success until one is acknowledged, none at all if that is cancelled before. -/
def confirmSuccess (interval : Nat) (cancelled : Bool) : Part ν Bool :=
  if cancelled then return false
  else ofActivity (Activity.reportSuccessRepeatedly interval reportLimit 1)

def ofChoice : ConfigChoice → Part ν Config
  | .given c => return c
  | .stored => cue .loadConfig

def download (job : Job) (chunkSize : Nat) : Part ν ApplyOutcome := do
  match ← ofActivity (Activity.downloadAndFlash job chunkSize) with
  | .ok summary =>
    cue (.remark (.summary summary))
    return .applied
  | .error c => return .rejected c.full

def ofEnding (job : Job) (chunkSize : Nat) : Ending → Part ν ApplyOutcome
  | .settle outcome => return outcome
  | .download => download job chunkSize
  | .flash => ofActivity (Activity.flashImage job chunkSize)
  | .die => .died

def ofOp : Op ν → Part ν (Answer ν)
  | .access f => do return .told (← cue (.access f))
  | .prepare f => do
    cue (.prepare f)
    return .ok
  | .queueGet reply during => do
    cue (.queueGet reply during)
    return .ok
  | .queuePost count reply during => do
    cue (.queuePost count reply during)
    return .ok
  | .boot version => do
    let _ ← cue .letGo
    cue (.boot version)
    return .ok
  | .reboot => do
    let _ ← cue .letGo
    cue .reboot
    return .ok
  | .enable config handler test => onEngine do
    let config ← ofChoice config
    return .ofUnit (← lasting (Activity.enable config handler test))
  | .disable => onEngine do return .ofUnit (← ofActivity Activity.disable)
  | .markValid => onEngine do return .ofUnit (← ofActivity (Activity.perform .markValid))
  | .markInvalid => onEngine do return .ofUnit (← ofActivity (Activity.perform .markInvalid))
  | .status => onEngine do return .status (← cue .status)
  | .fetch => onEngine do return .ofFetch (← lasting Activity.fetch)
  | .startFetch => onEngine do
    if ← cue .anyHeld then return .busy else cue (.start .fetch)
  | .tick => onEngine do
    match ← cue .tick with
    | .due id => cue (.start (.worker (← cue .current) id))
    | other => return .ticked other
  | .letGo => cue .letGo
  | .fireRollback => do return .fired (← cue .fireOnce)
  | .confirmStep => do return .confirming (← confirmStep)
  | .confirm => do
    let last ← confirmSteps attemptLimit
    return .confirmed last (← ofActivity (Activity.perform .joinConfirmation))
  | .get path => do return .ofResponse (← ofActivity (Activity.get path))
  | .post path body => do return .ofResponse (← ofActivity (Activity.post path body))
  | .reportFor id status info => do return .ofUnit (← ofActivity (reportFor id status info))
  | .reportLogged id status info => do
    ofActivity (Activity.reportLogged id status info)
    return .ok
  | .report job status info => do return .ofUnit (← ofActivity (Activity.report job status info))
  | .confirmSuccess interval cancelled => do
    return .acknowledged (← confirmSuccess interval cancelled)
  | .download job chunkSize => do
    return .ofSummary (← ofActivity (Activity.downloadAndFlash job chunkSize))
  | .apply handler job chunkSize stack => do
    let handler := handler.map fun h => { h with hold := false }
    return .ofApply (← ofActivity (Activity.applyJob handler job chunkSize stack))

def answer (op : Op ν) : Part ν (Answer ν) := (ofOp op).orElse .died

/-- Steps one after the other, each with a remark on its result. One that dies takes all with it. -/
def steps : List (Step ν) → Part ν Unit
  | [] => return ()
  | (name, op) :: rest => do
    let a ← ofOp op
    cue (.remark (.step name a))
    steps rest

def reports (job : Job) : List (JobStatus × String) → Part ν Unit
  | [] => return ()
  | (status, info) :: rest => do
    let r ← ofActivity (reportFor job.id status info)
    cue (.remark (.report r))
    reports job rest

def progress (job : Job) : List String → Part ν Unit
  | [] => return ()
  | info :: rest => do
    ofActivity (Activity.reportProgress job info)
    progress job rest

def ofHandler (h : HandlerScript (Step ν)) (job : Job) (chunkSize : Nat) : Part ν ApplyOutcome := do
  if h.showJob then cue (.remark (.job job chunkSize))
  progress job h.progress
  reports job h.reports
  steps h.steps
  if h.hold then cue .hold
  ofEnding job chunkSize h.ending

def ofTest (t : TestScript (Step ν)) : Part ν Diagnosis := do
  steps t.steps
  return t.result

end Part

end FirmwareUpdate.Rehearsal
