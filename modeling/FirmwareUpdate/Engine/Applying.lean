import FirmwareUpdate.Engine.Reporting
import FirmwareUpdate.Hash.Sha256

/-!
# Applying a job

A handler decides what to do with a job. Left to itself the engine downloads the image and flashes
it. When the image is in place the job's id is persisted, so that it is there before anything can
reboot the device; if it cannot be persisted the job is rejected instead.
-/

namespace FirmwareUpdate.Activity

variable {A : Application}

def bufferLimit : Nat := 0x7fffffffffffffff

def noteProgress : List Progress → Activity A Unit
  | [] => return ()
  | p :: rest => do
    note (.progress p)
    noteProgress rest

/-- Streams an image into the opened slot, from whatever it is read. The image becomes the next to boot
only if all of it has been written and its size is the expected one. -/
def fillSlot (read : Nat → σ → Except Cause (Bytes × σ)) (source : σ) (flash : Flash) (size room : Nat) :
    Activity A (Except Cause ImageSummary) := do
  let (result, d) := (Download.start source flash).run read size room
  noteProgress d.told.reverse
  match result with
  | .error c => return .error c
  | .ok () =>
    let image := d.flash.image
    perform (.stage image)
    return .ok ⟨d.flash.offset, Bytes.hex (Sha256.digest image)⟩

/-- Streams the job's image into the inactive slot. -/
def downloadAndFlash (job : Job) (chunkSize : Nat) : Activity A (Except Cause ImageSummary) := do
  match ← perform (.openImage job.url) with
  | .error c => return .error c
  | .ok source =>
    let room := max chunkSize 1
    if bufferLimit < room then .died
    else
      match ← perform .openUpdate with
      | .error c => return .error c
      | .ok flash => fillSlot Source.read source flash job.size room

def reportProgress (job : Job) (info : String) : Activity A Unit :=
  reportLogged job.id .inProgress info

def flashImage (job : Job) (chunkSize : Nat) : Activity A ApplyOutcome := do
  note (.applying job.id job.size job.version)
  reportProgress job "Downloading firmware image"
  match ← downloadAndFlash job chunkSize with
  | .ok summary =>
    note (.imageWritten summary)
    reportProgress job "Firmware written, rebooting"
    return .applied
  | .error c =>
    note (.applyFailed job.id c)
    let reason := "Firmware apply failed: " ++ c.top
    return .rejected reason

def decide (handler : Option A.Handler) (job : Job) (chunkSize : Nat) : Activity A ApplyOutcome := do
  match handler with
  | none => flashImage job chunkSize
  | some h =>
    match ← perform (.decide h job chunkSize) with
    | some outcome => return outcome
    | none => .died

def persist (job : Job) (outcome : ApplyOutcome) : Activity A ApplyOutcome := do
  match outcome with
  | .applied =>
    match ← perform (.saveJobId job.id) with
    | .ok () => return .applied
    | .error c =>
      note (.jobIdNotPersisted job.id c)
      let reason := "Failed to persist job id: " ++ c.top
      return .rejected reason
  | outcome => return outcome

def reportOutcome (job : Job) : ApplyOutcome → Activity A Unit
  | .applied => return ()
  | .deferred reason => reportLogged job.id .delayed reason
  | .rejected reason => reportLogged job.id .rejected reason

def settle (handler : Option A.Handler) (job : Job) (chunkSize : Nat) : Activity A ApplyOutcome := do
  let outcome ← persist job (← decide handler job chunkSize)
  reportOutcome job outcome
  return outcome

/-- Has a job settled by a task of its own (`run_apply`). That the task cannot be started, or dies, is an
error and no more. -/
def applyJob (handler : Option A.Handler) (job : Job) (chunkSize stack : Nat) :
    Activity A (Except UpdateError ApplyOutcome) := do
  match ← perform (.startApplyTask stack) with
  | .error c => return .error (.apply ("failed to spawn apply task: " ++ c.top))
  | .ok () =>
    match ← (settle handler job chunkSize).attempt with
    | some outcome => return .ok outcome
    | none => return .error (.apply "apply task ended without an outcome")

end FirmwareUpdate.Activity
