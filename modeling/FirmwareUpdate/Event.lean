import FirmwareUpdate.Config
import FirmwareUpdate.Console
import FirmwareUpdate.Download
import FirmwareUpdate.Job
import FirmwareUpdate.Network
import FirmwareUpdate.Outcome
import FirmwareUpdate.Report

/-!
# Events

Everything the library logs. An event has a level, a part of the program that it comes from, and a
text.
-/

namespace FirmwareUpdate

inductive Origin where
  | agent
  | apply
  | autofetch
  | config
  | engine
  | reporter
  | simulator
  | storage
  | validation
  deriving DecidableEq, Repr

def Origin.name : Origin → String
  | agent => "cloud_ota_agent"
  | apply => "apply"
  | autofetch => "autofetch"
  | config => "config"
  | engine => "engine"
  | reporter => "reporter"
  | simulator => "sim"
  | storage => "storage"
  | validation => "validation"

inductive Event where
  -- fetching
  | fetching
  | noUpdate
  | payloadRejected (e : UpdateError)
  | jobRejected (r : Rejection)
  | fetchFailed (e : UpdateError)
  | jobAccepted (id url : String) (size : Nat)
  | jobApplied (id : String)
  | jobDeferred (id reason : String)
  | jobRefused (id reason : String)
  | restarting
  -- the engine's life
  | enabled (version : String)
  | disabled
  | autofetchUnset
  | bootValidated (s : ValidationState)
  | bootValidationFailed (e : UpdateError)
  -- applying
  | applying (id : String) (size : Nat) (version : Option String)
  | progress (p : Progress)
  | imageWritten (s : ImageSummary)
  | applyFailed (id : String) (c : Cause)
  | jobIdNotPersisted (id : String) (c : Cause)
  -- reporting
  | reported (id : String) (status : JobStatus) (info : String)
  | reportFailed (id : String) (status : JobStatus) (e : UpdateError)
  | successConfirmed (attempts : Nat)
  | successReportFailed (attempt : Nat) (e : UpdateError) (retryMs : Nat)
  -- the job id
  | jobIdPersisted (id : String)
  | jobIdErased
  -- autofetch
  | autofetchStarted (seconds : Nat)
  | autofetchStopped
  | autofetchChecking
  | autofetchSkipped
  | autofetched (o : FetchOutcome)
  | autofetchFailed (e : UpdateError)
  -- validation
  | slotState (s : SlotState)
  | validationMoved (before after : ValidationState)
  | firstBoot
  | rollbackArmed (seconds : Nat)
  | rollbackNotArmed (c : Cause)
  | rollbackCancelled
  | rollbackFired
  | rollbackFailed (c : Cause)
  | selfTestFailed (c : Cause)
  | selfTestPassed
  | nothingToReport
  | jobIdUnreadable (c : Cause)
  | jobIdNotErased (c : Cause)
  | jobRolledBack (id : String)
  | markedValid
  | markedInvalid
  | notMarkedValid (c : Cause)
  | confirmedTooLate
  | validated
  | confirmationDied
  -- configuration
  | configSaved
  | configLoaded
  | configAbsent
  | configRefused (f : ConfigFault)
  | configUnreadable (c : Cause)
  -- the simulated device
  | rebooted (r : Reboot)
  | restartRequested
  -- the agent
  | banner (version : String)
  | unknownLevel (name : String)
  | firstBootHeading
  | secondBootHeading
  | fetchResult (o : FetchOutcome)
  | selfTested
  | validationFinished (s : ValidationState) (slot : SlotState)
  | postSent (p : Post)

namespace Event

def origin : Event → Origin
  | fetching | noUpdate | payloadRejected _ | jobRejected _ | fetchFailed _ | jobAccepted ..
  | jobApplied _ | jobDeferred .. | jobRefused .. | restarting | enabled _ | disabled
  | autofetchUnset | bootValidated _ | bootValidationFailed _ | autofetched _
  | autofetchFailed _ => .engine
  | applying .. | progress _ | imageWritten _ | applyFailed .. | jobIdNotPersisted .. => .apply
  | reported .. | reportFailed .. | successConfirmed _ | successReportFailed .. => .reporter
  | jobIdPersisted _ | jobIdErased => .storage
  | autofetchStarted _ | autofetchStopped | autofetchChecking | autofetchSkipped => .autofetch
  | slotState _ | validationMoved .. | firstBoot | rollbackArmed _ | rollbackNotArmed _
  | rollbackCancelled | rollbackFired | rollbackFailed _ | selfTestFailed _ | selfTestPassed
  | nothingToReport | jobIdUnreadable _ | jobIdNotErased _ | jobRolledBack _ | markedValid
  | markedInvalid | notMarkedValid _ | confirmedTooLate | validated
  | confirmationDied => .validation
  | configSaved | configLoaded | configAbsent | configRefused _ | configUnreadable _ => .config
  | rebooted _ | restartRequested => .simulator
  | banner _ | unknownLevel _ | firstBootHeading | secondBootHeading | fetchResult _ | selfTested
  | validationFinished .. | postSent _ => .agent

def level : Event → Level
  | payloadRejected _ | jobRejected _ | fetchFailed _ | bootValidationFailed _ | applyFailed ..
  | jobIdNotPersisted .. | rollbackFired | rollbackFailed _ | rollbackNotArmed _ | selfTestFailed _
  | jobIdUnreadable _ | jobIdNotErased _ | notMarkedValid _ | confirmationDied => .error
  | jobRefused .. | restarting | reportFailed .. | successReportFailed .. | autofetchSkipped
  | autofetchFailed _ | nothingToReport | jobRolledBack _ | markedInvalid | confirmedTooLate
  | configRefused _ | configUnreadable _ | unknownLevel _ => .warn
  | jobIdPersisted _ | jobIdErased | validationMoved .. => .debug
  | _ => .info

def text : Event → String
  | fetching => "Fetching OTA job"
  | noUpdate => "No OTA update available"
  | payloadRejected e => s!"Rejecting OTA payload: {e.message}"
  | jobRejected r => s!"Rejecting OTA job: {r.reason}"
  | fetchFailed e => s!"OTA fetch failed: {e.message}"
  | jobAccepted id url size => s!"OTA job {id} accepted: {url} ({size} bytes)"
  | jobApplied id => s!"OTA job {id} applied"
  | jobDeferred id reason => s!"OTA job {id} deferred: {reason}"
  | jobRefused id reason => s!"OTA job {id} rejected: {reason}"
  | restarting => "Restarting into the new firmware"
  | enabled version => s!"OTA engine enabled (firmware {version})"
  | disabled => "OTA engine disabled"
  | autofetchUnset => "Autofetch disabled"
  | bootValidated s => s!"Boot validation: {s.name}"
  | bootValidationFailed e => s!"Boot validation failed: {e.message}"
  | applying id size version =>
    let version := version.getD "unknown"
    s!"Applying OTA job {id} ({size} bytes, version {version})"
  | progress p => s!"OTA progress: {p.percent}% ({p.written}/{p.size})"
  | imageWritten s => s!"OTA image written: {s.bytes} bytes, sha256 {s.sha256}"
  | applyFailed id c => s!"OTA apply failed for job {id}: {c.full}"
  | jobIdNotPersisted id c => s!"Failed to persist OTA job id {id}: {c.full}"
  | reported id status info => s!"Reported OTA job {id} as {status.word} ({info})"
  | reportFailed id status e => s!"Failed to report OTA job {id} as {status.word}: {e.message}"
  | successConfirmed attempts => s!"OTA success confirmed after {attempts} attempt(s)"
  | successReportFailed attempt e retryMs =>
    s!"OTA success report failed (attempt {attempt}): {e.message}. Retrying in {retryMs} ms"
  | jobIdPersisted id => s!"Persisted OTA job id {id}"
  | jobIdErased => "Erased persisted OTA job id"
  | autofetchStarted seconds => s!"Autofetch enabled, every {seconds} s"
  | autofetchStopped => "Autofetch disabled"
  | autofetchChecking => "Autofetch: checking for firmware updates"
  | autofetchSkipped => "Autofetch: previous fetch still running, skipping tick"
  | autofetched o => s!"Autofetch: {o.text}"
  | autofetchFailed e => s!"Autofetch failed: {e.message}"
  | slotState s => s!"Running firmware slot state: {s.name}"
  | validationMoved before after => s!"OTA validation: {before.name} -> {after.name}"
  | firstBoot => "First boot after OTA, validating new firmware"
  | rollbackArmed seconds => s!"Rollback timer armed for {seconds} s"
  | rollbackNotArmed c => s!"Failed to arm rollback timer: {c.full}"
  | rollbackCancelled => "Rollback timer cancelled"
  | rollbackFired => "Firmware not confirmed before the rollback timeout, rolling back"
  | rollbackFailed c => s!"Rollback failed: {c.full}"
  | selfTestFailed c => s!"Post-OTA diagnostics failed: {c.full}"
  | selfTestPassed => "Post-OTA diagnostics passed"
  | nothingToReport => "No OTA job id persisted, marking new firmware valid without a report"
  | jobIdUnreadable c => s!"Failed to read persisted OTA job id: {c.full}"
  | jobIdNotErased c => s!"Failed to erase persisted OTA job id: {c.full}"
  | jobRolledBack id => s!"OTA job {id} did not take effect, firmware was rolled back"
  | markedValid => "Running firmware marked valid"
  | markedInvalid => "Running firmware marked invalid, rolling back"
  | notMarkedValid c => s!"Failed to mark firmware valid: {c.full}"
  | confirmedTooLate => "Success reported but the image was already rolled back"
  | validated => "New firmware validated"
  | confirmationDied => "OTA confirmation task panicked"
  | configSaved => "OTA configuration saved"
  | configLoaded => "Loaded OTA configuration from storage"
  | configAbsent => "No stored OTA configuration, using defaults"
  | configRefused f => s!"Stored OTA configuration rejected: {f.text}, using defaults"
  | configUnreadable c => s!"Failed to load OTA configuration: {c.full}, using defaults"
  | rebooted .previousImage => "sim: rebooted into previous image"
  | rebooted .newImage => "sim: rebooted into new image, pending verification"
  | rebooted .sameImage => "sim: rebooted into same image"
  | restartRequested => "sim: restart requested"
  | banner version => s!"Cloud OTA agent {version}"
  | unknownLevel name => "Ignoring unknown log level '" ++ name ++ "'"
  | firstBootHeading => "=== Boot 1: running the old firmware ==="
  | secondBootHeading => "=== Boot 2: first boot of the new firmware ==="
  | fetchResult o => s!"Fetch result: {o.text}"
  | selfTested => "Self-test passed"
  | validationFinished s slot => s!"Validation finished: {s.name}, slot {slot.name}"
  | postSent p =>
    let body := (Bytes.text? p.body).getD ""
    s!"  {p.path} {body}"

end Event

end FirmwareUpdate
