import FirmwareUpdate.Engine.Effect

/-!
# Reporting

A report is one POST. Reports on the way of a job are sent and forgotten; the success of a new image
is reported again and again until the service acknowledges it.
-/

namespace FirmwareUpdate.Activity

variable {A : Application}

/-- Reports for a job id; a failed transport or an answer other than 200 is an error. -/
def reportFor (id : String) (status : JobStatus) (info : String) :
    Activity A (Except UpdateError Unit) := do
  match ← post Report.path (Report.body id status info) with
  | .error c => return .error (.transport c)
  | .ok response =>
    if response.ok then
      note (.reported id status info)
      return .ok ()
    else return .error (.http response.status)

def reportLogged (id : String) (status : JobStatus) (info : String) : Activity A Unit := do
  match ← reportFor id status info with
  | .ok () => return ()
  | .error e => note (.reportFailed id status e)

def noJobId : UpdateError := .notFound "no OTA job id to report against"

def reportPersisted (status : JobStatus) (info : String) : Activity A (Except UpdateError Unit) := do
  match ← perform .loadJobId with
  | .error c => return .error (.storage c)
  | .ok none => return .error noJobId
  | .ok (some id) => reportFor id status info

/-- Reports for the job in hand, or for the persisted id when there is none. -/
def report (job : Option Job) (status : JobStatus) (info : String) :
    Activity A (Except UpdateError Unit) :=
  match job with
  | some job => reportFor job.id status info
  | none => reportPersisted status info

def confirmationInfo : String := "Firmware booted and confirmed"

def reportSuccess (attempt interval : Nat) : Activity A Bool := do
  match ← reportPersisted .success confirmationInfo with
  | .ok () =>
    note (.successConfirmed attempt)
    return true
  | .error e =>
    note (.successReportFailed attempt e interval)
    return false

def reportSuccessRepeatedly (interval : Nat) (most : Nat) (attempt : Nat) : Activity A Bool :=
  match most with
  | 0 => return false
  | most + 1 => do
    if ← reportSuccess attempt interval then return true
    else reportSuccessRepeatedly interval most (attempt + 1)

end FirmwareUpdate.Activity
