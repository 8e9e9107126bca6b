import FirmwareUpdate.Engine.Applying

/-!
# Fetching

The service is asked for a job; a usable one is claimed, reported as accepted, applied and released.
An answer that describes no usable job is reported as rejected. `fetch` is made of the parts here; what it
leaves to the guard `InProgress`, whichever way it ends, is `letGo`.
-/

namespace FirmwareUpdate.Activity

variable {A : Application}

def fetchPath (version : String) : String := "otafetch?fw_version=" ++ version

def conclude (config : Config) (id : String) : ApplyOutcome → Activity A FetchOutcome
  | .applied => do
    note (.jobApplied id)
    if config.restartAfterApply then
      note .restarting
      perform .restart
    return .applied id
  | .deferred reason => do
    note (.jobDeferred id reason)
    return .deferred reason
  | .rejected reason => do
    note (.jobRefused id reason)
    return .rejected reason

def carryOut (a : Admission A) (job : Job) : Activity A (Except UpdateError ApplyOutcome) := do
  note (.jobAccepted job.id job.url job.size)
  reportLogged job.id .accepted "Job accepted"
  applyJob a.handler job a.config.downloadChunkSize.toNat a.config.applyTaskStackSize.toNat

def holdJob (a : Admission A) (job : Job) : Activity A (Except UpdateError ApplyOutcome) := do
  perform (.takeUp job)
  carryOut a job

/-- The guard `InProgress` is dropped. -/
def letGo : Activity A Unit := do
  perform .putDown
  perform .release

/-- Takes a job on, unless another one came first. It is let go whichever way it ends. -/
def takeOn (a : Admission A) (job : Job) : Activity A (Except UpdateError FetchOutcome) := do
  if ← perform .claim then
    match ← (holdJob a job).ensuring letGo with
    | .error e => return .error e
    | .ok outcome => return .ok (← conclude a.config job.id outcome)
  else return .error World.busy

/-- An answer that is no payload. Without a 200 its status counts. -/
def rejectPayload (response : Response) (e : UpdateError) :
    Activity A (Except UpdateError FetchOutcome) := do
  if response.ok then
    note (.payloadRejected e)
    reportLogged ((salvageJobId response.body).getD "") .rejected payloadErrorReason
    return .error e
  else return .error (.http response.status)

def receive (a : Admission A) (response : Response) :
    Activity A (Except UpdateError FetchOutcome) :=
  match Payload.ofBytes response.body with
  | .error (.parse why) => rejectPayload response (.parse why)
  | .error e => do
    note (.fetchFailed e)
    return .error e
  | .ok .noUpdate => do
    note .noUpdate
    return .ok .noUpdate
  | .ok (.rejected id r) => do
    note (.jobRejected r)
    reportLogged (id.getD "") .rejected r.reason
    return .error (.invalidJob r.reason)
  | .ok (.job job) => takeOn a job

def ask (a : Admission A) : Activity A (Except UpdateError FetchOutcome) := do
  note .fetching
  match ← get (fetchPath a.version) with
  | .error c => return .error (.transport c)
  | .ok response => receive a response

def fetch : Activity A (Except UpdateError FetchOutcome) := do
  if ← perform .inProgress then return .error World.busy
  else
    match ← perform .admission with
    | .error e => return .error e
    | .ok a => ask a

/-- `autofetch_tick`: one unprompted fetch; its result is only logged. -/
def autofetchRound : Activity A Unit := do
  note .autofetchChecking
  match ← fetch with
  | .ok .noUpdate => return ()
  | .ok outcome => note (.autofetched outcome)
  | .error e => note (.autofetchFailed e)

end FirmwareUpdate.Activity
