import FirmwareUpdate.Event
import FirmwareUpdate.Network
import FirmwareUpdate.Store
import FirmwareUpdate.Timers

/-!
# The device

What the update engine finds on a device: a store, boot slots, a network, timers, and a journal of
what was logged. Single operations of the platform can be told to fail; one that fails leaves the
device as it was.
-/

namespace FirmwareUpdate

structure Faults where
  erase : Bool
  runningState : Bool
  markValid : Bool
  rollback : Bool
  openUpdate : Bool
  once : Bool
  periodic : Bool
  /-- No task can be had for an autofetch worker. -/
  worker : Bool
  /-- No task can be had to apply a job. -/
  applyTask : Bool
  deriving DecidableEq, Repr

def Faults.none : Faults := ⟨false, false, false, false, false, false, false, false, false⟩

structure Device where
  store : Store
  slots : Slots
  network : Network
  timers : Timers
  faults : Faults
  journal : List Event

namespace Device

def fresh (running : SlotState) : Device where
  store := .empty
  slots := .booted running
  network := .idle
  timers := []
  faults := .none
  journal := []

def note (d : Device) (e : Event) : Device := { d with journal := d.journal ++ [e] }

/-! ## The persisted job id -/

def saveJobId (d : Device) (id : String) : Except Cause Unit × Device :=
  match d.store.write .jobId (Bytes.ofText id) with
  | (.ok (), store) => (.ok (), { d with store := store }.note (.jobIdPersisted id))
  | (.error c, store) => (.error c, { d with store := store })

def eraseJobId (d : Device) : Except Cause Unit × Device :=
  let path := Place.jobId.path
  if d.faults.erase then
    (.error (Cause.within s!"erase {path}" (.of s!"erase of {path} failed")), d)
  else (.ok (), { d with store := d.store.erase .jobId }.note .jobIdErased)

/-! ## The configuration -/

def saveConfig (d : Device) (c : Config) : Except Cause Unit × Device :=
  match d.store.write .config c.render with
  | (.ok (), store) => (.ok (), { d with store := store }.note .configSaved)
  | (.error e, store) => (.error e, { d with store := store })

def usableConfig : Except Cause (Option Config) → Config × Event
  | .ok (some c) =>
    match c.fault? with
    | none => (c, .configLoaded)
    | some f => (.default, .configRefused f)
  | .ok none => (.default, .configAbsent)
  | .error e => (.default, .configUnreadable e)

/-- The stored configuration if it can be read and has no fault, the default otherwise. -/
def loadConfig (d : Device) : Config × Device :=
  let (c, e) := usableConfig (d.store.readJson Config.ofBytes? .config)
  (c, d.note e)

/-! ## Slots -/

def runningState (d : Device) : Except Cause SlotState :=
  if d.faults.runningState then .error (.of "running_state failed") else .ok d.slots.running

def markValid (d : Device) : Except Cause Unit × Device :=
  if d.faults.markValid then (.error (.of "mark_valid failed"), d)
  else let (r, slots) := d.slots.markValid; (r, { d with slots := slots })

def rollback (d : Device) : Except Cause Unit × Device :=
  if d.faults.rollback then (.error (.of "rollback failed"), d)
  else (.ok (), { d with slots := d.slots.rollback })

def openUpdate (d : Device) : Except Cause Flash :=
  if d.faults.openUpdate then .error (.of "open_update failed")
  else .ok (.opened d.slots.failWrites)

def stage (d : Device) (image : Bytes) : Device := { d with slots := d.slots.stage image }

def restart (d : Device) : Device := { d with slots := d.slots.restart }.note .restartRequested

def reboot (d : Device) : Device :=
  let (r, slots) := d.slots.reboot
  { d with slots := slots }.note (.rebooted r)

/-! ## Network -/

def get (d : Device) (path : String) : Except Cause Response × Device :=
  let (r, network) := d.network.get path
  (r, { d with network := network })

def post (d : Device) (path : String) (body : Bytes) : Except Cause Response × Device :=
  let (r, network) := d.network.post path body
  (r, { d with network := network })

/-! ## Timers -/

def setTimer (d : Device) (kind : TimerKind) (span : Nat) : Except Cause TimerId × Device :=
  match kind, d.faults.once, d.faults.periodic with
  | .once, true, _ => (.error (.of "no once timer left"), d)
  | .periodic, _, true => (.error (.of "no periodic timer left"), d)
  | _, _, _ => let (id, timers) := d.timers.add kind span; (.ok id, { d with timers := timers })

def cancelTimer (d : Device) (id : TimerId) : Bool × Device :=
  let (armed, timers) := d.timers.cancel id
  (armed, { d with timers := timers })

/-! ## Tasks -/

/-- What the operating system says when it has no task to give. -/
def noTask : Cause := .of "Resource temporarily unavailable (os error 11)"

/-- A task that applies a job has this much stack even if it is configured to have less. -/
def hostStack : Nat := 256 * 1024

/-- A stack has to fit into the address space of a process, which has 47 bits. -/
def addressSpace : Nat := 0x800000000000

def startWorker (d : Device) : Except Cause Unit :=
  if d.faults.worker then .error (.of ("failed to spawn autofetch worker: " ++ noTask.top)) else .ok ()

def startApplyTask (d : Device) (stack : Nat) : Except Cause Unit :=
  if d.faults.applyTask ∨ addressSpace < max stack hostStack then .error noTask else .ok ()

end Device

end FirmwareUpdate
