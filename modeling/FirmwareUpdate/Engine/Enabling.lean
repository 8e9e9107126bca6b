import FirmwareUpdate.Engine.World

/-!
# Enabling, disabling and the job in progress

While the engine is enabled it has a configuration, perhaps a handler, and perhaps an autofetch
timer that feeds a worker of its own. `install` and `uninstall` are what `enable` and `disable` do under the
engine's lock. At most one job is in progress: whoever sets the flag takes the job up, that is writes it to the
job slot, and puts it down before the flag is cleared, as the guard `InProgress` does.
-/

namespace FirmwareUpdate

structure Admission (A : Application) where
  handler : Option A.Handler
  config : Config
  version : String

namespace World

variable {A : Application}

def startAutofetch (w : World A) (config : Config) :
    Except UpdateError (Option TimerId) × World A :=
  match config.autofetchPeriod with
  | none => (.ok none, w.note .autofetchUnset)
  | some seconds =>
    match w.device.startWorker with
    | .error c => (.error (.timer c), w)
    | .ok () =>
      match w.device.setTimer .periodic (seconds * 1000) with
      | (.error c, device) => (.error (.timer c), { w with device := device })
      | (.ok id, device) =>
        let engine := { w.engine with workers := (id, Worker.idle) :: w.engine.workers }
        (.ok (some id), (⟨device, engine⟩ : World A).note (.autofetchStarted seconds))

/-- Puts a configuration in force. Refused if there is one, or if this one has a fault. -/
def install (w : World A) (config : Config) (handler : Option A.Handler) :
    Except UpdateError Unit × World A :=
  if w.engine.enabled.isSome then (.error .alreadyEnabled, w)
  else
    match config.fault? with
    | some f => (.error (.invalidConfig f.text), w)
    | none =>
      match w.startAutofetch config with
      | (.error e, w) => (.error e, w)
      | (.ok timer, w) =>
        let engine := { w.engine with enabled := some ⟨config, handler, timer⟩ }
        (.ok (), { w with engine := engine }.note (.enabled engine.version))

def stopAutofetch (w : World A) (enabled : Enabled A) : World A :=
  match enabled.autofetch with
  | none => w
  | some id => { w with device := (w.device.cancelTimer id).2 }.note .autofetchStopped

def uninstall (w : World A) : Except UpdateError Unit × World A :=
  match w.engine.enabled with
  | none => (.error .notEnabled, w)
  | some enabled =>
    let w := { w with engine := { w.engine with enabled := none } }
    (.ok (), (w.stopAutofetch enabled).note .disabled)

/-! ## The job in progress -/

def busy : UpdateError := .invalidState "OTA already in progress"

def admission (w : World A) : Except UpdateError (Admission A) :=
  match w.engine.enabled with
  | none => .error .notEnabled
  | some e => .ok ⟨e.handler, e.config, w.engine.version⟩

/-- Sets the flag; false if it was set already. -/
def claim (w : World A) : Bool × World A :=
  if w.engine.inProgress then (false, w)
  else (true, { w with engine := { w.engine with inProgress := true } })

def takeUp (w : World A) (job : Job) : World A :=
  { w with engine := { w.engine with live := some job } }

def putDown (w : World A) : World A := { w with engine := { w.engine with live := none } }

def release (w : World A) : World A := { w with engine := { w.engine with inProgress := false } }

/-! ## Ticks -/

def worker (w : World A) (id : TimerId) : Worker := (w.engine.workers.lookup id).getD .idle

def setWorker (w : World A) (id : TimerId) (worker : Worker) : World A :=
  let others := w.engine.workers.filter (·.1 != id)
  { w with engine := { w.engine with workers := (id, worker) :: others } }

/-- A tick is handed to the worker of its timer. Whether the timer is still armed is not asked again. -/
def offerTick (w : World A) (id : TimerId) : TickFate × World A :=
  if w.engine.deserted.contains id then (.unheard, w)
  else
    match (w.worker id).offer with
    | (true, worker) => (.accepted, w.setWorker id worker)
    | (false, _) => (.dropped, w.note .autofetchSkipped)

/-- An armed timer's period is over, and its tick is handed over at once. -/
def tick (w : World A) (id : TimerId) : TickFate × World A :=
  if w.device.timers.isArmed id then w.offerTick id else (.unarmed, w)

/-- A worker takes the tick that waits for it; tells whether a round starts. -/
def takeTick (w : World A) (id : TimerId) : Bool × World A :=
  let (starts, worker) := (w.worker id).take
  (starts, w.setWorker id worker)

def finishRound (w : World A) (id : TimerId) : World A :=
  w.setWorker id (w.worker id).finish

def loseWorker (w : World A) (id : TimerId) : World A :=
  { w with engine := { w.engine with deserted := id :: w.engine.deserted } }

def dismissed (w : World A) : World A :=
  match w.engine.enabled with
  | none => w
  | some enabled =>
    { w with engine := { w.engine with enabled := none } }.stopAutofetch enabled

end World

end FirmwareUpdate
