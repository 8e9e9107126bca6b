import FirmwareUpdate.Engine.Enabling
import FirmwareUpdate.Engine.Trial
import FirmwareUpdate.Routine

/-!
# Effects

What an activity of the engine does in one indivisible step: a request to the service, an access to
the store or the slots, a question to the application, or a change of the engine's own state.
Between two effects other activities may run, and the device may lose power.
-/

namespace FirmwareUpdate

inductive Diagnosis where
  | passed
  | failed (c : Cause)
  | died
  deriving DecidableEq, Repr

inductive Effect (A : Application) where
  -- the service
  | get (path : String)
  | post (path : String) (body : Bytes)
  | openImage (url : String)
  -- the device
  | loadJobId
  | saveJobId (id : String)
  | eraseJobId
  | openUpdate
  | stage (image : Bytes)
  | restart
  | startApplyTask (stack : Nat)
  | note (e : Event)
  -- the application
  | decide (handler : A.Handler) (job : Job) (chunkSize : Nat)
  | diagnose (test : A.SelfTest)
  -- the engine
  | install (config : Config) (handler : Option A.Handler)
  | uninstall
  | inProgress
  | admission
  | claim
  | takeUp (job : Job)
  | putDown
  | release
  -- the validation
  | beginValidation (rollbackSeconds : Nat)
  | markValid
  | markInvalid
  | settleTrial
  | startConfirmation (interval : Nat)
  | validationState
  | confirmCancelled
  | joinConfirmation

namespace Effect

variable {A : Application}

/-- The type of an effect's reply. A handler that ends without an outcome replies with none, and so
does a request that takes the one who makes it down with it. -/
@[reducible]
def Reply : Effect A → Type
  | get _ | post .. => Option (Except Cause Response)
  | openImage _ => Except Cause Source
  | loadJobId => Except Cause (Option String)
  | saveJobId _ | eraseJobId | startApplyTask _ => Except Cause Unit
  | openUpdate => Except Cause Flash
  | stage _ | restart | note _ => Unit
  | decide .. => Option ApplyOutcome
  | diagnose _ => Diagnosis
  | install .. | uninstall | markValid | markInvalid => Except UpdateError Unit
  | admission => Except UpdateError (Admission A)
  | inProgress | claim | settleTrial | confirmCancelled => Bool
  | takeUp _ | putDown | release | startConfirmation _ => Unit
  | beginValidation _ => Option (Except UpdateError World.BootKind)
  | validationState | joinConfirmation => ValidationState

end Effect

/-- How the application behaves: what its handlers and self-tests answer, and what they do to the
world meanwhile. -/
structure Behaviour (A : Application) where
  decide : A.Handler → Job → Nat → World A → Option ApplyOutcome × World A
  diagnose : A.SelfTest → World A → Diagnosis × World A

def World.perform {A : Application} (b : Behaviour A) (e : Effect A) (w : World A) :
    e.Reply × World A :=
  let on {α : Type} (r : α × Device) : α × World A := (r.1, { w with device := r.2 })
  match e with
  | .get path => let (r, d) := w.device.get path; on (some r, d)
  | .post path body => let (r, d) := w.device.post path body; on (some r, d)
  | .openImage url => (w.device.network.openImage url, w)
  | .loadJobId => (w.device.store.loadJobId, w)
  | .saveJobId id => on (w.device.saveJobId id)
  | .eraseJobId => on w.device.eraseJobId
  | .openUpdate => (w.device.openUpdate, w)
  | .stage image => on ((), w.device.stage image)
  | .restart => on ((), w.device.restart)
  | .startApplyTask stack => (w.device.startApplyTask stack, w)
  | .note e => ((), w.note e)
  | .decide handler job chunkSize => b.decide handler job chunkSize w
  | .diagnose test => b.diagnose test w
  | .install config handler => w.install config handler
  | .uninstall => w.uninstall
  | .inProgress => (w.engine.inProgress, w)
  | .admission => (w.admission, w)
  | .claim => w.claim
  | .takeUp job => ((), w.takeUp job)
  | .putDown => ((), w.putDown)
  | .release => ((), w.release)
  | .beginValidation seconds => w.beginValidation seconds
  | .markValid => w.markValid
  | .markInvalid => w.markInvalid
  | .settleTrial => w.settleTrial
  | .startConfirmation interval => ((), w.startConfirmation interval)
  | .validationState => (w.engine.validation.state, w)
  | .confirmCancelled => (w.engine.validation.confirmCancelled, w)
  | .joinConfirmation => w.joinConfirmation

abbrev Activity (A : Application) := Routine (Effect.Reply (A := A))

namespace Activity

variable {A : Application}

def perform (e : Effect A) : Activity A e.Reply := Routine.request e

def note (e : Event) : Activity A Unit := perform (.note e)

def get (path : String) : Activity A (Except Cause Response) := do
  match ← perform (.get path) with
  | some result => return result
  | none => .died

def post (path : String) (body : Bytes) : Activity A (Except Cause Response) := do
  match ← perform (.post path body) with
  | some result => return result
  | none => .died

/-- Runs an activity with nothing in between. -/
def run {α : Type} (b : Behaviour A) (p : Activity A α) (w : World A) : Option α × World A :=
  Routine.run (World.perform b) p w

end Activity

end FirmwareUpdate
