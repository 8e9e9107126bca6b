import FirmwareUpdate.Device
import FirmwareUpdate.Worker

/-!
# The engine's world

The state that all activities of one boot share: the device and the engine on it.
-/

namespace FirmwareUpdate

/-- What an application plugs into the engine: deciders for jobs, and self-tests. -/
structure Application where
  Handler : Type
  SelfTest : Type

inductive ConfirmPhase where
  | poised
  | resting
  /-- It died in an attempt, and nobody has asked after it since. -/
  | broken
  | ended
  deriving DecidableEq, Repr

structure Confirmation where
  interval : Nat
  attempts : Nat
  phase : ConfirmPhase
  deriving DecidableEq, Repr

structure Validation where
  state : ValidationState
  valid : Bool
  rollbackTimer : Option TimerId
  confirmCancelled : Bool
  confirmation : Option Confirmation
  deriving DecidableEq, Repr

def Validation.unstarted : Validation := ⟨.init, false, none, false, none⟩

structure Enabled (A : Application) where
  config : Config
  /-- None means that images are flashed as they come. -/
  handler : Option A.Handler
  autofetch : Option TimerId

structure Engine (A : Application) where
  version : String
  enabled : Option (Enabled A)
  inProgress : Bool
  live : Option Job
  validation : Validation
  workers : List (TimerId × Worker)
  /-- The timers whose workers have died. -/
  deserted : List TimerId

def Engine.booted (A : Application) (version : String) : Engine A :=
  ⟨version, none, false, none, .unstarted, [], []⟩

structure World (A : Application) where
  device : Device
  engine : Engine A

structure EngineStatus where
  enabled : Bool
  inProgress : Bool
  valid : Bool
  validation : ValidationState
  jobId : Option String
  rollbackArmed : Bool
  deriving DecidableEq, Repr

namespace World

variable {A : Application}

def note (w : World A) (e : Event) : World A := { w with device := w.device.note e }

def status (w : World A) : EngineStatus where
  enabled := w.engine.enabled.isSome
  inProgress := w.engine.inProgress
  valid := w.engine.validation.valid
  validation := w.engine.validation.state
  jobId := w.engine.live.map (·.id)
  rollbackArmed := w.engine.validation.rollbackTimer.isSome

def withValidation (w : World A) (v : Validation) : World A :=
  { w with engine := { w.engine with validation := v } }

def boot (d : Device) (version : String) : World A :=
  ⟨{ d with timers := [] }, .booted A version⟩

end World

end FirmwareUpdate
