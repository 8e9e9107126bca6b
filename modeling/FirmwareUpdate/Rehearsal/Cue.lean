import FirmwareUpdate.Rehearsal.Script

/-!
# Cues

The requests that the operations of a script are made of: the effects of the engine, and what only
a rehearsal has, such as threads that are held and let go. A script may boot the device in the middle
of an activity, which then goes on with the engine that it began with; so an effect names its boot.
-/

namespace FirmwareUpdate.Rehearsal

/-- Boots are known by their place in the order. -/
abbrev BootId := Nat

inductive Thread where
  | fetch
  | worker (boot : BootId) (id : TimerId)
  deriving DecidableEq, Repr

inductive Cue (ν : Type) where
  | effect (boot : BootId) (e : Effect (Scripted ν))
  | access (f : Device → ν × Device)
  | prepare (f : Device → Device)
  | remark (r : Remark ν)
  /-- The thread stops until it is let go, if it may be held. -/
  | hold
  | start (t : Thread)
  | anyHeld
  /-- The held thread runs to its end, whatever would hold it again. -/
  | letGo
  | queueGet (reply : Reply) (during : List (Step ν))
  | queuePost (count : Nat) (reply : Reply) (during : List (Step ν))
  | boot (version : String)
  | reboot
  | booted
  | current
  /-- An activity begins that needs the engine of a boot; false if that engine is gone. -/
  | engage (boot : BootId)
  | disengage (boot : BootId)
  | status
  | loadConfig
  | tick
  | takeTick (boot : BootId) (id : TimerId)
  | finishRound (boot : BootId) (id : TimerId)
  | loseWorker (boot : BootId) (id : TimerId)
  | fireOnce
  | confirmation
  | attempted (boot : BootId) (phase : ConfirmPhase)

@[reducible]
def Cue.Reply {ν : Type} : Cue ν → Type
  | .effect _ e => e.Reply
  | .access _ => ν
  | .prepare _ | .remark _ | .hold | .queueGet .. | .queuePost .. | .boot _ | .reboot
  | .disengage _ | .finishRound .. | .loseWorker .. | .attempted .. => Unit
  | .start _ | .letGo => Answer ν
  | .anyHeld | .booted | .engage _ | .takeTick .. | .fireOnce => Bool
  | .current => BootId
  | .status => EngineStatus
  | .loadConfig => Config
  | .tick => Ticked
  | .confirmation => Option Confirmation

abbrev Part (ν : Type) := Routine (Cue.Reply (ν := ν))

namespace Part

variable {ν : Type} {α : Type}

def cue (c : Cue ν) : Part ν c.Reply := Routine.request c

def onBoot (boot : BootId) (p : Activity (Scripted ν) α) : Part ν α :=
  p.embed (.effect boot) fun _ r => r

def ofActivity (p : Activity (Scripted ν) α) : Part ν α := do onBoot (← cue .current) p

def lasting (p : Activity (Scripted ν) α) : Part ν α := do
  let boot ← cue .current
  let _ ← cue (.engage boot)
  (onBoot boot p).ensuring (cue (.disengage boot))

end Part

end FirmwareUpdate.Rehearsal
