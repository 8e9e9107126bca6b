import FirmwareUpdate.Rehearsal.Part
import FirmwareUpdate.Version

/-!
# The stage

The simulated device with the engine on it, the engines of earlier boots, what is to be done during
the requests to come, the thread that is held, and what handlers and hooks have remarked. Each cue
either has its reply at once or calls for a part to be played first.
-/

namespace FirmwareUpdate.Rehearsal

structure Past (ν : Type) where
  engine : Engine (Scripted ν)
  timers : Timers

structure Stage (ν : Type) where
  world : World (Scripted ν)
  booted : Bool
  past : List (Past ν)
  engaged : List BootId
  getHooks : List (List (Step ν))
  postHooks : List (List (Step ν))
  held : Option (Part ν (Answer ν))
  remarks : List (Remark ν)

inductive Turn (ν : Type) (α : Type) where
  | reply (a : α)
  | first (p : Part ν α)

namespace Stage

variable {ν : Type}

def onDevice (d : Device) : Stage ν where
  world := .boot d Version.firmware
  booted := false
  past := []
  engaged := []
  getHooks := []
  postHooks := []
  held := none
  remarks := []

def prepare (s : Stage ν) (f : Device → Device) : Stage ν :=
  { s with world := { s.world with device := f s.world.device } }

/-- The result of an access to the device, with its faults out of force meanwhile. -/
def access (s : Stage ν) (f : Device → ν × Device) : ν × Stage ν :=
  let faults := s.world.device.faults
  let (v, d) := f { s.world.device with faults := .none }
  (v, { s with world := { s.world with device := { d with faults := faults } } })

def takeGetHook (s : Stage ν) : List (Step ν) × Stage ν :=
  (s.getHooks.headD [], { s with getHooks := s.getHooks.tail })

def takePostHook (s : Stage ν) : List (Step ν) × Stage ν :=
  (s.postHooks.headD [], { s with postHooks := s.postHooks.tail })

def queueGet (s : Stage ν) (reply : Reply) (during : List (Step ν)) : Stage ν :=
  let s := s.prepare fun d => { d with network := d.network.pushGet reply }
  { s with getHooks := s.getHooks ++ [during] }

def queuePost (s : Stage ν) (count : Nat) (reply : Reply) (during : List (Step ν)) : Stage ν :=
  let s := s.prepare fun d => { d with network := d.network.pushPost count reply }
  { s with postHooks := s.postHooks ++ List.replicate count during }

/-! ## Boots -/

/-- Something that happens to the engine of a boot. Each boot has timers of its own; the rest of the
device is one and the same. -/
def inBoot {α : Type} (s : Stage ν) (boot : BootId)
    (f : World (Scripted ν) → α × World (Scripted ν)) : α × Stage ν :=
  match s.past[boot]? with
  | none => let (a, w) := f s.world; (a, { s with world := w })
  | some p =>
    let timers := s.world.device.timers
    let (a, w) := f ⟨{ s.world.device with timers := p.timers }, p.engine⟩
    let world := { s.world with device := { w.device with timers := timers } }
    (a, { s with world := world, past := s.past.set boot ⟨w.engine, w.device.timers⟩ })

def current (s : Stage ν) : BootId := s.past.length

def inBeing (s : Stage ν) (boot : BootId) : Bool := boot == s.current || s.engaged.contains boot

def engage (s : Stage ν) (boot : BootId) : Bool × Stage ν :=
  if s.inBeing boot then (true, { s with engaged := boot :: s.engaged }) else (false, s)

def dismiss (s : Stage ν) (boot : BootId) : Stage ν :=
  if s.inBeing boot then s else (s.inBoot boot fun w => ((), w.dismissed)).2

def disengage (s : Stage ν) (boot : BootId) : Stage ν :=
  { s with engaged := s.engaged.erase boot }.dismiss boot

/-- The current boot is over. Its engine goes with it, or with the last activity that needs it. -/
def finish (s : Stage ν) : Stage ν :=
  let ended : Past ν := ⟨s.world.engine, s.world.device.timers⟩
  { s with past := s.past ++ [ended] }.dismiss s.current

def boot (s : Stage ν) (version : String) : Stage ν :=
  let s := s.finish
  { s with world := .boot s.world.device version, booted := true }

def reboot (s : Stage ν) : Stage ν :=
  let s := s.finish
  { s with world := .boot s.world.device.reboot Version.firmware, booted := false }

/-! ## Timers -/

def tick (s : Stage ν) : Ticked × Stage ν :=
  match s.world.device.timers.newest? .periodic with
  | none => (.unarmed, s)
  | some id =>
    let (fate, w) := s.world.tick id
    let s := { s with world := w }
    match fate with
    | .unarmed => (.unarmed, s)
    | .dropped => (.dropped, s)
    | .unheard => (.unheard, s)
    | .accepted => (if (w.worker id).busy then .buffered else .due id, s)

def fireOnce (s : Stage ν) : Bool × Stage ν :=
  match s.world.device.timers.newest? .once with
  | none => (false, s)
  | some id => let (fired, w) := s.world.fireOnce id; (fired, { s with world := w })

/-! ## Effects -/

def behaviour : Behaviour (Scripted ν) where
  decide _ _ _ w := (none, w)
  diagnose _ w := (.died, w)

def perform (s : Stage ν) (boot : BootId) (e : Effect (Scripted ν)) : e.Reply × Stage ν :=
  s.inBoot boot fun w => w.perform behaviour e

/-- The reply, after what is done meanwhile; none if that dies. -/
def during {α : Type} (hook : List (Step ν)) (reply : Option α) : Turn ν (Option α) :=
  match hook with
  | [] => .reply reply
  | hook => .first do
    match ← (Part.steps hook).attempt with
    | some () => return reply
    | none => return none

def effect (s : Stage ν) (boot : BootId) : (e : Effect (Scripted ν)) → Turn ν e.Reply × Stage ν
  | .get path =>
    let (r, s) := s.perform boot (.get path)
    let (hook, s) := s.takeGetHook
    (during hook r, s)
  | .post path body =>
    let (r, s) := s.perform boot (.post path body)
    let (hook, s) := s.takePostHook
    (during hook r, s)
  | .decide handler job chunkSize => (.first (Part.ofHandler handler job chunkSize).attempt, s)
  | .diagnose test => (.first ((Part.ofTest test).orElse .died), s)
  | e => let (r, s) := s.perform boot e; (.reply r, s)

end Stage

end FirmwareUpdate.Rehearsal
