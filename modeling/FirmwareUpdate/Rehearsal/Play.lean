import FirmwareUpdate.Rehearsal.Stage

/-!
# Playing

A part is played cue by cue. What a hook, a handler or a self-test does is played in between, one
level further in. A thread of its own may be held: what is left of it is kept until it is let go.
-/

namespace FirmwareUpdate.Rehearsal

inductive Halt (ν : Type) (α : Type) where
  | finished (a : α)
  | died
  | held (rest : Part ν α)

/-- A way to play parts, on a thread that may be held or not. -/
abbrev Player (ν : Type) := (mayHold : Bool) → (α : Type) → Part ν α → Stage ν → Halt ν α × Stage ν

namespace Stage

variable {ν : Type}

def start (inner : Player ν) (t : Thread) (s : Stage ν) : Answer ν × Stage ν :=
  match inner true _ (Part.ofThread t) s with
  | (.finished a, s) => (a, s)
  | (.died, s) => (.died, s)
  | (.held rest, s) => (.held, { s with held := some rest })

def letGo (inner : Player ν) (s : Stage ν) : Answer ν × Stage ν :=
  match s.held with
  | none => (.nothing, s)
  | some rest =>
    match inner false _ rest { s with held := none } with
    | (.finished a, s) => (a, s)
    | (.died, s) | (.held _, s) => (.died, s)

def turn (inner : Player ν) (s : Stage ν) : (c : Cue ν) → Turn ν c.Reply × Stage ν
  | .effect boot e => s.effect boot e
  | .access f => let (v, s) := s.access f; (.reply v, s)
  | .prepare f => (.reply (), s.prepare f)
  | .remark r => (.reply (), { s with remarks := s.remarks ++ [r] })
  | .hold => (.reply (), s)
  | .start t => let (a, s) := s.start inner t; (.reply a, s)
  | .anyHeld => (.reply s.held.isSome, s)
  | .letGo => let (a, s) := s.letGo inner; (.reply a, s)
  | .queueGet reply during => (.reply (), s.queueGet reply during)
  | .queuePost count reply during => (.reply (), s.queuePost count reply during)
  | .boot version => (.reply (), s.boot version)
  | .reboot => (.reply (), s.reboot)
  | .booted => (.reply s.booted, s)
  | .current => (.reply s.current, s)
  | .engage boot => let (b, s) := s.engage boot; (.reply b, s)
  | .disengage boot => (.reply (), s.disengage boot)
  | .status => (.reply s.world.status, s)
  | .loadConfig =>
    let (c, d) := s.world.device.loadConfig
    (.reply c, { s with world := { s.world with device := d } })
  | .tick => let (t, s) := s.tick; (.reply t, s)
  | .takeTick boot id => let (b, s) := s.inBoot boot (·.takeTick id); (.reply b, s)
  | .finishRound boot id => (.reply (), (s.inBoot boot fun w => ((), w.finishRound id)).2)
  | .loseWorker boot id => (.reply (), (s.inBoot boot fun w => ((), w.loseWorker id)).2)
  | .fireOnce => let (b, s) := s.fireOnce; (.reply b, s)
  | .confirmation => (.reply s.world.engine.validation.confirmation, s)
  | .attempted boot phase => (.reply (), (s.inBoot boot fun w => ((), w.attempted phase)).2)

end Stage

variable {ν : Type}

def playWith (inner : Player ν) (mayHold : Bool) {α : Type} :
    Part ν α → Stage ν → Halt ν α × Stage ν
  | .done a, s => (.finished a, s)
  | .died, s => (.died, s)
  | .step c next, s =>
    match c, mayHold with
    | .hold, true => (.held (next ()), s)
    | c, _ =>
      match s.turn inner c with
      | (.reply r, s) => playWith inner mayHold (next r) s
      | (.first p, s) =>
        match inner mayHold _ p s with
        | (.finished r, s) => playWith inner mayHold (next r) s
        | (.died, s) => (.died, s)
        | (.held rest, s) => (.held (rest >>= next), s)

/-- Plays to a depth; a part further in than that dies. -/
def play : (depth : Nat) → Player ν
  | 0 => fun _ _ _ s => (.died, s)
  | depth + 1 => fun mayHold _ p s => playWith (play depth) mayHold p s

/-- More levels than the hooks of a script reach. -/
def depthLimit : Nat := 10000

def Stage.run (s : Stage ν) (op : Op ν) : Answer ν × Stage ν :=
  match play depthLimit false _ (Part.answer op) { s with remarks := [] } with
  | (.finished a, s) => (a, s)
  | (.died, s) | (.held _, s) => (.died, s)

end FirmwareUpdate.Rehearsal
