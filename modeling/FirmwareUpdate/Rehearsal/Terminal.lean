import FirmwareUpdate.Console

/-!
# A terminal session

A console by itself: it is set up, its verbosity is set, and records are given to it. A record whose
module name cannot be cut to the column's width ends the session before it is printed.
-/

namespace FirmwareUpdate.Rehearsal

inductive Entry where
  | setVerbosity (name : String)
  | record (level : Level) (path : Option String) (message : String)
  deriving DecidableEq, Repr

namespace Terminal

def install : Nat → Console → List Bool × Console
  | 0, c => ([], c)
  | n + 1, c =>
    let (ok, c) := c.install
    let (rest, c) := install n c
    (ok :: rest, c)

def session (stamp : String) : Console → List Entry → List String
  | _, [] => []
  | c, .setVerbosity name :: rest =>
    let (ok, c) := c.setVerbosity name
    s!"set {ok}" :: session stamp c rest
  | c, .record level path message :: rest =>
    if c.prints level then
      match Console.shortModule? path with
      | some name => Console.line stamp level name message :: session stamp c rest
      | none => []
    else session stamp c rest

/-- A session on a console that is set up so many times before. -/
def run (stamp : String) (installs : Nat) (entries : List Entry) : List String :=
  let (oks, c) := install installs .silent
  oks.map (fun ok => if ok then "init ok" else "init error") ++ session stamp c entries

end Terminal

end FirmwareUpdate.Rehearsal
