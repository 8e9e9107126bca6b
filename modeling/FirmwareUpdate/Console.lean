import FirmwareUpdate.Text.Boundary

/-!
# Console

Log records on a serial console: one colored line a record, with a stamp, the level's letter and
the last part of the module's path. A record is printed if the verbosity allows its level.
-/

namespace FirmwareUpdate

inductive Level where
  | error
  | warn
  | info
  | debug
  | trace
  deriving DecidableEq, Repr

namespace Level

def rank : Level → Nat
  | error => 1
  | warn => 2
  | info => 3
  | debug => 4
  | trace => 5

def letter : Level → String
  | error => "E"
  | warn => "W"
  | info => "I"
  | debug => "D"
  | trace => "T"

def name : Level → String
  | error => "ERROR"
  | warn => "WARN"
  | info => "INFO"
  | debug => "DEBUG"
  | trace => "TRACE"

def color : Level → String
  | error => "\x1b[91m"
  | warn => "\x1b[93m"
  | info => "\x1b[92m"
  | debug => "\x1b[94m"
  | trace => "\x1b[90m"

end Level

/-- The least grave level that is printed; none prints nothing. -/
abbrev Verbosity := Option Level

namespace Verbosity

def allows (v : Verbosity) (l : Level) : Bool :=
  match v with
  | some most => l.rank ≤ most.rank
  | none => false

def name : Verbosity → String
  | some l => l.name
  | none => "OFF"

def ofName? (s : String) : Option Verbosity :=
  match s.map Char.toLower with
  | "off" => some none
  | "error" => some (some .error)
  | "warn" => some (some .warn)
  | "warning" => some (some .warn)
  | "info" => some (some .info)
  | "debug" => some (some .debug)
  | "trace" => some (some .trace)
  | _ => none

end Verbosity

namespace Console

def padLeft (width : Nat) (fill : Char) (s : String) : String :=
  String.ofList (List.replicate (width - s.length) fill) ++ s

/-- The time since boot: seconds and milliseconds below a minute, then minutes and seconds, then
hours and minutes. -/
def uptime (seconds millis : Nat) : String :=
  let blank (width n : Nat) := padLeft width ' ' (toString n)
  let zeros (width n : Nat) := padLeft width '0' (toString n)
  if seconds < 60 then blank 3 seconds ++ "." ++ zeros 3 millis ++ "s"
  else if seconds < 3600 then blank 2 (seconds / 60) ++ "m" ++ zeros 2 (seconds % 60) ++ "s"
  else blank 2 (seconds / 3600) ++ "h" ++ zeros 2 (seconds % 3600 / 60) ++ "m"

def backToColons : List Char → List Char
  | ':' :: ':' :: _ => []
  | c :: rest => c :: backToColons rest
  | [] => []

def lastSegment (path : String) : String :=
  String.ofList (backToColons path.toList.reverse).reverse

def moduleWidth : Nat := 12

/-- The module's name as it is printed, cut to the column's width in bytes; none when the cut falls
inside a character. -/
def shortModule? (path : Option String) : Option String :=
  match path with
  | some path => Text.cutAt? moduleWidth (lastSegment path)
  | none => some "unknown"

def line (stamp : String) (level : Level) (origin message : String) : String :=
  level.color ++ stamp ++ " [" ++ level.letter ++ "] " ++ padLeft moduleWidth ' ' origin ++ " | "
    ++ message ++ "\x1b[0m"

end Console

structure Console where
  installed : Bool
  verbosity : Verbosity
  deriving DecidableEq, Repr

namespace Console

def silent : Console := ⟨false, none⟩

/-- Sets the console up, with the level at `info`; the second time nothing changes and it fails. -/
def install (c : Console) : Bool × Console :=
  if c.installed then (false, c) else (true, ⟨true, some .info⟩)

def setVerbosity (c : Console) (name : String) : Bool × Console :=
  match Verbosity.ofName? name with
  | some v => (true, { c with verbosity := v })
  | none => (false, c)

def prints (c : Console) (l : Level) : Bool := c.installed && c.verbosity.allows l

end Console

end FirmwareUpdate
