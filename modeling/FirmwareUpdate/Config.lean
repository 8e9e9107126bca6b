import FirmwareUpdate.Json.Printer
import FirmwareUpdate.Json.Record

/-!
# Configuration

Six settings with defaults. They are kept as a JSON record in which any of them may be missing.
-/

namespace FirmwareUpdate

structure Config where
  /-- Hours between two unprompted fetches; zero for none. -/
  autofetchPeriodHours : UInt32
  rollbackTimeoutSecs : UInt32
  confirmRetryIntervalMs : UInt64
  applyTaskStackSize : UInt64
  downloadChunkSize : UInt64
  restartAfterApply : Bool
  deriving DecidableEq, Repr

inductive ConfigFault where
  | noRollbackTimeout
  | noRetryInterval
  | stackTooSmall (size : UInt64)
  | noChunkSize
  deriving DecidableEq, Repr

namespace Config

def default : Config where
  autofetchPeriodHours := 24
  rollbackTimeoutSecs := 90
  confirmRetryIntervalMs := 5000
  applyTaskStackSize := 8192
  downloadChunkSize := 4096
  restartAfterApply := true

def leastStack : UInt64 := 4096

end Config

def ConfigFault.text : ConfigFault → String
  | noRollbackTimeout => "rollback timeout must be at least one second"
  | noRetryInterval => "confirmation retry interval cannot be zero"
  | stackTooSmall size =>
    s!"apply task stack must be at least {Config.leastStack.toNat} bytes (got {size.toNat})"
  | noChunkSize => "download chunk size cannot be zero"

namespace Config

def fault? (c : Config) : Option ConfigFault :=
  if c.rollbackTimeoutSecs = 0 then some .noRollbackTimeout
  else if c.confirmRetryIntervalMs = 0 then some .noRetryInterval
  else if c.applyTaskStackSize < leastStack then some (.stackTooSmall c.applyTaskStackSize)
  else if c.downloadChunkSize = 0 then some .noChunkSize
  else none

def autofetchPeriod (c : Config) : Option Nat :=
  if c.autofetchPeriodHours = 0 then none else some (c.autofetchPeriodHours.toNat * 3600)

open Json (Tree)

def fieldNames : List String :=
  ["autofetch_period_hours", "rollback_timeout_secs", "confirm_retry_interval_ms",
   "apply_task_stack_size", "download_chunk_size", "restart_after_apply"]

def word32 (ifMissing : UInt32) (t : Option Tree) : Option UInt32 :=
  Tree.withDefault ifMissing (fun t => (t.unsigned? 32).map UInt32.ofNat) t

def word64 (ifMissing : UInt64) (t : Option Tree) : Option UInt64 :=
  Tree.withDefault ifMissing (fun t => (t.unsigned? 64).map UInt64.ofNat) t

/-- The configuration that a tree spells; what is missing has its default. -/
def ofTree? (t : Tree) : Option Config := do
  match ← t.fields? fieldNames with
  | [hours, timeout, interval, stack, chunk, restart] =>
    return {
      autofetchPeriodHours := ← word32 default.autofetchPeriodHours hours
      rollbackTimeoutSecs := ← word32 default.rollbackTimeoutSecs timeout
      confirmRetryIntervalMs := ← word64 default.confirmRetryIntervalMs interval
      applyTaskStackSize := ← word64 default.applyTaskStackSize stack
      downloadChunkSize := ← word64 default.downloadChunkSize chunk
      restartAfterApply := ← Tree.withDefault default.restartAfterApply Tree.bool? restart }
  | _ => none

def ofBytes? (bs : Bytes) : Option Config := do
  ofTree? (← Tree.ofBytes? bs)

def render (c : Config) : Bytes :=
  let number (n : Nat) := Bytes.ofText (toString n)
  Json.braces (fieldNames.zip
    [number c.autofetchPeriodHours.toNat, number c.rollbackTimeoutSecs.toNat,
     number c.confirmRetryIntervalMs.toNat, number c.applyTaskStackSize.toNat,
     number c.downloadChunkSize.toNat, Json.renderBool c.restartAfterApply])

end Config

end FirmwareUpdate
