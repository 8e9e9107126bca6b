import FirmwareUpdate.Cause

/-!
# Update errors

The classes of failure that the update engine tells its caller about, each with a code and a
message that starts with it.
-/

namespace FirmwareUpdate

inductive UpdateError where
  | alreadyEnabled
  | notEnabled
  | invalidConfig (why : String)
  | invalidState (why : String)
  | notFound (what : String)
  | outOfMemory
  | parse (why : String)
  | invalidJob (reason : String)
  | cloud (code : Int) (description : String)
  | http (status : Nat)
  | transport (cause : Cause)
  | storage (cause : Cause)
  | partition (cause : Cause)
  | timer (cause : Cause)
  | apply (why : String)
  deriving DecidableEq, Repr

namespace UpdateError

def code : UpdateError → String
  | alreadyEnabled => "ALREADY_ENABLED"
  | notEnabled => "NOT_ENABLED"
  | invalidConfig _ => "INVALID_ARG"
  | invalidState _ => "INVALID_STATE"
  | notFound _ => "NOT_FOUND"
  | outOfMemory => "NO_MEM"
  | parse _ => "PARSE"
  | invalidJob _ => "INVALID_JOB"
  | cloud .. => "CLOUD"
  | http _ => "HTTP"
  | transport _ => "TRANSPORT"
  | storage _ => "STORAGE"
  | partition _ => "PARTITION"
  | timer _ => "TIMER"
  | apply _ => "APPLY"

/-- What the platform gave as the reason, for the classes that wrap one. -/
def cause? : UpdateError → Option Cause
  | transport c | storage c | partition c | timer c => some c
  | _ => none

def detail : UpdateError → String
  | alreadyEnabled => "OTA engine already enabled"
  | notEnabled => "OTA engine not enabled"
  | outOfMemory => "allocation failed"
  | cloud code description => s!"error {code} ({description})"
  | http status => s!"unexpected status {status}"
  | transport c | storage c | partition c | timer c => c.full
  | invalidConfig why | invalidState why | notFound why | parse why | invalidJob why
  | apply why => why

def message (e : UpdateError) : String := e.code ++ ": " ++ e.detail

end UpdateError

end FirmwareUpdate
