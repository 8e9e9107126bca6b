import FirmwareUpdate.Text.Quoted

/-!
# Outcomes

What an application does with a job, what a fetch comes to, and how far the validation of the
running image has got.
-/

namespace FirmwareUpdate

inductive ApplyOutcome where
  | applied
  | deferred (reason : String)
  | rejected (reason : String)
  deriving DecidableEq, Repr

inductive FetchOutcome where
  | noUpdate
  /-- The job whose image waits for a reboot. -/
  | applied (id : String)
  | deferred (reason : String)
  | rejected (reason : String)
  deriving DecidableEq, Repr

def FetchOutcome.text : FetchOutcome → String
  | noUpdate => "NoUpdate"
  | applied id => "Applied(" ++ Text.quoted id ++ ")"
  | deferred reason => "Deferred(" ++ Text.quoted reason ++ ")"
  | rejected reason => "Rejected(" ++ Text.quoted reason ++ ")"

inductive ValidationState where
  | init
  | pendingVerify
  | validating
  | valid
  | invalid
  | notOtaBoot
  deriving DecidableEq, Repr

def ValidationState.name : ValidationState → String
  | init => "Init"
  | pendingVerify => "PendingVerify"
  | validating => "Validating"
  | valid => "Valid"
  | invalid => "Invalid"
  | notOtaBoot => "NotOtaBoot"

end FirmwareUpdate
