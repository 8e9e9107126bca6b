import FirmwareUpdate.Json.Printer
import FirmwareUpdate.Text.Boundary

/-!
# Status reports

The service is told how a job is going by a JSON object of three texts. The additional information
is cut to 128 bytes, between two characters.
-/

namespace FirmwareUpdate

inductive JobStatus where
  | accepted
  | inProgress
  | success
  | rejected
  | delayed
  deriving DecidableEq, Repr

def JobStatus.word : JobStatus → String
  | accepted => "accepted"
  | inProgress => "in_progress"
  | success => "success"
  | rejected => "rejected"
  | delayed => "delayed"

namespace Report

def path : String := "otastatus"

/-- The most bytes of information that are sent. -/
def infoLimit : Nat := 128

def body (id : String) (status : JobStatus) (info : String) : Bytes :=
  Json.braces
    [("ota_job_id", Json.quote id),
     ("status", Json.quote status.word),
     ("additional_info", Json.quote (Text.takeBytes infoLimit info))]

end Report

end FirmwareUpdate
