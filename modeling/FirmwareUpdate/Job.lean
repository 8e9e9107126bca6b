import FirmwareUpdate.Json.Record
import FirmwareUpdate.UpdateError

/-!
# Jobs

A fetch is answered with a job, with the news that there is none, or with an error code. The answer
is a record of seven optional fields; an error code decides over all others, and a job must have an
id, a place to load the image from and the image's size.
-/

namespace FirmwareUpdate

structure Job where
  id : String
  url : String
  size : Nat
  version : Option String
  /-- Opaque; handed to the application as it came. -/
  metadata : Option Json.Value

inductive Rejection where
  | missingId
  | missingUrl
  | missingSize
  deriving DecidableEq, Repr

def Rejection.reason : Rejection → String
  | missingId => "Job id not found"
  | missingUrl => "URL not found"
  | missingSize => "File size not found"

def payloadErrorReason : String := "Aborted. JSON Payload error"

def noUpdateCode : Int := 105065

inductive Payload where
  | job (j : Job)
  | noUpdate
  | rejected (id : Option String) (r : Rejection)

structure FetchAnswer where
  jobId : Option String
  url : Option String
  size : Option Nat
  version : Option String
  metadata : Option Json.Value
  errorCode : Option Int
  description : Option String

namespace FetchAnswer

open Json (Tree)

def fieldNames : List String :=
  ["ota_job_id", "url", "file_size", "fw_version", "metadata", "error_code", "description"]

/-- The answer that a tree spells. Metadata is kept inside the record, which is one container. -/
def ofTree? (t : Tree) : Option FetchAnswer := do
  match ← t.fields? fieldNames with
  | [jobId, url, size, version, metadata, errorCode, description] =>
    return {
      jobId := ← Tree.optional Tree.text? jobId
      url := ← Tree.optional Tree.text? url
      size := ← Tree.optional (Tree.unsigned? 64) size
      version := ← Tree.optional Tree.text? version
      metadata := ← Tree.optional (Json.Value.ofTree? (Json.depthLimit - 1)) metadata
      errorCode := ← Tree.optional Tree.signed? errorCode
      description := ← Tree.optional Tree.text? description }
  | _ => none

def ofBytes? (body : Bytes) : Option FetchAnswer := do
  ofTree? (← Tree.ofBytes? body)

def present (s : Option String) : Option String := s.filter (· != "")

def payload (a : FetchAnswer) : Except UpdateError Payload :=
  match a.errorCode with
  | some code =>
    if code = noUpdateCode then .ok .noUpdate
    else .error (.cloud code (a.description.getD "unknown error"))
  | none =>
    match present a.jobId with
    | none => .ok (.rejected none .missingId)
    | some id =>
      match present a.url with
      | none => .ok (.rejected (some id) .missingUrl)
      | some url =>
        match a.size with
        | none => .ok (.rejected (some id) .missingSize)
        | some size => .ok (.job ⟨id, url, size, a.version, a.metadata⟩)

end FetchAnswer

def Payload.ofBytes (body : Bytes) : Except UpdateError Payload :=
  match FetchAnswer.ofBytes? body with
  | some a => a.payload
  | none => .error (.parse "the body is no fetch answer")

/-- The job id of a body that is JSON but no answer, so that its rejection can name the job. -/
def salvageJobId (body : Bytes) : Option String := do
  let v ← Json.Value.ofBytes? body
  FetchAnswer.present (← v.member? "ota_job_id").text?

end FirmwareUpdate
