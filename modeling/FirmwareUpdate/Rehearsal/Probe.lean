import FirmwareUpdate.Engine.Clock
import FirmwareUpdate.Json.Value

/-!
# Probes

Parts of the device tried by themselves: what was posted, an image stream, the inactive slot, and
the validation of a boot without anything around it.
-/

namespace FirmwareUpdate

def Post.json (p : Post) : Json.Value := (Json.Value.ofBytes? p.body).getD .null

def Network.reportsWith (n : Network) (status : String) : List Json.Value :=
  (n.posts.map Post.json).filter fun v => (v.member? "status").bind Json.Value.text? == some status

def Network.plainImage (n : Network) (url : String) : Except Cause Source :=
  (n.openImage url).map fun source => (Image.plain source.image.data).source

/-- Reads with buffers of the given sizes, filled with zeros before: for each the number of bytes
read and the whole buffer. -/
def Source.buffers (s : Source) : List Nat → Except Cause (List (Nat × Bytes))
  | [] => .ok []
  | room :: rooms =>
    match s.read room with
    | .error c => .error c
    | .ok (piece, s) =>
      let buffer := piece ++ List.replicate (room - piece.length) 0
      (s.buffers rooms).map ((piece.length, buffer) :: ·)

def Slots.flash (s : Slots) (pieces : List Bytes) (abort : Option Cause) :
    Except Cause Unit × Slots :=
  match pieces.foldlM Flash.write (.opened s.failWrites), abort with
  | .error c, _ => (.error c, s)
  | .ok _, some c => (.error c, s)
  | .ok flash, none => (.ok (), s.stage flash.image)

namespace Rehearsal

abbrev foretold : Application := ⟨Empty, Diagnosis⟩

def foretoldBehaviour : Behaviour foretold where
  decide handler := nomatch handler
  diagnose result w := (result, w)

def validateBoot (test : Option Diagnosis) (config : Config) (deadline : Nat) (d : Device) :
    Option (Except UpdateError ValidationState) × World foretold :=
  let w : World foretold := .boot d ""
  let (result, w) := Activity.run foretoldBehaviour (Activity.validate test config) w
  (result.join, w.awaitConfirmation foretoldBehaviour deadline)

inductive MarkCall where
  | valid
  | invalid
  | wait
  deriving DecidableEq, Repr

structure Mark where
  /-- None if the call only asks. -/
  result : Option (Except UpdateError Unit)
  status : EngineStatus

def marks (w : World foretold) : List MarkCall → List Mark × World foretold
  | [] => ([], w)
  | call :: calls =>
    let (result, w) : Option (Except UpdateError Unit) × World foretold :=
      match call with
      | .valid => let (r, w) := w.markValid; (some r, w)
      | .invalid => let (r, w) := w.markInvalid; (some r, w)
      | .wait => (none, w)
    let (rest, after) := marks w calls
    (⟨result, w.status⟩ :: rest, after)

def markBoot (calls : List MarkCall) (d : Device) : List Mark × Device :=
  let (ms, w) := marks (.boot d "") calls
  (ms, { w.device with timers := d.timers })

end Rehearsal

end FirmwareUpdate
