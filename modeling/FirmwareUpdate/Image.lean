import FirmwareUpdate.Bytes
import FirmwareUpdate.Cause

/-!
# Image streams

A firmware image is read piece by piece. A served image can be told to hand out short pieces, to
break at some read, or never to end.
-/

namespace FirmwareUpdate

structure Image where
  data : Bytes
  /-- The most bytes that the first reads give; later reads have no limit. -/
  limits : List Nat
  breakAt : Option Nat
  breakCause : Cause
  /-- With a byte given, every read is filled with it. -/
  endless : Option UInt8
  deriving DecidableEq, Repr

def Image.plain (data : Bytes) : Image where
  data := data
  limits := []
  breakAt := none
  breakCause := .of ""
  endless := none

structure Source where
  image : Image
  rest : Bytes
  reads : Nat
  deriving DecidableEq, Repr

def Image.source (i : Image) : Source := ⟨i, i.data, 0⟩

/-- The next piece, of at most `room` bytes; an empty piece ends the stream. -/
def Source.read (room : Nat) (s : Source) : Except Cause (Bytes × Source) :=
  let after := { s with reads := s.reads + 1 }
  if s.image.breakAt = some s.reads then .error s.image.breakCause
  else
    match s.image.endless with
    | some b => .ok (List.replicate room b, after)
    | none =>
      let room :=
        match s.image.limits[s.reads]? with
        | some limit => min room limit
        | none => room
      .ok (s.rest.take room, { after with rest := s.rest.drop room })

end FirmwareUpdate
