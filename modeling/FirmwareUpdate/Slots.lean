import FirmwareUpdate.Bytes
import FirmwareUpdate.Cause

/-!
# Boot slots

The bootloader's view: the running image and its state, an image staged for the next boot, and
whether a rollback to the previous image has been asked for. Calls are counted.
-/

namespace FirmwareUpdate

/-- What the bootloader knows about the running image. -/
inductive SlotState where
  | pendingVerify
  | valid
  | invalid
  | undefined
  deriving DecidableEq, Repr

def SlotState.name : SlotState → String
  | pendingVerify => "PendingVerify"
  | valid => "Valid"
  | invalid => "Invalid"
  | undefined => "Undefined"

inductive Reboot where
  | previousImage
  | newImage
  | sameImage
  deriving DecidableEq, Repr

structure Slots where
  running : SlotState
  image : Bytes
  staged : Option Bytes
  rollbackRequested : Bool
  failWrites : Bool
  markValidCalls : Nat
  rollbackCalls : Nat
  restartCalls : Nat
  imagesFlashed : Nat
  deriving DecidableEq, Repr

namespace Slots

def booted (running : SlotState) : Slots where
  running := running
  image := []
  staged := none
  rollbackRequested := false
  failWrites := false
  markValidCalls := 0
  rollbackCalls := 0
  restartCalls := 0
  imagesFlashed := 0

/-- Marks the running image valid; refused once it has been marked invalid. -/
def markValid (s : Slots) : Except Cause Unit × Slots :=
  let s := { s with markValidCalls := s.markValidCalls + 1 }
  if s.running = .invalid then (.error (.of "running image already marked invalid"), s)
  else (.ok (), { s with running := .valid })

def rollback (s : Slots) : Slots :=
  { s with rollbackCalls := s.rollbackCalls + 1, running := .invalid, rollbackRequested := true }

def stage (s : Slots) (image : Bytes) : Slots :=
  { s with staged := some image, imagesFlashed := s.imagesFlashed + 1 }

def restart (s : Slots) : Slots := { s with restartCalls := s.restartCalls + 1 }

/-- The next boot: a requested rollback goes before a staged image. -/
def reboot (s : Slots) : Reboot × Slots :=
  if s.rollbackRequested then
    (.previousImage, { s with rollbackRequested := false, staged := none, running := .valid })
  else
    match s.staged with
    | some image => (.newImage, { s with staged := none, image := image, running := .pendingVerify })
    | none => (.sameImage, s)

end Slots

structure Flash where
  written : List Bytes
  offset : Nat
  /-- Why a write at an offset fails, if it does. -/
  fault : Nat → Option Cause

namespace Flash

def openedWith (fault : Nat → Option Cause) : Flash := ⟨[], 0, fault⟩

def writeFault (failing : Bool) (offset : Nat) : Option Cause :=
  if failing then some (.of s!"flash write failed at offset {offset}") else none

def opened (failing : Bool) : Flash := openedWith (writeFault failing)

def write (f : Flash) (chunk : Bytes) : Except Cause Flash :=
  match f.fault f.offset with
  | some c => .error c
  | none => .ok { f with written := chunk :: f.written, offset := f.offset + chunk.length }

def image (f : Flash) : Bytes := f.written.reverse.flatten

end Flash

end FirmwareUpdate
