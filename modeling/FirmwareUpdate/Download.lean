import FirmwareUpdate.Image
import FirmwareUpdate.Slots

/-!
# Downloads

An image is read piece by piece and written to the inactive slot. A piece that would exceed the
expected size ends the download before it is written, so the stream need not end by itself. A line
of progress is due whenever another tenth of the image has been written.
-/

namespace FirmwareUpdate

/-- Another tenth of the image, or several at once. -/
structure Progress where
  percent : Nat
  written : Nat
  size : Nat
  deriving DecidableEq, Repr

structure ImageSummary where
  bytes : Nat
  sha256 : String
  deriving DecidableEq, Repr

structure Download (σ : Type) where
  source : σ
  flash : Flash
  tenths : Nat
  told : List Progress

namespace Flash

theorem offset_of_write {f g : Flash} {chunk : Bytes} (h : f.write chunk = .ok g) :
    g.offset = f.offset + chunk.length := by
  simp only [write] at h
  split at h
  · cases h
  · cases h; rfl

end Flash

namespace Download

def start (source : σ) (flash : Flash) : Download σ := ⟨source, flash, 0, []⟩

def counterLimit : Nat := UInt64.size - 1

/-- Tenths of the expected size, at most ten. -/
def tenthsOf (written size : Nat) : Nat := min (min (written * 10) counterLimit / size) 10

def advance (d : Download σ) (size : Nat) (source : σ) (flash : Flash) : Download σ :=
  let tenths := tenthsOf flash.offset size
  if 0 < size ∧ d.tenths < tenths then
    ⟨source, flash, tenths, ⟨tenths * 10, flash.offset, size⟩ :: d.told⟩
  else { d with source := source, flash := flash }

theorem flash_advance (d : Download σ) (size : Nat) (source : σ) (flash : Flash) :
    (d.advance size source flash).flash = flash := by
  simp only [advance]
  split <;> rfl

def larger (size : Nat) : Cause := .of s!"image larger than expected {size} bytes"

def empty : Cause := .of "image download returned 0 bytes"

def mismatch (size written : Nat) : Cause :=
  .of s!"image size mismatch: expected {size}, got {written}"

def check (size written : Nat) : Except Cause Unit :=
  if written = 0 then .error empty
  else if written ≠ size then .error (mismatch size written)
  else .ok ()

/-- Reads to the end of the stream, in pieces of at most `room` bytes. -/
def run (read : Nat → σ → Except Cause (Bytes × σ)) (size room : Nat) (d : Download σ) :
    Except Cause Unit × Download σ :=
  match read room d.source with
  | .error c => (.error c, d)
  | .ok (piece, source) =>
    if piece.length = 0 then (check size d.flash.offset, { d with source := source })
    else if size < d.flash.offset + piece.length then
      (.error (larger size), { d with source := source })
    else
      match _written : d.flash.write piece with
      | .error c => (.error c, { d with source := source })
      | .ok flash => run read size room (d.advance size source flash)
termination_by size - d.flash.offset
decreasing_by
  rw [flash_advance, Flash.offset_of_write _written]
  omega

end Download

end FirmwareUpdate
