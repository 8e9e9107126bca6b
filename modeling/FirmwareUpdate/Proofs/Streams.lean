import FirmwareUpdate.Agent
import FirmwareUpdate.Proofs.Fetches

/-!
# Streams of any kind

What a download reads from may be cut into pieces in any way, break off, or never end, and the slot may refuse
any piece. A download goes by the bytes alone: however they were cut, they are too few, too many, or the
image. It gives up at the first piece that is too much, so no stream holds it for long.
-/

namespace FirmwareUpdate

open Routine Activity

namespace Download

variable {σ : Type} {read : Nat → σ → Except Cause (Bytes × σ)} {size room : Nat}

/-! ## One pass after the other -/

/-- A read, and what was done with the piece that it gave. -/
inductive Pass where
  | broken (c : Cause)
  | ended
  | surplus (piece : Bytes)
  | refused (piece : Bytes) (c : Cause)
  | kept (piece : Bytes)

namespace Pass

def fetched : Pass → Bytes
  | broken _ | ended => []
  | surplus piece | refused piece _ | kept piece => piece

def handed : Pass → Bytes
  | broken _ | ended | surplus _ => []
  | refused piece _ | kept piece => piece

def failure? (size : Nat) : Pass → Option Cause
  | broken c | refused _ c => some c
  | surplus _ => some (larger size)
  | ended | kept _ => none

end Pass

/-- The passes of a download, and what it comes to. -/
inductive Passes (read : Nat → σ → Except Cause (Bytes × σ)) (size room : Nat) :
    Download σ → List Pass → Except Cause Unit → Download σ → Prop
  | broken {d : Download σ} {c : Cause} (hread : read room d.source = .error c) :
      Passes read size room d [.broken c] (.error c) d
  | ended {d : Download σ} {source : σ} (hread : read room d.source = .ok ([], source)) :
      Passes read size room d [.ended] (check size d.flash.offset) { d with source := source }
  | surplus {d : Download σ} {piece : Bytes} {source : σ} (hread : read room d.source = .ok (piece, source))
      (hlarge : size < d.flash.offset + piece.length) (hne : piece ≠ []) :
      Passes read size room d [.surplus piece] (.error (larger size)) { d with source := source }
  | refused {d : Download σ} {piece : Bytes} {source : σ} {c : Cause}
      (hread : read room d.source = .ok (piece, source)) (hfits : d.flash.offset + piece.length ≤ size)
      (hne : piece ≠ []) (hwrite : d.flash.write piece = .error c) :
      Passes read size room d [.refused piece c] (.error c) { d with source := source }
  | kept {d d' : Download σ} {piece : Bytes} {source : σ} {flash : Flash} {ps : List Pass} {r : Except Cause Unit}
      (hread : read room d.source = .ok (piece, source)) (hfits : d.flash.offset + piece.length ≤ size)
      (hne : piece ≠ []) (hwrite : d.flash.write piece = .ok flash)
      (hrest : Passes read size room (d.advance size source flash) ps r d') :
      Passes read size room d (.kept piece :: ps) r d'

theorem run_passes (read : Nat → σ → Except Cause (Bytes × σ)) (size room : Nat) (d : Download σ) :
    ∃ ps, Passes read size room d ps (d.run read size room).1 (d.run read size room).2 := by
  fun_induction run read size room d with
  | case1 d c hread => exact ⟨_, .broken hread⟩
  | case2 d piece source hread hempty =>
    rw [List.length_eq_zero_iff.mp hempty] at hread
    exact ⟨_, .ended hread⟩
  | case3 d piece source hread hne hlarge => exact ⟨_, .surplus hread hlarge (by simpa using hne)⟩
  | case4 d piece source hread hne hfits c hwrite =>
    exact ⟨_, .refused hread (by omega) (by simpa using hne) hwrite⟩
  | case5 d piece source hread hne hfits flash hwrite ih =>
    obtain ⟨ps, hrest⟩ := ih
    exact ⟨_, .kept hread (by omega) (by simpa using hne) hwrite hrest⟩

namespace Passes

variable {d d' : Download σ} {ps : List Pass} {r : Except Cause Unit}

/-- Every pass but the last adds a byte at least to what has been written. -/
theorem length_le (h : Passes read size room d ps r d') (hd : d.flash.offset ≤ size) :
    d.flash.offset + ps.length ≤ size + 1 := by
  induction h with
  | broken | ended | surplus | refused => simpa using hd
  | kept hread hfits hne hwrite hrest ih =>
    have hoffset := Flash.offset_of_write hwrite
    have hpos := List.length_pos_iff.mpr hne
    rw [flash_advance] at ih
    have hrest := ih (by omega)
    rw [List.length_cons]
    omega

theorem handed_le (h : Passes read size room d ps r d') (hd : d.flash.offset ≤ size) :
    d.flash.offset + (ps.flatMap Pass.handed).length ≤ size := by
  induction h with
  | broken | ended | surplus => simpa [Pass.handed] using hd
  | refused hread hfits => simpa [Pass.handed] using hfits
  | kept hread hfits hne hwrite hrest ih =>
    have hoffset := Flash.offset_of_write hwrite
    rw [flash_advance] at ih
    have hrest := ih (by omega)
    rw [List.flatMap_cons, List.length_append, Pass.handed]
    omega

/-- Only the last piece can go beyond the size that is expected. -/
theorem fetched_le (h : Passes read size room d ps r d')
    (hfit : ∀ s piece s', read room s = .ok (piece, s') → piece.length ≤ room) (hd : d.flash.offset ≤ size) :
    d.flash.offset + (ps.flatMap Pass.fetched).length ≤ size + room := by
  induction h with
  | broken | ended => simpa [Pass.fetched] using Nat.le_add_right_of_le hd
  | surplus hread | refused hread =>
    have hpiece := hfit _ _ _ hread
    simp only [List.flatMap_cons, List.flatMap_nil, List.append_nil, Pass.fetched]
    omega
  | kept hread hfits hne hwrite hrest ih =>
    have hoffset := Flash.offset_of_write hwrite
    rw [flash_advance] at ih
    have hrest := ih (by omega)
    rw [List.flatMap_cons, List.length_append, Pass.fetched]
    omega

theorem failed (h : Passes read size room d ps r d') {p : Pass} (hp : p ∈ ps) {c : Cause}
    (hc : p.failure? size = some c) : r = .error c := by
  induction h with
  | broken | surplus | refused =>
    obtain rfl := List.mem_singleton.mp hp
    cases hc
    rfl
  | ended =>
    obtain rfl := List.mem_singleton.mp hp
    cases hc
  | kept hread hfits hne hwrite hrest ih =>
    rcases List.mem_cons.mp hp with rfl | hp
    · cases hc
    · exact ih hp

end Passes

end Download

/-! ## A download within bounds -/

open Download

/-- No source gives more than fits into the buffer. -/
theorem Source.length_read_le {room : Nat} {s after : Source} {piece : Bytes}
    (h : s.read room = .ok (piece, after)) : piece.length ≤ room := by
  unfold read at h
  split at h
  · cases h
  · split at h
    · cases h
      exact Nat.le_of_eq List.length_replicate
    · cases h
      refine Nat.le_trans (List.length_take_le _ _) ?_
      split
      · exact Nat.min_le_left _ _
      · exact Nat.le_refl room

/-- Passes of a download: no more reads than a byte each and one more, and no piece beyond the expected size
but the last, which the slot does not get. What is counted fits into the counter after every read. -/
structure Download.Within (size room : Nat) (ps : List Pass) : Prop where
  reads : ps.length ≤ size + 1
  fetched : (ps.flatMap Pass.fetched).length ≤ size + room
  handed : (ps.flatMap Pass.handed).length ≤ size
  counted : ∀ n, ((ps.take n).flatMap Pass.fetched).length < UInt64.size

/-- An activity makes the passes of a download, within bounds, and changes no slot unless all of them went well. -/
def Bounded {A : Application} (b : Behaviour A) (w : World A) {σ : Type} (read : Nat → σ → Except Cause (Bytes × σ))
    (source : σ) (flash : Flash) (size room : Nat) (a : Activity A (Except Cause ImageSummary)) : Prop :=
  ∃ ps o w', Passes read size room (start source flash) ps ((start source flash).run read size room).1
      ((start source flash).run read size room).2 ∧
    Within size room ps ∧ a.run b w = (some o, w') ∧
    (∀ p ∈ ps, ∀ c, p.failure? size = some c → o = .error c) ∧ ∀ c, o = .error c → w'.device.slots = w.device.slots

section
variable {A : Application} (b : Behaviour A) (w : World A)

section
variable {σ : Type} {read : Nat → σ → Except Cause (Bytes × σ)} {source : σ} {flash : Flash} {size room : Nat}

theorem run_fillSlot_failed {c : Cause} (h : ((start source flash).run read size room).1 = .error c) :
    ∃ w', (fillSlot read source flash size room).run b w = (some (.error c), w') ∧
      w'.device.slots = w.device.slots := by
  obtain ⟨t, w', -, hslots, hfill⟩ := does_fillSlot b w read source flash size room
  cases hrun : (start source flash).run read size room with
  | mk r d =>
    rw [hrun] at h hfill
    cases h
    exact ⟨w', hfill.run_eq, hslots⟩

theorem run_fillSlot_written (h : ((start source flash).run read size room).1 = .ok ()) :
    ∃ w', (fillSlot read source flash size room).run b w =
        (some (.ok ⟨((start source flash).run read size room).2.flash.offset,
          Bytes.hex (Sha256.digest ((start source flash).run read size room).2.flash.image)⟩), w') ∧
      w'.device.slots = w.device.slots.stage ((start source flash).run read size room).2.flash.image := by
  obtain ⟨t, w', -, hslots, hfill⟩ := does_fillSlot b w read source flash size room
  cases hrun : (start source flash).run read size room with
  | mk r d =>
    rw [hrun] at h hfill
    cases h
    exact ⟨_, hfill.run_eq, congrArg (·.stage d.flash.image) hslots⟩

theorem bounded_fillSlot (hfit : ∀ s piece after, read room s = .ok (piece, after) → piece.length ≤ room)
    (hsize : size + room < UInt64.size) (hnew : flash.offset = 0) :
    Bounded b w read source flash size room (fillSlot read source flash size room) := by
  obtain ⟨ps, hpasses⟩ := run_passes read size room (start source flash)
  have hzero : (start source flash).flash.offset = 0 := hnew
  have hstart : (start source flash).flash.offset ≤ size := hzero ▸ Nat.zero_le size
  have hreads := hpasses.length_le hstart
  have hfetched := hpasses.fetched_le hfit hstart
  have hhanded := hpasses.handed_le hstart
  rw [hzero, Nat.zero_add] at hreads hfetched hhanded
  have hwithin : Within size room ps := by
    refine ⟨hreads, hfetched, hhanded, fun n => ?_⟩
    have hsplit := congrArg (fun ps => (ps.flatMap Pass.fetched).length) (ps.take_append_drop n)
    rw [List.flatMap_append, List.length_append] at hsplit
    omega
  have hfailed (r : Except Cause Unit) (hr : ((start source flash).run read size room).1 = r) :
      ∀ p ∈ ps, ∀ c, p.failure? size = some c → r = .error c :=
    fun p hp c hc => hr ▸ hpasses.failed hp hc
  cases hrun : ((start source flash).run read size room).1 with
  | error c =>
    obtain ⟨w', hrun', hslots⟩ := run_fillSlot_failed b w hrun
    refine ⟨ps, .error c, w', hpasses, hwithin, hrun', fun p hp c' hc => ?_, fun _ _ => hslots⟩
    exact congrArg Except.error (Except.error.inj (hfailed _ hrun p hp c' hc))
  | ok =>
    obtain ⟨w', hrun', -⟩ := run_fillSlot_written b w hrun
    refine ⟨ps, _, w', hpasses, hwithin, hrun', fun p hp c hc => ?_, fun _ hc => nomatch hc⟩
    exact nomatch hfailed _ hrun p hp c hc

end

theorem run_downloadAndFlash {job : Job} {chunkSize : Nat} {source : Source}
    (hsource : w.device.network.openImage job.url = .ok source) (hopens : w.device.faults.openUpdate = false)
    (hroom : max chunkSize 1 ≤ bufferLimit) :
    (downloadAndFlash job chunkSize).run b w =
      (fillSlot Source.read source (.opened w.device.slots.failWrites) job.size (max chunkSize 1)).run b w := by
  have hbuffer : ¬ bufferLimit < max chunkSize 1 := Nat.not_lt.mpr hroom
  simp [downloadAndFlash, Activity.run, perform, Routine.run, World.perform, Device.openUpdate, hsource, hopens,
    hbuffer]

/-- Whatever is read from, and whatever the slot refuses to write, a download ends within bounds. -/
theorem download_bounded :
    (∀ {σ : Type} (read : Nat → σ → Except Cause (Bytes × σ)) (source : σ) (fault : Nat → Option Cause)
        (size room : Nat), (∀ s piece after, read room s = .ok (piece, after) → piece.length ≤ room) →
      size + room < UInt64.size →
      Bounded b w read source (.openedWith fault) size room (fillSlot read source (.openedWith fault) size room)) ∧
    ∀ (job : Job) (chunkSize : Nat) (source : Source), w.device.network.openImage job.url = .ok source →
      w.device.faults.openUpdate = false → max chunkSize 1 ≤ bufferLimit →
      job.size + max chunkSize 1 < UInt64.size →
      Bounded b w Source.read source (.opened w.device.slots.failWrites) job.size (max chunkSize 1)
        (downloadAndFlash job chunkSize) := by
  refine ⟨fun read source fault size room hfit hsize => bounded_fillSlot b w hfit hsize rfl, ?_⟩
  intro job chunkSize source hsource hopens hroom hsize
  unfold Bounded
  rw [run_downloadAndFlash b w hsource hopens hroom]
  exact bounded_fillSlot b w (fun _ _ _ => Source.length_read_le) hsize rfl

end

def serving (image : Image) : World Agent.application :=
  let d := Device.fresh .valid
  .boot { d with network := d.network.serve "u" image } "1.0.0"

def fourBytes : Job := ⟨"B", "u", 4, none, none⟩

def endless : Image := { Image.plain [] with endless := some 0xff }

theorem download_bounded_endless :
    (serving endless).device.network.openImage "u" = .ok endless.source ∧
    (serving endless).device.faults.openUpdate = false ∧ max 3 1 ≤ bufferLimit ∧ 4 + max 3 1 < UInt64.size ∧
    Bounded Agent.behaviour (serving endless) Source.read endless.source (.opened false) 4 3
      (downloadAndFlash fourBytes 3) ∧
    -- a slot that refuses its second write
    Bounded Agent.behaviour (serving endless) (fun room n => .ok (List.replicate room 0xff, n + 1)) 0
      (.openedWith fun offset => if offset = 3 then some (.of "worn out") else none) 7 3
      (fillSlot (fun room n => .ok (List.replicate room 0xff, n + 1)) 0
        (.openedWith fun offset => if offset = 3 then some (.of "worn out") else none) 7 3) := by
  obtain ⟨hfill, hdownload⟩ := download_bounded Agent.behaviour (serving endless)
  have hserved : (serving endless).device.network.openImage "u" = .ok endless.source := rfl
  refine ⟨hserved, rfl, by decide, by decide, ?_, ?_⟩
  · exact hdownload fourBytes 3 endless.source hserved rfl (by decide) (by decide)
  · refine hfill _ 0 _ 7 3 (fun n piece after h => ?_) (by decide)
    cases h
    exact Nat.le_of_eq List.length_replicate

/-! ## However it is cut -/

def outcomeOf (size : Nat) (image : Bytes) (slots : Slots) : Except Cause ImageSummary × Slots :=
  if image.length = 0 then (.error empty, slots)
  else if image.length < size then (.error (mismatch size image.length), slots)
  else if size < image.length then (.error (larger size), slots)
  else (.ok ⟨image.length, Bytes.hex (Sha256.digest image)⟩, slots.stage image)

section
variable {A : Application} (b : Behaviour A) (w : World A)

theorem run_fillSlot_delivers {σ : Type} {read : Nat → σ → Except Cause (Bytes × σ)} {source : σ}
    {pieces : List Bytes} {room : Nat} (h : Delivers read room source pieces) (size : Nat) :
    ∃ w', (fillSlot read source (.opened false) size room).run b w =
        (some (outcomeOf size pieces.flatten w.device.slots).1, w') ∧
      w'.device.slots = (outcomeOf size pieces.flatten w.device.slots).2 := by
  have hrun := run_delivers (d := start source (.opened false)) h rfl (fun _ => rfl) (Nat.zero_le size)
  have hzero : (start source (.opened false)).flash.offset = 0 := rfl
  have himage : (start source (.opened false)).flash.image = [] := rfl
  rw [hzero, himage, Nat.zero_add, List.nil_append] at hrun
  obtain ⟨hlarge, hall⟩ := hrun
  generalize pieces.flatten = image at hlarge hall
  rcases Nat.lt_trichotomy image.length size with hlt | rfl | hgt
  · obtain ⟨hcheck, -⟩ := hall (Nat.le_of_lt hlt)
    rw [check_of_lt hlt] at hcheck
    have hcomes : outcomeOf size image w.device.slots =
        (.error (if image.length = 0 then empty else mismatch size image.length), w.device.slots) := by
      unfold outcomeOf
      rw [if_pos hlt]
      split <;> rfl
    rw [hcomes]
    exact run_fillSlot_failed b w hcheck
  · obtain ⟨hcheck, hoffset, himage⟩ := hall (Nat.le_refl _)
    rw [check_self] at hcheck
    by_cases hempty : image.length = 0
    · rw [if_pos hempty] at hcheck
      rw [outcomeOf, if_pos hempty]
      exact run_fillSlot_failed b w hcheck
    · rw [if_neg hempty] at hcheck
      rw [outcomeOf, if_neg hempty, if_neg (Nat.lt_irrefl _), if_neg (Nat.lt_irrefl _)]
      have hwritten := run_fillSlot_written b w hcheck
      rwa [hoffset, himage] at hwritten
  · rw [outcomeOf, if_neg (Nat.ne_of_gt (Nat.zero_lt_of_lt hgt)), if_neg (Nat.not_lt.mpr (Nat.le_of_lt hgt)),
      if_pos hgt]
    exact run_fillSlot_failed b w (hlarge hgt)

/-- However a stream is cut into pieces, its download comes to what the bytes come to. -/
theorem download_of_pieces :
    (∀ {σ : Type} (read : Nat → σ → Except Cause (Bytes × σ)) (source : σ) (pieces : List Bytes) (size room : Nat),
      Delivers read room source pieces →
      ∃ w', (fillSlot read source (.opened false) size room).run b w =
          (some (outcomeOf size pieces.flatten w.device.slots).1, w') ∧
        w'.device.slots = (outcomeOf size pieces.flatten w.device.slots).2) ∧
    ∀ (job : Job) (chunkSize : Nat) (source : Source) (pieces : List Bytes),
      w.device.network.openImage job.url = .ok source → w.device.faults.openUpdate = false →
      w.device.slots.failWrites = false → max chunkSize 1 ≤ bufferLimit →
      Delivers Source.read (max chunkSize 1) source pieces →
      ∃ w', (downloadAndFlash job chunkSize).run b w =
          (some (outcomeOf job.size pieces.flatten w.device.slots).1, w') ∧
        w'.device.slots = (outcomeOf job.size pieces.flatten w.device.slots).2 := by
  refine ⟨fun read source pieces size room h => run_fillSlot_delivers b w h _, ?_⟩
  intro job chunkSize source pieces hsource hopens hwrites hroom h
  rw [run_downloadAndFlash b w hsource hopens hroom, hwrites]
  exact run_fillSlot_delivers b w h _

end

def shortReads : Image := { Image.plain [1, 2, 3, 4] with limits := [1, 2] }

theorem download_of_pieces_shortReads :
    (serving shortReads).device.network.openImage "u" = .ok shortReads.source ∧
    (serving shortReads).device.faults.openUpdate = false ∧ (serving shortReads).device.slots.failWrites = false ∧
    max 3 1 ≤ bufferLimit ∧ Delivers Source.read 3 shortReads.source [[1], [2, 3], [4]] ∧
    (∃ w', (downloadAndFlash fourBytes 3).run Agent.behaviour (serving shortReads) =
        (some (.ok ⟨4, Bytes.hex (Sha256.digest [1, 2, 3, 4])⟩), w') ∧
      w'.device.slots = (serving shortReads).device.slots.stage [1, 2, 3, 4]) ∧
    ∃ w', (fillSlot Source.read shortReads.source (.opened false) 5 3).run Agent.behaviour (serving shortReads) =
        (some (.error (mismatch 5 4)), w') ∧ w'.device.slots = (serving shortReads).device.slots := by
  obtain ⟨hfill, hdownload⟩ := download_of_pieces Agent.behaviour (serving shortReads)
  have hserved : (serving shortReads).device.network.openImage "u" = .ok shortReads.source := rfl
  have hpieces : Delivers Source.read 3 shortReads.source [[1], [2, 3], [4]] :=
    .piece rfl (by decide) (by decide) (.piece rfl (by decide) (by decide)
      (.piece rfl (by decide) (by decide) (.ended rfl)))
  exact ⟨hserved, rfl, rfl, by decide, hpieces,
    hdownload fourBytes 3 shortReads.source _ hserved rfl rfl (by decide) hpieces,
    hfill Source.read shortReads.source _ 5 3 hpieces⟩

end FirmwareUpdate
