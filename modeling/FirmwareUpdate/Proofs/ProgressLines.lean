import FirmwareUpdate.Proofs.Streams

/-!
# Lines of progress

While an image is written, a line is told whenever another tenth of it has been reached. However the stream is cut
into pieces, the lines tell of multiples of ten per cent that grow, each the greatest that has been reached by then,
and the whole hundred exactly when all of the image has been written.
-/

namespace FirmwareUpdate

open Routine Activity

namespace Download

variable {σ : Type} {read : Nat → σ → Except Cause (Bytes × σ)} {size room : Nat}

/-- How many bytes have been written after each piece that was kept. -/
def countsFrom (offset : Nat) : List Pass → List Nat
  | .kept piece :: ps => (offset + piece.length) :: countsFrom (offset + piece.length) ps
  | _ => []

structure Telling (size : Nat) (counts : List Nat) (lines : List Progress) : Prop where
  sized : ∀ p ∈ lines, p.size = size
  moments : (lines.map (·.written)).Sublist counts
  tenths : ∀ p ∈ lines, ∃ k, p.percent = 10 * k ∧ 1 ≤ k ∧ k ≤ 10
  rising : lines.Pairwise fun p q => p.percent < q.percent
  /-- No greater multiple of ten has been reached. -/
  greatest : ∀ p ∈ lines, p.percent * size ≤ 100 * p.written ∧ 100 * p.written < (p.percent + 10) * size
  /-- What has been reached has been told. -/
  current : ∀ c ∈ counts, size ≤ 10 * c → ∃ p ∈ lines, p.written ≤ c ∧ 100 * c < (p.percent + 10) * size
  whole : (∃ p ∈ lines, p.percent = 100) ↔ size ∈ counts
  written : ∀ p ∈ lines, p.percent = 100 ↔ p.written = size

structure Accounted (size : Nat) (counts : List Nat) (d : Download σ) : Prop where
  telling : Telling size counts d.told.reverse
  offset : counts.getLastD 0 = d.flash.offset
  tenths : d.tenths = 10 * d.flash.offset / size
  told : ∀ p ∈ d.told, p.percent ≤ 10 * d.tenths ∧ p.written ≤ d.flash.offset
  newest : 0 < d.tenths → ∃ p ∈ d.told, p.percent = 10 * d.tenths

theorem tenthsOf_eq {written : Nat} (h : written ≤ size) (hsize : 10 * size < UInt64.size) :
    tenthsOf written size = 10 * written / size := by
  have hlimit : min (written * 10) counterLimit = 10 * written := by
    unfold counterLimit
    omega
  have hten : 10 * written / size ≤ 10 := by
    rcases Nat.eq_zero_or_pos size with rfl | hpos
    · simp
    · exact Nat.div_le_of_le_mul (by omega)
  rw [tenthsOf, hlimit, Nat.min_eq_left hten]

theorem accounted_start (source : σ) {flash : Flash} (hnew : flash.offset = 0) :
    (start source flash).Accounted size [] where
  telling := ⟨nofun, .slnil, nofun, .nil, nofun, nofun, by simp [start], nofun⟩
  offset := hnew.symm
  tenths := by simp [start, hnew]
  told := nofun
  newest h := nomatch h

namespace Telling

variable {counts : List Nat} {lines : List Progress}

/-- Nothing is to be told as long as no greater multiple has been reached. -/
theorem silent (h : Telling size counts lines) {c : Nat} (hc : c ≠ size)
    (hcurrent : size ≤ 10 * c → ∃ p ∈ lines, p.written ≤ c ∧ 100 * c < (p.percent + 10) * size) :
    Telling size (counts ++ [c]) lines where
  sized := h.sized
  moments := h.moments.trans (List.sublist_append_left _ _)
  tenths := h.tenths
  rising := h.rising
  greatest := h.greatest
  current := List.forall_mem_append.mpr ⟨h.current, List.forall_mem_singleton.mpr hcurrent⟩
  whole := by
    rw [h.whole, List.mem_append, List.mem_singleton]
    exact (or_iff_left hc.symm).symm
  written := h.written

theorem tell (h : Telling size counts lines) {c k : Nat} (hk : 1 ≤ k) (hten : k ≤ 10) (hc : c ≤ size)
    (hle : k * size ≤ 10 * c) (hlt : 10 * c < (k + 1) * size) (hrising : ∀ p ∈ lines, p.percent < 10 * k) :
    Telling size (counts ++ [c]) (lines ++ [⟨10 * k, c, size⟩]) := by
  have hpercent : 10 * k * size ≤ 100 * c ∧ 100 * c < (10 * k + 10) * size := by
    rw [show 10 * k + 10 = 10 * (k + 1) from rfl, Nat.mul_assoc, Nat.mul_assoc]
    omega
  have hwhole : 10 * k = 100 ↔ c = size := by
    constructor
    · intro hhundred
      obtain rfl : k = 10 := by omega
      omega
    · rintro rfl
      have : 10 < k + 1 := Nat.lt_of_mul_lt_mul_right hlt
      omega
  refine ⟨?_, ?_, ?_, ?_, ?_, ?_, ?_, ?_⟩
  · exact List.forall_mem_append.mpr ⟨h.sized, List.forall_mem_singleton.mpr rfl⟩
  · rw [List.map_append]
    exact h.moments.append (List.Sublist.refl _)
  · exact List.forall_mem_append.mpr ⟨h.tenths, List.forall_mem_singleton.mpr ⟨k, rfl, hk, hten⟩⟩
  · rw [List.pairwise_append]
    exact ⟨h.rising, List.pairwise_singleton _ _, fun p hp => List.forall_mem_singleton.mpr (hrising p hp)⟩
  · exact List.forall_mem_append.mpr ⟨h.greatest, List.forall_mem_singleton.mpr hpercent⟩
  · refine List.forall_mem_append.mpr ⟨fun c' hc' hreached => ?_, List.forall_mem_singleton.mpr fun _ => ?_⟩
    · obtain ⟨p, hp, htold⟩ := h.current c' hc' hreached
      exact ⟨p, List.mem_append_left _ hp, htold⟩
    · exact ⟨_, List.mem_append_right _ List.mem_cons_self, Nat.le_refl c, hpercent.2⟩
  · simp only [List.mem_append, List.mem_singleton, or_and_right, exists_or, h.whole, exists_eq_left, hwhole]
    exact or_congr_right eq_comm
  · exact List.forall_mem_append.mpr ⟨h.written, List.forall_mem_singleton.mpr hwhole⟩

/-- Once all has been written the last line tells so. -/
theorem last (h : Telling size counts lines) (hc : size ∈ counts) :
    ∃ before, lines = before ++ [⟨100, size, size⟩] ∧ ∀ p ∈ before, p.percent < 100 := by
  obtain ⟨⟨percent, written, size'⟩, hp, hhundred⟩ := h.whole.mpr hc
  obtain rfl : percent = 100 := hhundred
  obtain rfl : written = size := (h.written _ hp).mp rfl
  obtain rfl : size' = written := h.sized _ hp
  obtain ⟨before, after, rfl⟩ := List.append_of_mem hp
  obtain ⟨-, hafter, hbefore⟩ := List.pairwise_append.mp h.rising
  -- nothing is more than the whole
  have hnone : after = [] := by
    refine List.eq_nil_iff_forall_not_mem.mpr fun q hq => ?_
    obtain ⟨k, hk, -, hten⟩ := h.tenths q (by simp [hq])
    have hgreater := (List.pairwise_cons.mp hafter).1 q hq
    dsimp only at hgreater
    omega
  subst hnone
  exact ⟨before, rfl, fun p hp => hbefore p hp _ List.mem_cons_self⟩

end Telling

namespace Accounted

variable {counts : List Nat} {d d' : Download σ}

theorem advance (h : d.Accounted size counts) (hsize : 10 * size < UInt64.size) (source : σ) {flash : Flash}
    (hmore : d.flash.offset < flash.offset) (hfits : flash.offset ≤ size) :
    (d.advance size source flash).Accounted size (counts ++ [flash.offset]) := by
  have hpos : 0 < size := by omega
  have hlast : (counts ++ [flash.offset]).getLastD 0 = flash.offset := by simp
  have hten : 10 * flash.offset / size ≤ 10 := Nat.div_le_of_le_mul (by omega)
  have hle := Nat.div_mul_le_self (10 * flash.offset) size
  have hlt : 10 * flash.offset < (10 * flash.offset / size + 1) * size :=
    (Nat.div_lt_iff_lt_mul hpos).mp (Nat.lt_succ_self _)
  have htenths := h.tenths
  have hgrown : d.tenths ≤ 10 * flash.offset / size := htenths ▸ Nat.div_le_div_right (by omega)
  rw [Download.advance, tenthsOf_eq hfits hsize, Nat.mul_comm _ 10]
  by_cases hdue : d.tenths < 10 * flash.offset / size
  · rw [if_pos ⟨hpos, hdue⟩]
    refine ⟨?_, hlast, rfl, fun p hp => ?_, fun _ => ⟨_, List.mem_cons_self, rfl⟩⟩
    · rw [List.reverse_cons]
      refine h.telling.tell (by omega) hten hfits hle hlt fun p hp => ?_
      have hbefore := (h.told p (List.mem_reverse.mp hp)).1
      omega
    · rcases List.mem_cons.mp hp with rfl | hp
      · exact ⟨Nat.le_refl _, Nat.le_refl _⟩
      · obtain ⟨hpercent, hwritten⟩ := h.told p hp
        exact ⟨by dsimp only; omega, by dsimp only; omega⟩
  · rw [if_neg (hdue ·.2)]
    have hsame : d.tenths = 10 * flash.offset / size := by omega
    rw [← hsame] at hlt
    refine ⟨h.telling.silent ?_ fun hreached => ?_, hlast, hsame, fun p hp => ?_, h.newest⟩
    · -- the tenth tenth is not reached before the end
      rintro rfl
      have hshort : 10 * d.flash.offset / flash.offset < 10 := (Nat.div_lt_iff_lt_mul hpos).mpr (by omega)
      rw [Nat.mul_div_cancel _ hpos] at hsame
      omega
    · have hsome : 0 < d.tenths := hsame ▸ Nat.div_pos hreached hpos
      obtain ⟨p, hp, hpercent⟩ := h.newest hsome
      refine ⟨p, List.mem_reverse.mpr hp, Nat.le_trans (h.told p hp).2 (Nat.le_of_lt hmore), ?_⟩
      rw [hpercent, show 10 * d.tenths + 10 = 10 * (d.tenths + 1) from rfl, Nat.mul_assoc]
      omega
    · exact ⟨(h.told p hp).1, Nat.le_trans (h.told p hp).2 (Nat.le_of_lt hmore)⟩

/-- A pass that keeps no piece has nothing to tell. -/
theorem stopped (h : d.Accounted size counts) (source : σ) :
    Accounted size (counts ++ []) { d with source := source } := by
  rw [List.append_nil]
  exact ⟨h.telling, h.offset, h.tenths, h.told, h.newest⟩

end Accounted

namespace Passes

variable {counts : List Nat} {d d' : Download σ} {ps : List Pass} {r : Except Cause Unit}

theorem accounted (h : Passes read size room d ps r d') (hsize : 10 * size < UInt64.size)
    (hd : d.Accounted size counts) :
    d'.Accounted size (counts ++ countsFrom d.flash.offset ps) ∧ (r = .ok () → 0 < size ∧ d'.flash.offset = size) := by
  induction h generalizing counts with
  | broken => exact ⟨hd.stopped _, nofun⟩
  | surplus | refused => exact ⟨hd.stopped _, nofun⟩
  | ended =>
    refine ⟨hd.stopped _, fun hok => ?_⟩
    have hall := check_ok hok
    rw [hall, check_self] at hok
    split at hok
    · cases hok
    · exact ⟨Nat.pos_of_ne_zero ‹_›, hall⟩
  | @kept d d' piece source flash ps r hread hfits hne hwrite hrest ih =>
    have hoffset := Flash.offset_of_write hwrite
    have hpos := List.length_pos_iff.mpr hne
    have hadvance := hd.advance hsize source (show d.flash.offset < flash.offset by omega) (by omega)
    have hnext := ih hadvance
    rw [flash_advance, hoffset, List.append_assoc] at hnext
    exact hnext

end Passes

end Download

/-! ## The lines in the journal -/

open Download

/-- An activity notes the lines of one download and nothing else, the whole hundred last if it succeeds. -/
def TellsOf {A : Application} (b : Behaviour A) (w : World A) {σ : Type}
    (read : Nat → σ → Except Cause (Bytes × σ)) (source : σ) (flash : Flash) (size room : Nat)
    (a : Activity A (Except Cause ImageSummary)) : Prop :=
  ∃ ps lines o w', Passes read size room (start source flash) ps ((start source flash).run read size room).1
      ((start source flash).run read size room).2 ∧
    a.run b w = (some o, w') ∧ w'.device.journal = w.device.journal ++ lines.map .progress ∧
    Telling size (countsFrom 0 ps) lines ∧
    ∀ summary, o = .ok summary →
      ∃ before, lines = before ++ [⟨100, size, size⟩] ∧ ∀ p ∈ before, p.percent < 100

section
variable {A : Application} (b : Behaviour A) (w : World A)

theorem does_noteLines (lines : List Progress) :
    ∃ t w', Does (World.perform b) (noteProgress lines) w t (some ()) w' ∧
      w'.device.journal = w.device.journal ++ lines.map .progress := by
  induction lines generalizing w with
  | nil => exact ⟨[], w, .done () w, (List.append_nil _).symm⟩
  | cons p lines ih =>
    obtain ⟨t, w', h, hjournal⟩ := ih (w.note (.progress p))
    exact ⟨_, w', (does_note b w _).bind h, hjournal.trans (List.append_assoc ..)⟩

theorem tellsOf_fillSlot {σ : Type} {read : Nat → σ → Except Cause (Bytes × σ)} {source : σ} {flash : Flash}
    {size room : Nat} (hsize : 10 * size < UInt64.size) (hnew : flash.offset = 0) :
    TellsOf b w read source flash size room (fillSlot read source flash size room) := by
  obtain ⟨ps, hpasses⟩ := run_passes read size room (start source flash)
  obtain ⟨haccounted, hwhole⟩ := hpasses.accounted hsize (accounted_start source hnew)
  have hzero : (start source flash).flash.offset = 0 := hnew
  rw [hzero, List.nil_append] at haccounted
  obtain ⟨t, w₁, hnotes, hjournal⟩ := does_noteLines b w ((start source flash).run read size room).2.told.reverse
  cases hrun : (start source flash).run read size room with
  | mk r d =>
    rw [hrun] at hpasses haccounted hwhole hnotes hjournal
    dsimp only at hpasses haccounted hwhole hnotes hjournal
    cases r with
    | error c =>
      have hfill : Does (World.perform b) (fillSlot read source flash size room) w (t ++ [])
          (some (.error c)) w₁ := by
        unfold fillSlot
        rw [hrun]
        exact hnotes.bind (.done _ w₁)
      exact ⟨ps, _, _, w₁, hrun ▸ hpasses, hfill.run_eq, hjournal, haccounted.telling, nofun⟩
    | ok =>
      have hfill : Does (World.perform b) (fillSlot read source flash size room) w
          (t ++ [⟨w₁, .stage d.flash.image, ()⟩])
          (some (.ok ⟨d.flash.offset, Bytes.hex (Sha256.digest d.flash.image)⟩))
          (w₁.perform b (.stage d.flash.image)).2 := by
        unfold fillSlot
        rw [hrun]
        exact hnotes.bind ((does_perform b w₁ (e := .stage d.flash.image) rfl).bind (.done _ _))
      refine ⟨ps, _, _, _, hrun ▸ hpasses, hfill.run_eq, hjournal, haccounted.telling, fun _ _ => ?_⟩
      obtain ⟨hpos, hall⟩ := hwhole rfl
      have hcounted : size ∈ countsFrom 0 ps :=
        (List.mem_cons.mp (hall ▸ haccounted.offset ▸ List.getLastD_mem_cons)).resolve_left (by omega)
      exact haccounted.telling.last hcounted

/-- Lines of progress grow from ten to a hundred per cent, each as great as it can be, and the hundred is told when
all has been written and not before. Where nothing can be read or written none is told. -/
theorem progress_exact :
    (∀ {σ : Type} (read : Nat → σ → Except Cause (Bytes × σ)) (source : σ) (fault : Nat → Option Cause)
        (size room : Nat), 10 * size < UInt64.size →
      TellsOf b w read source (.openedWith fault) size room (fillSlot read source (.openedWith fault) size room)) ∧
    (∀ (job : Job) (chunkSize : Nat) (source : Source), w.device.network.openImage job.url = .ok source →
      w.device.faults.openUpdate = false → max chunkSize 1 ≤ bufferLimit → 10 * job.size < UInt64.size →
      TellsOf b w Source.read source (.opened w.device.slots.failWrites) job.size (max chunkSize 1)
        (downloadAndFlash job chunkSize)) ∧
    ∀ (job : Job) (chunkSize : Nat), (∃ c, w.device.network.openImage job.url = .error c) ∨
        w.device.faults.openUpdate = true ∨ bufferLimit < max chunkSize 1 →
      ((downloadAndFlash job chunkSize).run b w).2.device.journal = w.device.journal := by
  refine ⟨fun read source fault size room hsize => tellsOf_fillSlot b w hsize rfl, ?_, ?_⟩
  · intro job chunkSize source hsource hopens hroom hsize
    unfold TellsOf
    rw [run_downloadAndFlash b w hsource hopens hroom]
    exact tellsOf_fillSlot b w hsize rfl
  · intro job chunkSize hfails
    cases hsource : w.device.network.openImage job.url with
    | error c =>
      simp [downloadAndFlash, Activity.run, perform, Routine.run, World.perform, hsource]
    | ok source =>
      by_cases hroom : bufferLimit < max chunkSize 1
      · simp [downloadAndFlash, Activity.run, perform, Routine.run, World.perform, hsource, hroom]
      · have hopens : w.device.faults.openUpdate = true := by
          rcases hfails with ⟨c, hc⟩ | hopens | hlarge
          · cases hsource.symm.trans hc
          · exact hopens
          · exact absurd hlarge hroom
        simp [downloadAndFlash, Activity.run, perform, Routine.run, World.perform, hsource, hroom, Device.openUpdate,
          hopens]

end

theorem progress_exact_shortReads :
    (serving shortReads).device.network.openImage "u" = .ok shortReads.source ∧
    (serving shortReads).device.faults.openUpdate = false ∧ max 3 1 ≤ bufferLimit ∧ 10 * 4 < UInt64.size ∧
    TellsOf Agent.behaviour (serving shortReads) Source.read shortReads.source (.opened false) 4 3
      (downloadAndFlash fourBytes 3) ∧
    -- a stream that goes on after all that was expected
    TellsOf Agent.behaviour (serving shortReads) Source.read shortReads.source (.openedWith fun _ => none) 3 3
      (fillSlot Source.read shortReads.source (.openedWith fun _ => none) 3 3) ∧
    bufferLimit < max (bufferLimit + 1) 1 ∧
    ((downloadAndFlash fourBytes (bufferLimit + 1)).run Agent.behaviour (serving shortReads)).2.device.journal =
      (serving shortReads).device.journal := by
  obtain ⟨hfill, hdownload, hnone⟩ := progress_exact Agent.behaviour (serving shortReads)
  have hserved : (serving shortReads).device.network.openImage "u" = .ok shortReads.source := rfl
  have hdone := hdownload fourBytes 3 shortReads.source hserved rfl (by decide) (by decide)
  exact ⟨hserved, rfl, by decide, by decide, hdone,
    hfill Source.read shortReads.source _ 3 3 (by decide), by decide,
    hnone fourBytes _ (.inr (.inr (by decide)))⟩

end FirmwareUpdate
