import FirmwareUpdate.Download

/-!
# Complete downloads

A download that succeeds has written the beginning of the served image, as long as was expected.
-/

namespace FirmwareUpdate

namespace Flash

theorem image_of_write {f g : Flash} {chunk : Bytes} (h : f.write chunk = .ok g) :
    g.image = f.image ++ chunk := by
  simp only [write] at h
  split at h
  · cases h
  · cases h; simp [image]

theorem fault_of_write {f g : Flash} {chunk : Bytes} (h : f.write chunk = .ok g) : g.fault = f.fault := by
  simp only [write] at h
  split at h
  · cases h
  · cases h; rfl

end Flash

namespace Source

theorem read_parts {s after : Source} {room : Nat} {piece : Bytes} (he : s.image.endless = none)
    (h : s.read room = .ok (piece, after)) :
    after.image = s.image ∧ piece ++ after.rest = s.rest := by
  simp only [read, he] at h
  split at h
  · cases h
  · cases h; exact ⟨rfl, List.take_append_drop _ _⟩

theorem read_endless {s after : Source} {room : Nat} {piece : Bytes} {b : UInt8}
    (he : s.image.endless = some b) (h : s.read room = .ok (piece, after)) :
    after.image = s.image ∧ piece.length = room := by
  simp only [read, he] at h
  split at h
  · cases h
  · cases h; exact ⟨rfl, List.length_replicate⟩

end Source

namespace Download

theorem source_advance (d : Download σ) (size : Nat) (source : σ) (flash : Flash) :
    (d.advance size source flash).source = source := by
  simp only [advance]
  split <;> rfl

theorem check_ok {size written : Nat} (h : check size written = .ok ()) : written = size := by
  simp only [check] at h
  split at h
  · cases h
  · split at h
    · cases h
    · rename_i hw; exact Classical.not_not.mp hw

/-- What has been written and what is left of the stream make up the image. -/
structure Faithful (i : Image) (d : Download Source) : Prop where
  served : d.source.image = i
  parts : d.flash.image ++ d.source.rest = i.data
  offset : d.flash.offset = d.flash.image.length

namespace Faithful

variable {i : Image} {size room : Nat} {d d' : Download Source}

theorem start (i : Image) (failing : Bool) : Faithful i (.start i.source (.opened failing)) :=
  ⟨rfl, rfl, rfl⟩

theorem advance (h : d.Faithful i) (he : i.endless = none) {piece : Bytes} {source : Source}
    {flash : Flash} (hr : d.source.read room = .ok (piece, source))
    (hw : d.flash.write piece = .ok flash) : (d.advance size source flash).Faithful i := by
  obtain ⟨hi, hp⟩ := Source.read_parts (h.served ▸ he) hr
  refine ⟨?_, ?_, ?_⟩
  · rw [source_advance, hi, h.served]
  · rw [source_advance, flash_advance, Flash.image_of_write hw, List.append_assoc, hp, h.parts]
  · rw [flash_advance, Flash.offset_of_write hw, Flash.image_of_write hw, List.length_append, h.offset]

theorem run (h : d.Faithful i) (he : i.endless = none)
    (hr : d.run Source.read size room = (.ok (), d')) :
    d'.flash.image = i.data.take size ∧ d'.flash.image.length = size ∧ d'.flash.offset = size := by
  fun_induction Download.run Source.read size room d with
  | case1 d c hread => cases hr
  | case2 d piece source hread hempty =>
    -- the last piece is empty, so that the sizes agree means that all of it was written
    obtain ⟨hc, rfl⟩ := Prod.mk.inj hr
    have hsize : d.flash.offset = size := check_ok hc
    have hlen : d.flash.image.length = size := h.offset ▸ hsize
    refine ⟨?_, hlen, hsize⟩
    rw [← h.parts, ← hlen, List.take_left]
  | case3 d piece source hread hne hlarge => cases hr
  | case4 d piece source hread hne hfits c hwrite => cases hr
  | case5 d piece source hread hne hfits flash hwrite ih => exact ih (h.advance he hread hwrite) hr

end Faithful

theorem run_endless {b : UInt8} {size room : Nat} {d d' : Download Source} (hroom : 0 < room)
    (he : d.source.image.endless = some b) : d.run Source.read size room ≠ (.ok (), d') := by
  intro hr
  fun_induction Download.run Source.read size room d with
  | case1 d c hread => cases hr
  | case2 d piece source hread hempty =>
    have := (Source.read_endless he hread).2
    omega
  | case3 d piece source hread hne hlarge => cases hr
  | case4 d piece source hread hne hfits c hwrite => cases hr
  | case5 d piece source hread hne hfits flash hwrite ih =>
    refine ih ?_ hr
    rw [source_advance, (Source.read_endless he hread).1, he]

/-- A download that succeeds has written as much of the served image as was expected. -/
theorem complete {i : Image} {failing : Bool} {size room : Nat} {d : Download Source} (hroom : 0 < room)
    (hr : (start i.source (.opened failing)).run Source.read size room = (.ok (), d)) :
    d.flash.image = i.data.take size ∧ d.flash.image.length = size ∧ d.flash.offset = size := by
  cases he : i.endless with
  | none => exact (Faithful.start i failing).run he hr
  | some b => exact absurd hr (run_endless hroom he)

end Download

/-! ## Streams that end -/

variable {σ : Type} {read : Nat → σ → Except Cause (Bytes × σ)} {size room : Nat}

/-- From the source come these pieces, of a byte at least and no more than there is room for, and then the end. -/
inductive Delivers (read : Nat → σ → Except Cause (Bytes × σ)) (room : Nat) : σ → List Bytes → Prop
  | ended {source after : σ} (hread : read room source = .ok ([], after)) : Delivers read room source []
  | piece {source after : σ} {piece : Bytes} {pieces : List Bytes} (hread : read room source = .ok (piece, after))
      (hne : piece ≠ []) (hfits : piece.length ≤ room) (hrest : Delivers read room after pieces) :
      Delivers read room source (piece :: pieces)

namespace Download

theorem check_of_lt {size written : Nat} (h : written < size) :
    check size written = .error (if written = 0 then empty else mismatch size written) := by
  simp only [check]
  split
  · rfl
  · rw [if_pos (Nat.ne_of_lt h)]

theorem check_self (size : Nat) : check size size = if size = 0 then .error empty else .ok () := by
  simp [check]

/-- A slot that takes all that it is given gets the whole stream, unless that goes beyond the expected size. -/
theorem run_delivers {source : σ} {pieces : List Bytes} (h : Delivers read room source pieces) {d : Download σ}
    (hs : d.source = source) (hf : ∀ offset, d.flash.fault offset = none) (hd : d.flash.offset ≤ size) :
    (size < d.flash.offset + pieces.flatten.length → (d.run read size room).1 = .error (larger size)) ∧
    (d.flash.offset + pieces.flatten.length ≤ size →
      (d.run read size room).1 = check size (d.flash.offset + pieces.flatten.length) ∧
      (d.run read size room).2.flash.offset = d.flash.offset + pieces.flatten.length ∧
      (d.run read size room).2.flash.image = d.flash.image ++ pieces.flatten) := by
  induction h generalizing d with
  | ended hread =>
    subst hs
    rw [run, hread]
    dsimp only
    rw [if_pos List.length_nil, List.flatten_nil, List.length_nil, Nat.add_zero, List.append_nil]
    exact ⟨fun hlt => absurd hlt (Nat.not_lt.mpr hd), fun _ => ⟨rfl, rfl, rfl⟩⟩
  | @piece source after piece pieces hread hne hfits hrest ih =>
    subst hs
    have hpos := List.length_pos_iff.mpr hne
    rw [run, hread, List.flatten_cons, List.length_append]
    dsimp only
    rw [if_neg (by omega)]
    split
    · exact ⟨fun _ => rfl, fun hle => by omega⟩
    · rename_i hlarge
      split
      · rename_i c hwrite
        simp [Flash.write, hf] at hwrite
      · rename_i flash hwrite
        have hoffset := Flash.offset_of_write hwrite
        have hfault : ∀ offset, flash.fault offset = none := Flash.fault_of_write hwrite ▸ hf
        have hnext := ih (d := d.advance size after flash) (source_advance d size after flash)
          (by rwa [flash_advance]) (by rw [flash_advance]; omega)
        rw [flash_advance, hoffset, Flash.image_of_write hwrite, Nat.add_assoc, List.append_assoc] at hnext
        exact hnext

end Download

/-- The image is served to its end, though perhaps in short pieces. -/
structure Image.Whole (i : Image) : Prop where
  ends : i.endless = none
  unbroken : i.breakAt = none
  limits : ∀ limit ∈ i.limits, 0 < limit

namespace Source

theorem read_whole {s : Source} (h : s.image.Whole) (hroom : 0 < room) :
    ∃ most after, 0 < most ∧ most ≤ room ∧ s.read room = .ok (s.rest.take most, after) ∧
      after.image = s.image ∧ after.rest = s.rest.drop most := by
  simp only [read, h.unbroken, h.ends, reduceCtorEq, if_false]
  cases hl : s.image.limits[s.reads]? with
  | none => exact ⟨room, _, hroom, Nat.le_refl room, rfl, rfl, rfl⟩
  | some limit =>
    have hlimit := h.limits limit (List.mem_of_getElem? hl)
    exact ⟨_, _, Nat.lt_min.mpr ⟨hroom, hlimit⟩, Nat.min_le_left _ _, rfl, rfl, rfl⟩

theorem delivers_whole {s : Source} (h : s.image.Whole) (hroom : 0 < room) :
    ∃ pieces, Delivers Source.read room s pieces ∧ pieces.flatten = s.rest := by
  -- every read of a whole image takes a byte at least from what is left of it
  induction hn : s.rest.length using Nat.strongRecOn generalizing s with
  | ind n ih =>
    obtain ⟨most, after, hmost, hfits, hread, himage, hrest⟩ := s.read_whole h hroom
    by_cases hempty : s.rest = []
    · rw [hempty, List.take_nil] at hread
      exact ⟨[], .ended hread, hempty.symm⟩
    · have hpos := List.length_pos_iff.mpr hempty
      have hshorter : after.rest.length < n := by rw [hrest, List.length_drop]; omega
      obtain ⟨pieces, hpieces, hflat⟩ := ih _ hshorter (himage ▸ h) rfl
      refine ⟨_ :: pieces, .piece hread ?_ ?_ hpieces, ?_⟩
      · simpa using ⟨Nat.ne_of_gt hmost, hempty⟩
      · exact Nat.le_trans (List.length_take_le _ _) hfits
      · rw [List.flatten_cons, hflat, hrest, List.take_append_drop]

end Source

namespace Download

theorem run_whole {i : Image} (h : i.Whole) (hroom : 0 < room) (hsize : i.data.length = size) (hpos : 0 < size) :
    ((start i.source (.opened false)).run Source.read size room).1 = .ok () := by
  obtain ⟨pieces, hpieces, hflat⟩ := i.source.delivers_whole h hroom
  have hlen : pieces.flatten.length = size := hflat ▸ hsize
  obtain ⟨-, hfits⟩ := run_delivers (d := start i.source (.opened false)) hpieces rfl (fun _ => rfl) (Nat.zero_le size)
  have hoffset : (start i.source (.opened false)).flash.offset + pieces.flatten.length = size :=
    (Nat.zero_add _).trans hlen
  rw [(hfits (Nat.le_of_eq hoffset)).1, hoffset, check_self, if_neg (Nat.ne_of_gt hpos)]

end Download

end FirmwareUpdate
