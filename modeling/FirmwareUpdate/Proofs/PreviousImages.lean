import FirmwareUpdate.Proofs.UpdateCycle
import FirmwareUpdate.Rehearsal.Probe

/-!
# Previous images

A boot slot keeps the running image and one that is staged for the next boot. A rollback that has been asked
for is gone through at the next boot, before anything that is staged: the state of the slot is then as it was
before the update, but the image is still the new one, since no other has been kept.
-/

namespace FirmwareUpdate

theorem Flash.image_of_writes {f g : Flash} {pieces : List Bytes} (h : pieces.foldlM Flash.write f = .ok g) :
    g.image = f.image ++ pieces.flatten := by
  induction pieces generalizing f with
  | nil =>
    cases h
    exact (List.append_nil _).symm
  | cons piece pieces ih =>
    rw [List.foldlM_cons] at h
    cases hwrite : f.write piece with
    | error c =>
      rw [hwrite] at h
      cases h
    | ok f' =>
      rw [hwrite] at h
      rw [ih h, Flash.image_of_write hwrite, List.append_assoc, List.flatten_cons]

inductive SlotCall where
  | flash (pieces : List Bytes) (abort : Option Cause)
  | markValid
  | rollback
  | restart
  | failWrites (on : Bool)
  | reboot
  deriving DecidableEq

namespace Slots

variable {s : Slots} {pieces : List Bytes}

def call (s : Slots) : SlotCall → Slots
  | .flash pieces abort => (s.flash pieces abort).2
  | .markValid => s.markValid.2
  | .rollback => s.rollback
  | .restart => s.restart
  | .failWrites on => { s with failWrites := on }
  | .reboot => s.reboot.2

def after (s : Slots) (calls : List SlotCall) : Slots := calls.foldl call s

theorem flash_cases (s : Slots) (pieces : List Bytes) (abort : Option Cause) :
    (s.flash pieces abort).2 = s ∨ (s.flash pieces abort).2 = s.stage pieces.flatten := by
  unfold flash
  split
  · exact .inl rfl
  · exact .inl rfl
  · rename_i hwrites
    exact .inr (congrArg s.stage (Flash.image_of_writes hwrites))

theorem flash_ok (h : (s.flash pieces none).1 = .ok ()) : (s.flash pieces none).2 = s.stage pieces.flatten := by
  unfold flash at h ⊢
  split at h
  · cases h
  · cases h
  · rename_i hwrites _
    exact congrArg s.stage (Flash.image_of_writes hwrites)

/-! ## Asked for and not gone through -/

theorem Consistent.call (h : s.Consistent) (c : SlotCall) : (s.call c).Consistent := by
  cases c with
  | flash pieces abort => rcases s.flash_cases pieces abort with hf | hf <;> rw [Slots.call, hf] <;> exact h
  | markValid => exact h.markValid
  | rollback => exact fun _ => rfl
  | restart => exact h
  | failWrites on => exact h
  | reboot =>
    simp only [Slots.call, Slots.reboot]
    split
    · exact fun hback => absurd hback Bool.false_ne_true
    · rename_i hback
      split <;> exact fun hback' => absurd hback' hback

theorem Consistent.after (h : s.Consistent) (calls : List SlotCall) : (s.after calls).Consistent := by
  induction calls generalizing s with
  | nil => exact h
  | cons c calls ih => exact ih (h.call c)

theorem consistent_booted (running : SlotState) : (booted running).Consistent := fun h => nomatch h

/-! ## Between two boots -/

theorem image_call (s : Slots) {c : SlotCall} (hc : c ≠ .reboot) : (s.call c).image = s.image := by
  cases c with
  | flash pieces abort =>
    rcases s.flash_cases pieces abort with hf | hf
    · rw [call, hf]
    · rw [call, hf]
      rfl
  | markValid =>
    simp only [call, Slots.markValid]
    split <;> rfl
  | rollback | restart | failWrites => rfl
  | reboot => exact absurd rfl hc

theorem requested_call {c : SlotCall} (hc : c ≠ .reboot) (h : s.rollbackRequested = true ∨ c = .rollback) :
    (s.call c).rollbackRequested = true := by
  cases c with
  | rollback => rfl
  | reboot => exact absurd rfl hc
  | flash pieces abort =>
    obtain h | h := h
    · rcases s.flash_cases pieces abort with hf | hf <;> rw [call, hf] <;> exact h
    · cases h
  | markValid =>
    obtain h | h := h
    · simp only [call, Slots.markValid]
      split <;> exact h
    · cases h
  | restart | failWrites =>
    obtain h | h := h
    · exact h
    · cases h

/-- Whatever is done up to the next boot, the image stays, and a rollback that is asked for stays so. -/
theorem after_unbooted {calls : List SlotCall} (hc : .reboot ∉ calls) :
    (s.after calls).image = s.image ∧
    (s.rollbackRequested = true ∨ .rollback ∈ calls → (s.after calls).rollbackRequested = true) := by
  induction calls generalizing s with
  | nil => exact ⟨rfl, fun h => h.resolve_right List.not_mem_nil⟩
  | cons c calls ih =>
    have hfirst : c ≠ .reboot := fun he => hc (he ▸ List.mem_cons_self)
    obtain ⟨himage, hback⟩ := ih (s := s.call c) (fun h => hc (List.mem_cons_of_mem c h))
    refine ⟨himage.trans (s.image_call hfirst), fun h => hback ?_⟩
    rcases h with h | h
    · exact .inl (requested_call hfirst (.inl h))
    · rcases List.mem_cons.mp h with rfl | h
      · exact .inl (requested_call hfirst (.inr rfl))
      · exact .inr h

theorem reboot_staged {image : Bytes} (hr : s.rollbackRequested = false) (hs : s.staged = some image) :
    s.reboot = (.newImage, { s with staged := none, image := image, running := .pendingVerify }) := by
  simp [reboot, hr, hs]

theorem reboot_requested (hr : s.rollbackRequested = true) :
    s.reboot = (.previousImage, { s with rollbackRequested := false, staged := none, running := .valid }) := by
  simp [reboot, hr]

/-- After an update that is rolled back the slot is as good as it was before. The image is the one that was
there before only if the new one is the same. -/
theorem previous_image_iff {running : SlotState} {before : List SlotCall}
    (hv : ((booted running).after before).running = .valid)
    (hflash : (((booted running).after before).flash pieces none).1 = .ok ()) {calls : List SlotCall}
    (hc : .reboot ∉ calls) (hback : .rollback ∈ calls) :
    ∃ new t, (((booted running).after before).flash pieces none).2.reboot = (.newImage, new) ∧
      new.running = .pendingVerify ∧ new.image = pieces.flatten ∧
      (new.after calls).reboot = (.previousImage, t) ∧ t.running = .valid ∧ t.staged = none ∧
      t.reboot = (.sameImage, t) ∧
      (t.image = ((booted running).after before).image ↔ pieces.flatten = ((booted running).after before).image) := by
  have hconsistent := (consistent_booted running).after before
  generalize (booted running).after before = s at hv hflash hconsistent
  have hnone : s.rollbackRequested = false :=
    Bool.eq_false_iff.mpr fun h => nomatch hv.symm.trans (hconsistent h)
  obtain ⟨new, hnew, hpending, himage⟩ : ∃ new, (s.flash pieces none).2.reboot = (.newImage, new) ∧
      new.running = .pendingVerify ∧ new.image = pieces.flatten :=
    ⟨_, (congrArg reboot (flash_ok hflash)).trans (reboot_staged hnone rfl), rfl, rfl⟩
  -- the image that was replaced is nowhere any more, so a rollback cannot but keep the new one
  obtain ⟨hkept, hrequested⟩ := after_unbooted (s := new) hc
  refine ⟨new, _, hnew, hpending, himage, reboot_requested (hrequested (.inr hback)), rfl, rfl, rfl, ?_⟩
  rw [← himage, ← hkept]

def updated : Slots := (booted .valid).after [.flash [[10, 11]] none, .reboot, .markValid]

theorem previous_image_iff_updated :
    updated.running = .valid ∧ (updated.flash [[1, 2], [3, 4]] none).1 = .ok () ∧
    ∃ new t, (updated.flash [[1, 2], [3, 4]] none).2.reboot = (.newImage, new) ∧ new.running = .pendingVerify ∧
      new.image = [1, 2, 3, 4] ∧
      (new.after [.flash [[5]] none, .markValid, .rollback]).reboot = (.previousImage, t) ∧ t.running = .valid ∧
      t.staged = none ∧ t.reboot = (.sameImage, t) ∧ (t.image = updated.image ↔ [1, 2, 3, 4] = updated.image) := by
  have hv : updated.running = .valid := by decide
  have hflash : (updated.flash [[1, 2], [3, 4]] none).1 = .ok () := rfl
  exact ⟨hv, hflash, previous_image_iff hv hflash (by decide) (by decide)⟩

/-- The image that a rollback leaves is not the one that was there before the update. -/
theorem rolled_back_to_new_image :
    updated.running = .valid ∧ (updated.flash [[1, 2, 3, 4]] none).2.staged = some [1, 2, 3, 4] ∧
    updated.image = [10, 11] ∧
    (updated.after [.flash [[1, 2, 3, 4]] none, .reboot, .rollback, .reboot]).image = [1, 2, 3, 4] := by decide

end Slots

end FirmwareUpdate
