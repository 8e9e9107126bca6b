import FirmwareUpdate.Proofs.LateReports
import FirmwareUpdate.Proofs.Verdicts

/-!
# One decision on an image on trial

The rollback timer, the application and the confirmation task race for the verdict on an image on
trial. The first call to the bootloader wins: after a rollback nobody can mark the image valid, and an
image that has been marked is not rolled back by the timer. A confirmation that was about to report when
the image was rolled back may still do so, once. A request and its answer are one effect; who acts while
it is under way has his turn right after it.
-/

namespace FirmwareUpdate

variable {A : Application}

/-! ## The bootloader's part -/

namespace Device

variable {d : Device}

theorem rollbackCalls_markValid (d : Device) :
    d.markValid.2.slots.rollbackCalls = d.slots.rollbackCalls ∧
      d.markValid.2.slots.rollbackRequested = d.slots.rollbackRequested := by
  unfold markValid
  split
  · exact ⟨rfl, rfl⟩
  · dsimp only [Slots.markValid]
    split <;> exact ⟨rfl, rfl⟩

theorem markValid_ok (hf : d.faults.markValid = false) (hr : d.slots.running ≠ .invalid) :
    d.markValid.1 = .ok () := by
  simp [markValid, hf, Slots.markValid, hr]

theorem markValid_refused (hr : d.slots.running = .invalid) : ∃ c, d.markValid.1 = .error c := by
  unfold markValid
  split
  · exact ⟨_, rfl⟩
  · simp [Slots.markValid, hr]

theorem rollback_ok (hf : d.faults.rollback = false) :
    d.rollback = (.ok (), { d with slots := d.slots.rollback }) := by
  simp [rollback, hf]

end Device

namespace World

/-! ## What stands -/

structure Undecided (w : World A) : Prop where
  running : w.device.slots.running = .pendingVerify
  valid : w.engine.validation.valid = false
  state : w.engine.validation.state = .init ∨ w.engine.validation.state = .validating

structure RolledBack (w : World A) : Prop where
  running : w.device.slots.running = .invalid
  requested : w.device.slots.rollbackRequested = true
  valid : w.engine.validation.valid = false
  state : w.engine.validation.state = .invalid
  cancelled : w.engine.validation.confirmCancelled = true

structure MarkedValid (w : World A) : Prop where
  running : w.device.slots.running = .valid
  valid : w.engine.validation.valid = true
  state : w.engine.validation.state = .valid

section
variable {w w' : World A}

theorem Undecided.of_untouched (hw : Undecided w) (h : Untouched w w') : Undecided w' where
  running := h.running.trans hw.running
  valid := h.valid.trans hw.valid
  state := by
    rw [h.state]
    exact hw.state

theorem RolledBack.of_untouched (hw : RolledBack w) (h : Untouched w w') : RolledBack w' where
  running := h.running.trans hw.running
  requested := h.requested.trans hw.requested
  valid := h.valid.trans hw.valid
  state := h.state.trans hw.state
  cancelled := h.cancelled.trans hw.cancelled

theorem MarkedValid.of_untouched (hw : MarkedValid w) (h : Untouched w w') : MarkedValid w' where
  running := h.running.trans hw.running
  valid := h.valid.trans hw.valid
  state := h.state.trans hw.state

theorem untouched_note (w : World A) (e : Event) : Untouched w (w.note e) :=
  ⟨rfl, rfl, rfl, rfl, rfl, rfl, rfl, rfl⟩

theorem untouched_expire (w : World A) (id : TimerId) : Untouched w (w.expire id) :=
  ⟨rfl, rfl, rfl, rfl, rfl, rfl, rfl, rfl⟩

theorem untouched_withConfirmation (w : World A) (c : Option Confirmation) :
    Untouched w (w.withConfirmation c) :=
  ⟨rfl, rfl, rfl, rfl, rfl, rfl, rfl, rfl⟩

end

/-! ## Marks and rollbacks that take effect -/

section
variable {w : World A}

theorem Undecided.markValid (hw : Undecided w) (hf : w.device.faults.markValid = false) :
    MarkedValid w.markValid.2 ∧ w.markValid.2.device.slots.rollbackCalls = w.device.slots.rollbackCalls := by
  have hok : w.device.markValid.1 = .ok () := Device.markValid_ok hf (by simp [hw.running])
  have hrunning := w.device.running_markValid
  have hv := w.validation_markValid
  rw [hok] at hrunning hv
  rw [w.slots_markValid]
  refine ⟨⟨?_, ?_, ?_⟩, w.device.rollbackCalls_markValid.1⟩
  · rw [w.slots_markValid]
    exact hrunning
  · rw [hv]
  · rw [hv]
    rcases hw.state with h | h <;> simp [h]

theorem Undecided.settleTrial (hw : Undecided w) (hf : w.device.faults.markValid = false) :
    MarkedValid w.settleTrial.2 ∧
      w.settleTrial.2.device.slots.rollbackCalls = w.device.slots.rollbackCalls := by
  have hi : w.engine.validation.state ≠ .invalid := by
    rcases hw.state with h | h <;> simp [h]
  have hok : w.device.markValid.1 = .ok () := Device.markValid_ok hf (by simp [hw.running])
  have hrunning := w.device.running_markValid
  rw [hok] at hrunning
  rw [slots_settleTrial hi]
  refine ⟨⟨?_, ?_, ?_⟩, w.device.rollbackCalls_markValid.1⟩
  · rw [slots_settleTrial hi]
    exact hrunning
  · rw [validation_settleTrial hi]
  · rw [validation_settleTrial hi]

theorem Undecided.beginValidation (hw : Undecided w) (seconds : Nat) :
    Undecided (w.beginValidation seconds).2 ∧
      (w.beginValidation seconds).2.device.slots.rollbackCalls = w.device.slots.rollbackCalls := by
  have hb := w.beginning seconds
  generalize (w.beginValidation seconds).1 = r, (w.beginValidation seconds).2 = w' at hb ⊢
  cases hb with
  | begun | illegible => exact ⟨hw, rfl⟩
  | trial =>
    have hslots := (w.note (.slotState .pendingVerify)).slots_beginTrial seconds
    have hvalidation := (w.note (.slotState .pendingVerify)).validation_beginTrial seconds
    refine ⟨⟨?_, ?_, .inr ?_⟩, congrArg Slots.rollbackCalls hslots⟩
    · exact (congrArg Slots.running hslots).trans hw.running
    · rw [hvalidation]
      exact hw.valid
    · rw [hvalidation]
  | settled _ hr => cases hw.running.symm.trans hr
  | foreign _ hr hs => rcases hs with rfl | rfl <;> cases hw.running.symm.trans hr

theorem rolledBack_rollbackDue (hon : w.OnTrial) (hf : w.device.faults.rollback = false) :
    RolledBack w.rollbackDue ∧
      w.rollbackDue.device.slots.rollbackCalls = w.device.slots.rollbackCalls + 1 := by
  have hs := slots_rollbackDue hon
  have hv := validation_rollbackDue hon
  rw [Device.rollback_ok hf] at hs
  refine ⟨⟨?_, ?_, ?_, ?_, ?_⟩, ?_⟩
  · rw [hs]
    rfl
  · rw [hs]
    rfl
  · rw [hv]
    exact hon.2
  · rw [hv]
  · rw [hv]
  · rw [hs]
    rfl

theorem rolledBack_markInvalid (hr : w.device.rollback.2.slots.running = .invalid ∧
    w.device.rollback.2.slots.rollbackRequested = true) : RolledBack w.markInvalid.2 := by
  rw [← slots_markInvalid] at hr
  refine ⟨hr.1, hr.2, ?_, ?_, ?_⟩ <;> rw [validation_markInvalid]

/-! ## Calls that come too late -/

theorem RolledBack.markValid (hw : RolledBack w) : (∃ e, w.markValid.1 = .error e) ∧
    RolledBack w.markValid.2 ∧ w.markValid.2.device.slots.rollbackCalls = w.device.slots.rollbackCalls := by
  obtain ⟨c, hc⟩ := Device.markValid_refused hw.running
  have hrunning := w.device.running_markValid
  have hv := w.validation_markValid
  have hs := w.slots_markValid
  rw [hc] at hrunning hv
  refine ⟨⟨_, by rw [fst_markValid, hc]; rfl⟩, ⟨?_, ?_, ?_, ?_, ?_⟩, ?_⟩
  · rw [hs]
    exact hrunning.trans hw.running
  · rw [hs]
    exact w.device.rollbackCalls_markValid.2.trans hw.requested
  · rw [hv]
    exact hw.valid
  · rw [hv]
    exact hw.state
  · rw [hv]
    exact hw.cancelled
  · rw [hs]
    exact w.device.rollbackCalls_markValid.1

theorem RolledBack.markInvalid (hw : RolledBack w) : RolledBack w.markInvalid.2 := by
  apply rolledBack_markInvalid
  unfold Device.rollback
  split
  · exact ⟨hw.running, hw.requested⟩
  · exact ⟨rfl, rfl⟩

theorem RolledBack.not_onTrial (hw : RolledBack w) : ¬ w.OnTrial := fun ht => by
  have hstate := ht.1
  rw [hw.state] at hstate
  cases hstate

theorem RolledBack.undergo (hw : RolledBack w) (s : Saying) (e : Effect A) :
    RolledBack (w.undergo s e).2 := by
  by_cases he : e.Judges
  · rw [undergo_snd]
    cases e with
    | markValid => exact hw.markValid.2.1
    | markInvalid => exact hw.markInvalid
    | settleTrial =>
      rw [perform, settleTrial_invalid w hw.state]
      exact hw.of_untouched (w.untouched_note _)
    | beginValidation seconds =>
      rw [perform, beginValidation_started (by simp [hw.state])]
      exact hw
    | _ => exact he.elim
  · exact hw.of_untouched (w.untouched_undergo s he)

/-- Unless it is told to roll back again, the engine does not ask the bootloader twice. -/
theorem RolledBack.calls (hw : RolledBack w) (s : Saying) {e : Effect A} (he : e ≠ .markInvalid) :
    (w.undergo s e).2.device.slots.rollbackCalls = w.device.slots.rollbackCalls := by
  by_cases hj : e.Judges
  · rw [undergo_snd]
    cases e with
    | markValid => exact hw.markValid.2.2
    | markInvalid => exact absurd rfl he
    | settleTrial =>
      rw [perform, settleTrial_invalid w hw.state]
      rfl
    | beginValidation seconds => rw [perform, beginValidation_started (by simp [hw.state])]
    | _ => exact hj.elim
  · exact (w.untouched_undergo s hj).rollbackCalls

theorem MarkedValid.undergo (hw : MarkedValid w) (s : Saying) {e : Effect A} (he : e ≠ .markInvalid) :
    MarkedValid (w.undergo s e).2 ∧
      (w.undergo s e).2.device.slots.rollbackCalls = w.device.slots.rollbackCalls := by
  -- a mark that is refused leaves the image as valid as one that is not
  have hrunning : w.device.markValid.2.slots.running = .valid := by
    rw [w.device.running_markValid]
    split
    · rfl
    · exact hw.running
  have hi : w.engine.validation.state ≠ .invalid := by simp [hw.state]
  by_cases hj : e.Judges
  · rw [undergo_snd]
    cases e with
    | markValid =>
      rw [perform, w.slots_markValid]
      refine ⟨⟨?_, ?_, ?_⟩, w.device.rollbackCalls_markValid.1⟩
      · rw [w.slots_markValid]
        exact hrunning
      · rw [w.validation_markValid]
        split
        · exact hw.valid
        · rfl
      · rw [w.validation_markValid]
        split
        · exact hw.state
        · simp [hw.state]
    | markInvalid => exact absurd rfl he
    | settleTrial =>
      rw [perform, slots_settleTrial hi]
      refine ⟨⟨?_, ?_, ?_⟩, w.device.rollbackCalls_markValid.1⟩
      · rw [slots_settleTrial hi]
        exact hrunning
      · rw [validation_settleTrial hi]
      · rw [validation_settleTrial hi]
    | beginValidation seconds =>
      rw [perform, beginValidation_started (by simp [hw.state])]
      exact ⟨hw, rfl⟩
    | _ => exact hj.elim
  · have h := w.untouched_undergo s hj
    exact ⟨hw.of_untouched h, h.rollbackCalls⟩

end

end World

open World

/-! ## Runs without disturbance -/

/-- The bootloader does as it is asked, nobody else condemns the image, and no other job is recorded. -/
structure Happening.Regular (x : Happening A) : Prop where
  marking : x.found.device.faults.markValid = false
  rolling : x.found.device.faults.rollback = false
  spared : x.condemns = false
  unsaved : x.saved? = none

instance (x : Happening A) : Decidable x.Regular :=
  decidable_of_iff (x.found.device.faults.markValid = false ∧ x.found.device.faults.rollback = false ∧
      x.condemns = false ∧ x.saved? = none)
    ⟨fun ⟨hm, hr, hc, hs⟩ => ⟨hm, hr, hc, hs⟩, fun ⟨hm, hr, hc, hs⟩ => ⟨hm, hr, hc, hs⟩⟩

inductive Stands (asked : Nat) (w : World A) (history : List (Happening A)) : Prop
  | undecided (hw : Undecided w) (ha : w.device.slots.rollbackCalls = asked)
      (hh : ∀ x ∈ history, x.call = none ∧ Undecided x.found)
  | rolledBack (later : List (Happening A)) (found : World A) (id : TimerId) (earlier : List (Happening A))
      (hh : history = later ++ .fired found id :: earlier) (hf : found.OnTrial) (hw : RolledBack w)
      (ha : w.device.slots.rollbackCalls = asked + 1) (hl : ∀ x ∈ later, RolledBack x.found)
      (he : ∀ x ∈ earlier, x.call = none ∧ Undecided x.found)
  | markedValid (later : List (Happening A)) (x : Happening A) (earlier : List (Happening A))
      (hh : history = later ++ x :: earlier) (hx : x.marks = true) (hw : MarkedValid w)
      (ha : w.device.slots.rollbackCalls = asked) (hl : ∀ y ∈ later, MarkedValid y.found)
      (he : ∀ y ∈ earlier, y.call = none ∧ Undecided y.found)

namespace Stands

variable {asked : Nat} {w w' : World A} {history : List (Happening A)}

theorem of_untouched (hs : Stands asked w history) (h : Untouched w w') : Stands asked w' history := by
  cases hs with
  | undecided hw ha hh => exact .undecided (hw.of_untouched h) (h.rollbackCalls.trans ha) hh
  | rolledBack later found id earlier hh hf hw ha hl he =>
    exact .rolledBack later found id earlier hh hf (hw.of_untouched h) (h.rollbackCalls.trans ha) hl he
  | markedValid later x earlier hh hx hw ha hl he =>
    exact .markedValid later x earlier hh hx (hw.of_untouched h) (h.rollbackCalls.trans ha) hl he

/-- The timer acts, perhaps in a world in which it has been marked as spent meanwhile. -/
theorem ring (hs : Stands asked w history) (h : Untouched w w') (hf : w'.device.faults.rollback = false)
    (id : TimerId) : Stands asked w'.rollbackDue (.fired w id :: history) := by
  have hon : w'.OnTrial ↔ w.OnTrial := by
    unfold OnTrial
    rw [h.state, h.valid]
  cases hs with
  | undecided hw ha hh =>
    by_cases ht : w.OnTrial
    · obtain ⟨hrolled, hcalls⟩ := rolledBack_rollbackDue (hon.mpr ht) hf
      refine .rolledBack [] w id history rfl ht hrolled ?_ (fun _ hx => nomatch hx) hh
      rw [hcalls, h.rollbackCalls, ha]
    · rw [rollbackDue_of_not_onTrial w' (mt hon.mp ht)]
      have hcall : (Happening.fired w id).call = none := if_neg ht
      exact .undecided (hw.of_untouched h) (h.rollbackCalls.trans ha)
        (List.forall_mem_cons.mpr ⟨⟨hcall, hw⟩, hh⟩)
  | rolledBack later found id' earlier hh hfound hw ha hl he =>
    rw [rollbackDue_of_not_onTrial w' (hw.of_untouched h).not_onTrial]
    exact .rolledBack (.fired w id :: later) found id' earlier (congrArg _ hh) hfound (hw.of_untouched h)
      (h.rollbackCalls.trans ha) (List.forall_mem_cons.mpr ⟨hw, hl⟩) he
  | markedValid later x earlier hh hx hw ha hl he =>
    have ht : ¬ w'.OnTrial := fun ht => by
      have hvalid := (hon.mp ht).2
      rw [hw.valid] at hvalid
      cases hvalid
    rw [rollbackDue_of_not_onTrial w' ht]
    exact .markedValid (.fired w id :: later) x earlier (congrArg _ hh) hx (hw.of_untouched h)
      (h.rollbackCalls.trans ha) (List.forall_mem_cons.mpr ⟨hw, hl⟩) he

/-- The first mark decides. -/
theorem mark {task : Nat} {e : Effect A} {r : e.Reply} (hx : (Happening.did task ⟨w, e, r⟩).marks = true)
    (ha : w.device.slots.rollbackCalls = asked) (hh : ∀ x ∈ history, x.call = none ∧ Undecided x.found)
    (hw : MarkedValid w' ∧ w'.device.slots.rollbackCalls = w.device.slots.rollbackCalls) :
    Stands asked w' (.did task ⟨w, e, r⟩ :: history) :=
  .markedValid [] _ history rfl hx hw.1 (hw.2.trans ha) (fun _ hy => nomatch hy) hh

theorem undergo (hs : Stands asked w history) (task : Nat) (s : Saying) {e : Effect A}
    (hx : (Happening.did task ⟨w, e, (w.undergo s e).1⟩).Regular) :
    Stands asked (w.undergo s e).2 (.did task ⟨w, e, (w.undergo s e).1⟩ :: history) := by
  have he : e ≠ .markInvalid := by
    rintro rfl
    cases hx.spared
  cases hs with
  | undecided hw ha hh =>
    have hok : w.device.markValid.1 = .ok () := Device.markValid_ok hx.marking (by simp [hw.running])
    have hstill (hcall : w.callOf e = none) (hnext : Undecided (w.undergo s e).2 ∧
        (w.undergo s e).2.device.slots.rollbackCalls = w.device.slots.rollbackCalls) :
        Stands asked (w.undergo s e).2 (.did task ⟨w, e, (w.undergo s e).1⟩ :: history) :=
      .undecided hnext.1 (hnext.2.trans ha) (List.forall_mem_cons.mpr ⟨⟨hcall, hw⟩, hh⟩)
    by_cases hj : e.Judges
    · cases e with
      | markValid =>
        refine mark ?_ ha hh (hw.markValid hx.marking)
        simp [Happening.marks, Happening.succeeds, Happening.call, callOf, hok]
      | settleTrial =>
        have hi : w.engine.validation.state ≠ .invalid := by
          rcases hw.state with h | h <;> simp [h]
        refine mark ?_ ha hh (hw.settleTrial hx.marking)
        simp [Happening.marks, Happening.succeeds, Happening.call, callOf, hi, hok]
      | beginValidation seconds => exact hstill rfl (hw.beginValidation seconds)
      | markInvalid => exact absurd rfl he
      | _ => exact hj.elim
    · have h := w.untouched_undergo s hj
      refine hstill ?_ ⟨hw.of_untouched h, h.rollbackCalls⟩
      cases e <;> first | rfl | exact absurd trivial hj
  | rolledBack later found id earlier hh hf hw ha hl he' =>
    exact .rolledBack (_ :: later) found id earlier (congrArg _ hh) hf (hw.undergo s e)
      ((hw.calls s he).trans ha) (List.forall_mem_cons.mpr ⟨hw, hl⟩) he'
  | markedValid later x earlier hh hx' hw ha hl he' =>
    obtain ⟨hnext, hcalls⟩ := hw.undergo s he
    exact .markedValid (_ :: later) x earlier (congrArg _ hh) hx' hnext (hcalls.trans ha)
      (List.forall_mem_cons.mpr ⟨hw, hl⟩) he'

end Stands

theorem Turn.stands {asked : Nat} {w w' : World A} {h h' : List (Happening A)} (ht : Turn w h w' h')
    (hs : Stands asked w h) (hr : ∀ x ∈ h', x.Regular) : Stands asked w' h' := by
  cases ht with
  | paced c => exact hs.of_untouched (w.untouched_withConfirmation c)
  | surrounded s => exact hs.of_untouched ⟨rfl, rfl, rfl, rfl, rfl, rfl, rfl, rfl⟩
  | fired id hf =>
    rw [fireOnce_of_fuse hf]
    exact hs.ring (w.untouched_expire id) (hr _ List.mem_cons_self).rolling id
  | did task s e c =>
    exact (hs.undergo task s (hr _ List.mem_cons_self)).of_untouched (untouched_withConfirmation _ c)

theorem Race.stands_run (d : Device) (version : String) (hd : d.slots.running = .pendingVerify)
    (steps : List (Race.Step A)) (hr : ∀ x ∈ ((start A d version).run steps).boot.history, x.Regular) :
    Stands d.slots.rollbackCalls ((start A d version).run steps).boot.world
      ((start A d version).run steps).boot.history := by
  -- what is regular at the end has been regular all along
  have hrun := run_induction (r := start A d version) (P := fun b =>
    (∀ x ∈ b.history, x.Regular) → Stands d.slots.rollbackCalls b.world b.history) ?_ ?_ ?_ ?_ steps
  · exact hrun hr
  · intro _
    exact .undecided ⟨hd, rfl, .inl rfl⟩ rfl (fun _ hx => nomatch hx)
  · intro b m hs hr
    obtain ⟨news, hn⟩ := b.history_run [m]
    refine (b.turn_step m).stands (hs fun x hx => hr x ?_) hr
    have hn : (b.step m).history = news ++ b.history := hn
    rw [hn]
    exact List.mem_append_right _ hx
  · intro b id hs hr
    exact (hs hr).of_untouched (b.world.untouched_expire id)
  · intro b id hs hr
    obtain ⟨hx, hr⟩ := List.forall_mem_cons.mp hr
    exact (hs hr).ring ⟨rfl, rfl, rfl, rfl, rfl, rfl, rfl, rfl⟩ hx.rolling id

/-! ## The record -/

/-- As long as nobody's mark has taken effect, no task has a reason to erase the job id. -/
theorem unerased_of_unmarked {n : NextBoot} {own : String → Prop} {history : List (Happening A)}
    (hg : Throughout (Happening.Genuine n) history)
    (ho : Throughout (Happening.Heeds (Orderly own)) history)
    (hd : ∀ task d, .did task d ∈ history →
      d.found.callOf d.request = none ∧ Undecided d.found ∨ RolledBack d.found) :
    ∀ x ∈ history, x.erases = false := by
  intro x hx
  rw [Bool.eq_false_iff]
  intro he
  unfold Happening.erases at he
  split at he
  · rename_i task s
    obtain ⟨later, earlier, rfl⟩ := List.append_of_mem hx
    have hpast : ∀ d ∈ deedsBy task earlier,
        d.found.callOf d.request = none ∧ Undecided d.found ∨ RolledBack d.found := fun d h =>
      hd task d (List.mem_append_right _ (List.mem_cons_of_mem _ (mem_deedsBy.mp h)))
    rcases (ho.split task _ rfl).erases rfl with hconcluding | ⟨id, hleft⟩
    · generalize hp : deedsBy task earlier = past at hconcluding hpast
      obtain ⟨s₀, -⟩ := hconcluding
      have hi := ne_invalid_of_settled hg.drop.2 (mem_deedsBy.mp (hp ▸ List.mem_cons_self))
      rcases hpast _ List.mem_cons_self with ⟨hcall, -⟩ | hrolled
      · exact absurd hcall (by simp [callOf, hi])
      · exact hi hrolled.state
    · generalize hp : deedsBy task earlier = past at hleft hpast
      obtain ⟨s₀, s₁, s₂, seconds, past⟩ := hleft
      have hbegun : ⟨s₀, .beginValidation seconds, some (.ok .settled)⟩ ∈ deedsBy task earlier := by simp [hp]
      have hvalid := (valid_of_begun hg.drop.2 (mem_deedsBy.mp hbegun)).2
      rcases hpast _ (hp ▸ hbegun) with ⟨-, hopen⟩ | hrolled
      · cases hopen.running.symm.trans hvalid
      · cases hrolled.running.symm.trans hvalid
  · cases he

namespace Boot

structure RolledBackSince (d : Device) (b : Boot A) (later : List (Happening A)) : Prop where
  now : RolledBack b.world
  since : ∀ x ∈ later, RolledBack x.found
  once : b.world.device.slots.rollbackCalls = d.slots.rollbackCalls + 1
  record : b.world.nextBoot.jobId = d.nextBoot.jobId ∧ ∀ x ∈ later, x.found.nextBoot.jobId = d.nextBoot.jobId
  refused : ∀ task s r, .did task ⟨s, .markValid, r⟩ ∈ later → ∃ e, r = .error e
  reports : later.countP b.confirms ≤ 1
  ends : b.tasks.any Task.attempting = false →
    ∀ c, b.wake.world.engine.validation.confirmation = some c → c.phase = .ended ∨ c.phase = .broken

structure MarkedValidSince (d : Device) (b : Boot A) (later : List (Happening A)) : Prop where
  now : MarkedValid b.world
  since : ∀ x ∈ later, MarkedValid x.found
  never : b.world.device.slots.rollbackCalls = d.slots.rollbackCalls

end Boot

open Boot

/-- On the first boot of a new image, with a bootloader that does not fail, the first call to it decides.
If the timer makes it, the image stays rolled back, its job stays on record, and the confirmation sends
one report more at the most before it ends; if anyone else makes it, the image stays valid and is never
rolled back. -/
theorem Race.one_decision (d : Device) (version : String) (hd : d.slots.running = .pendingVerify)
    (steps : List (Race.Step A)) (hr : ∀ x ∈ ((start A d version).run steps).boot.history, x.Regular) :
    (Undecided ((start A d version).run steps).boot.world ∧
      ∀ x ∈ ((start A d version).run steps).boot.history, x.call = none) ∨
    (∃ later found id earlier,
      ((start A d version).run steps).boot.history = later ++ .fired found id :: earlier ∧
      found.OnTrial ∧ (∀ x ∈ earlier, x.call = none) ∧
      RolledBackSince d ((start A d version).run steps).boot later) ∨
    (∃ later x earlier, ((start A d version).run steps).boot.history = later ++ x :: earlier ∧
      x.marks = true ∧ (∀ y ∈ earlier, y.call = none) ∧
      MarkedValidSince d ((start A d version).run steps).boot later) := by
  have hg := (recorded_run d version steps).genuine
  have hnext := (recorded_run d version steps).nextBoot
  have ho := (orderly_run d version steps).history
  have hwinding := winding_run d version steps
  have hstands := stands_run d version hd steps hr
  generalize ((start A d version).run steps).boot = b at *
  cases hstands with
  | undecided hw ha hh => exact .inl ⟨hw, fun x hx => (hh x hx).1⟩
  | markedValid later x earlier hh hx hw ha hl he =>
    exact .inr (.inr ⟨later, x, earlier, hh, hx, fun y hy => (he y hy).1, hw, hl, ha⟩)
  | rolledBack later found id earlier hh hf hw ha hl he =>
    refine .inr (.inl ⟨later, found, id, earlier, hh, hf, fun x hx => (he x hx).1, hw, hl, ha, ?_, ?_, ?_, ?_⟩)
    · have hdeeds : ∀ task deed, .did task deed ∈ b.history →
          deed.found.callOf deed.request = none ∧ Undecided deed.found ∨ RolledBack deed.found := by
        intro task deed hx
        rw [hh] at hx
        rcases List.mem_append.mp hx with hx | hx
        · exact .inr (hl _ hx)
        · rcases List.mem_cons.mp hx with hx | hx
          · cases hx
          · exact .inl (he _ hx)
      have hkept : ∀ x ∈ b.history, x.saved? = none ∧ x.erases = false := fun x hx =>
        ⟨(hr x hx).unsaved, unerased_of_unmarked hg ho hdeeds x hx⟩
      refine ⟨?_, fun x hx => ?_⟩
      · rw [hnext, jobId_since_kept hkept]
      · obtain ⟨since, before, rfl⟩ := List.append_of_mem hx
        have hsplit : b.history = since ++ x :: (before ++ .fired found id :: earlier) := by simp [hh]
        rw [hsplit] at hg hkept
        rw [hg.split.found, jobId_since_kept fun y hy => hkept y (by simp [hy])]
    · intro task s r hmark
      obtain ⟨since, before, hsplit⟩ := List.append_of_mem hmark
      rw [hh, hsplit, List.append_assoc] at hg
      obtain ⟨-, s', hreply⟩ := hg.split
      obtain ⟨e, hrefused⟩ := (hl _ hmark).markValid.1
      exact ⟨e, hreply.trans hrefused⟩
    · -- whatever has been reported since then has been reported after the cancellation
      have hlate : later.countP b.confirms = later.countP b.confirmsLate := by
        apply List.countP_congr
        intro x hx
        simp [confirmsLate, (hl x hx).cancelled]
      obtain ⟨k, -, hle⟩ := hwinding.reserve
      rw [hh, List.countP_append] at hle
      omega
    · exact fun hn c hc => ended_wake hw.cancelled hn hc

/-- The timer expires when the confirmation has read the id, and acts before it reports. The service
acknowledges the report, and the application marks the image valid, both in vain. -/
def Race.expiring : List (Race.Step Agent.application) :=
  enabling.map .move ++ [.move .attempt, .move (.go 1 obliging), .expire 1, .ring] ++
  List.replicate 6 (.move (.go 1 obliging)) ++ [.move (.call .markValid), .move (.go 2 obliging)]

theorem Race.one_decision_expiring : trialDevice.slots.running = .pendingVerify ∧
    (∀ x ∈ ((start Agent.application trialDevice "1.0.0").run expiring).boot.history, x.Regular) ∧
    ((Undecided ((start Agent.application trialDevice "1.0.0").run expiring).boot.world ∧
        ∀ x ∈ ((start Agent.application trialDevice "1.0.0").run expiring).boot.history, x.call = none) ∨
      (∃ later found id earlier,
        ((start Agent.application trialDevice "1.0.0").run expiring).boot.history =
          later ++ .fired found id :: earlier ∧
        found.OnTrial ∧ (∀ x ∈ earlier, x.call = none) ∧
        RolledBackSince trialDevice ((start Agent.application trialDevice "1.0.0").run expiring).boot later) ∨
      (∃ later x earlier,
        ((start Agent.application trialDevice "1.0.0").run expiring).boot.history = later ++ x :: earlier ∧
        x.marks = true ∧ (∀ y ∈ earlier, y.call = none) ∧
        MarkedValidSince trialDevice ((start Agent.application trialDevice "1.0.0").run expiring).boot
          later)) := by
  have hd : trialDevice.slots.running = .pendingVerify := by decide
  have hr : ∀ x ∈ ((start Agent.application trialDevice "1.0.0").run expiring).boot.history, x.Regular := by
    decide +kernel
  exact ⟨hd, hr, one_decision trialDevice "1.0.0" hd expiring hr⟩

/-- In that race the report is sent after the rollback. -/
example : let b := ((Race.start Agent.application trialDevice "1.0.0").run Race.expiring).boot
    b.world.device.slots.running = .invalid ∧ b.history.countP b.confirmsLate = 1 ∧
      b.world.status.validation = .invalid := by
  decide +kernel

end FirmwareUpdate
