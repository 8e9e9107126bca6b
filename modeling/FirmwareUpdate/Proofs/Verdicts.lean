import FirmwareUpdate.Proofs.Erasures
import FirmwareUpdate.Proofs.RollbackNet

/-!
# The engine's verdict and the bootloader's

The engine keeps a verdict of its own on the running image. It is the bootloader's verdict everywhere
but in one place: once the service has acknowledged a success, the engine accepts the image also when
the bootloader refuses to mark it. The two then differ until the bootloader marks the image after all
or the engine is told to mark it invalid.
-/

namespace FirmwareUpdate

variable {A : Application}

/-! ## Who judges -/

def World.Accepts (w : World A) : Prop := w.status.valid = true ∨ w.status.validation = .valid

namespace Happening

def marks (x : Happening A) : Bool :=
  match x with
  | did _ ⟨_, .markValid, _⟩ | did _ ⟨_, .settleTrial, _⟩ => x.succeeds
  | _ => false

def condemns : Happening A → Bool
  | did _ ⟨_, .markInvalid, _⟩ => true
  | _ => false

def acceptsAlone (x : Happening A) : Bool :=
  match x with
  | did _ ⟨w, .settleTrial, _⟩ => x.fails && w.device.slots.running != .valid
  | _ => false

end Happening

/-- The engine has accepted the image alone, and neither side has gone back on it. -/
def acceptedAlone : List (Happening A) → Bool
  | [] => false
  | x :: earlier => x.acceptsAlone || (!x.marks && !x.condemns && acceptedAlone earlier)

theorem acceptedAlone_iff {history : List (Happening A)} : acceptedAlone history = true ↔
    ∃ later x earlier, history = later ++ x :: earlier ∧ x.acceptsAlone = true ∧
      ∀ y ∈ later, y.marks = false ∧ y.condemns = false := by
  induction history with
  | nil => simp [acceptedAlone]
  | cons y history ih =>
    simp only [acceptedAlone, Bool.or_eq_true, Bool.and_eq_true, Bool.not_eq_true', ih]
    constructor
    · rintro (hy | ⟨hy, later, x, earlier, rfl, hx, hl⟩)
      · exact ⟨[], y, history, rfl, hy, fun _ h => nomatch h⟩
      · exact ⟨y :: later, x, earlier, rfl, hx, List.forall_mem_cons.mpr ⟨hy, hl⟩⟩
    · rintro ⟨later, x, earlier, h, hx, hl⟩
      cases later with
      | nil =>
        obtain ⟨rfl, rfl⟩ := List.cons.inj h
        exact .inl hx
      | cons y' later =>
        obtain ⟨rfl, rfl⟩ := List.cons.inj h
        rw [List.forall_mem_cons] at hl
        exact .inr ⟨hl.1, later, x, earlier, rfl, hx, hl.2⟩

/-! ## The bootloader's part -/

namespace Device

theorem running_markValid (d : Device) : d.markValid.2.slots.running =
    match d.markValid.1 with
    | .ok () => .valid
    | .error _ => d.slots.running := by
  unfold markValid
  split
  · rfl
  · dsimp only [Slots.markValid]
    split <;> rfl

theorem running_rollback {d : Device} (h : d.rollback.2.slots.running = .valid) :
    d.slots.running = .valid := by
  unfold rollback at h
  split at h
  · exact h
  · cases h

end Device

/-! ## One turn -/

namespace World

structure Unjudged (w w' : World A) : Prop where
  state : w'.engine.validation.state = w.engine.validation.state
  valid : w'.engine.validation.valid = w.engine.validation.valid
  running : w'.device.slots.running = w.device.slots.running

theorem Untouched.unjudged {w w' : World A} (h : Untouched w w') : Unjudged w w' where
  state := h.state
  valid := h.valid
  running := h.running

theorem unjudged_undergo (w : World A) (s : Saying) {e : Effect A} (h : ¬ e.Judges) :
    Unjudged w (w.undergo s e).2 := (w.untouched_undergo s h).unjudged

/-- How the verdicts came about on a boot that began with the given slot. -/
structure Judged (booted : SlotState) (w : World A) (history : List (Happening A)) : Prop where
  timed : w.Timed
  alone : w.Accepts ∧ w.device.slots.running ≠ .valid ↔ acceptedAlone history = true
  marked : w.device.slots.running = .valid → booted = .valid ∨ ∃ x ∈ history, x.marks = true
  unstarted : w.engine.validation.state = .init → w.device.slots.running = booted

variable {booted : SlotState} {w w' : World A} {history : List (Happening A)}

theorem Unjudged.accepts (h : Unjudged w w') : w'.Accepts ↔ w.Accepts := by
  unfold Accepts status
  rw [h.state, h.valid]

theorem Judged.of_unjudged (hj : Judged booted w history) (h : Unjudged w w') (ht : w'.Timed) :
    Judged booted w' history where
  timed := ht
  alone := by
    rw [h.accepts, h.running]
    exact hj.alone
  marked hr := hj.marked (h.running ▸ hr)
  unstarted hs := h.running.trans (hj.unstarted (h.state ▸ hs))

theorem Judged.did_unjudged (hj : Judged booted w history) {x : Happening A} (ha : x.acceptsAlone = false)
    (hm : x.marks = false) (hc : x.condemns = false) : Judged booted w (x :: history) where
  timed := hj.timed
  alone := by simpa [acceptedAlone, ha, hm, hc] using hj.alone
  marked hr := by simpa [hm] using hj.marked hr
  unstarted := hj.unstarted

theorem Judged.markValid (hj : Judged booted w history) (ht : w.markValid.2.Timed) (task : Nat)
    (r : Except UpdateError Unit) :
    Judged booted w.markValid.2 (.did task ⟨w, .markValid, r⟩ :: history) := by
  have hrunning := (congrArg Slots.running w.slots_markValid).trans w.device.running_markValid
  have hv := w.validation_markValid
  cases hm : w.device.markValid.1 with
  | error c =>
    rw [hm] at hrunning hv
    have hx : (Happening.did task ⟨w, .markValid, r⟩).marks = false := by
      simp [Happening.marks, Happening.succeeds, Happening.call, callOf, hm]
    exact (hj.of_unjudged ⟨by rw [hv], by rw [hv], hrunning⟩ ht).did_unjudged rfl hx rfl
  | ok =>
    rw [hm] at hrunning hv
    have hx : (Happening.did task ⟨w, .markValid, r⟩).marks = true := by
      simp [Happening.marks, Happening.succeeds, Happening.call, callOf, hm]
    refine ⟨ht, ?_, fun _ => .inr ⟨_, List.mem_cons_self, hx⟩, fun hs => ?_⟩
    · simp [acceptedAlone, hx, hrunning, Happening.acceptsAlone]
    · rw [hv] at hs
      dsimp only at hs
      split at hs <;> cases hs

theorem Judged.markInvalid (hj : Judged booted w history) (ht : w.markInvalid.2.Timed) (task : Nat)
    (r : Except UpdateError Unit) :
    Judged booted w.markInvalid.2 (.did task ⟨w, .markInvalid, r⟩ :: history) where
  timed := ht
  alone := by
    simp [acceptedAlone, Happening.acceptsAlone, Happening.condemns, Accepts, status, validation_markInvalid]
  marked hr := by
    rw [slots_markInvalid] at hr
    exact (hj.marked (Device.running_rollback hr)).imp_right fun ⟨x, hx, hm⟩ =>
      ⟨x, List.mem_cons_of_mem _ hx, hm⟩
  unstarted hs := by
    rw [validation_markInvalid] at hs
    cases hs

theorem Judged.settleTrial (hj : Judged booted w history) (ht : w.settleTrial.2.Timed) (task : Nat)
    (r : Bool) : Judged booted w.settleTrial.2 (.did task ⟨w, .settleTrial, r⟩ :: history) := by
  by_cases hi : w.engine.validation.state = .invalid
  · -- too late: an image that was condemned is not settled any more
    have hw : Unjudged w w.settleTrial.2 := by
      rw [w.settleTrial_invalid hi]
      exact ⟨rfl, rfl, rfl⟩
    have hcall : (Happening.did task ⟨w, .settleTrial, r⟩).call = none := if_pos hi
    have ⟨hsucceeds, hfails⟩ := (Happening.call_eq_none_iff _).mp hcall
    exact (hj.of_unjudged hw ht).did_unjudged (by simp [Happening.acceptsAlone, hfails]) hsucceeds rfl
  · have hrunning := (congrArg Slots.running (slots_settleTrial hi)).trans w.device.running_markValid
    have hv := validation_settleTrial hi
    have hcall : (Happening.did task ⟨w, .settleTrial, r⟩).call = some w.device.markValid.1 := if_neg hi
    have haccepts : w.settleTrial.2.Accepts := .inl (congrArg Validation.valid hv)
    have hstarted : w.settleTrial.2.engine.validation.state ≠ .init := by
      rw [hv]
      nofun
    cases hm : w.device.markValid.1 with
    | error c =>
      rw [hm] at hrunning hcall
      have hx : (Happening.did task ⟨w, .settleTrial, r⟩).marks = false := by
        simp [Happening.marks, Happening.succeeds, hcall]
      have halone : (Happening.did task ⟨w, .settleTrial, r⟩).acceptsAlone =
          (w.device.slots.running != .valid) := by
        simp [Happening.acceptsAlone, Happening.fails, hcall]
      refine ⟨ht, ?_, fun hr => ?_, fun hs => absurd hs hstarted⟩
      · -- a refusal changes nothing for an image that is marked already
        have hkept : acceptedAlone history = true → w.device.slots.running ≠ .valid :=
          fun h => (hj.alone.mpr h).2
        simp only [acceptedAlone, halone, hx, Happening.condemns, haccepts, hrunning, true_and,
          Bool.not_false, Bool.true_and, Bool.or_eq_true, bne_iff_ne, ne_eq]
        exact ⟨.inl, fun h => h.elim id hkept⟩
      · exact (hj.marked (hrunning.symm.trans hr)).imp_right fun ⟨x, hx, hm⟩ =>
          ⟨x, List.mem_cons_of_mem _ hx, hm⟩
    | ok =>
      rw [hm] at hrunning hcall
      have hx : (Happening.did task ⟨w, .settleTrial, r⟩).marks = true := by
        simp [Happening.marks, Happening.succeeds, hcall]
      refine ⟨ht, ?_, fun _ => .inr ⟨_, List.mem_cons_self, hx⟩, fun hs => absurd hs hstarted⟩
      simp [acceptedAlone, hx, hrunning, Happening.acceptsAlone, Happening.fails, hcall]

theorem verdict_beginValidation (hv : w.engine.validation.valid = false) (seconds : Nat) :
    (w.beginValidation seconds).2.device.slots.running = w.device.slots.running ∧
    ((w.beginValidation seconds).2 = w ∨ (w.beginValidation seconds).2.engine.validation.state ≠ .init ∧
      ((w.beginValidation seconds).2.Accepts → w.device.slots.running = .valid)) := by
  have hb := w.beginning seconds
  generalize (w.beginValidation seconds).1 = r, (w.beginValidation seconds).2 = w' at hb ⊢
  cases hb with
  | begun | illegible => exact ⟨rfl, .inl rfl⟩
  | trial =>
    have hvalidation := (w.note (.slotState .pendingVerify)).validation_beginTrial seconds
    have hstate := congrArg Validation.state hvalidation
    have hvalid := (congrArg Validation.valid hvalidation).trans hv
    refine ⟨by rw [slots_beginTrial]; rfl, .inr ⟨by rw [hstate]; nofun, fun h => ?_⟩⟩
    simp [Accepts, status, hstate, hvalid] at h
  | settled _ hr => exact ⟨rfl, .inr ⟨nofun, fun _ => hr⟩⟩
  | foreign =>
    refine ⟨rfl, .inr ⟨nofun, fun h => ?_⟩⟩
    simp [Accepts, status, moveValidation, World.note, withValidation, hv] at h

theorem Judged.beginValidation (hj : Judged booted w history) (seconds : Nat)
    (ht : (w.beginValidation seconds).2.Timed) (task : Nat) (r : Option (Except UpdateError BootKind)) :
    Judged booted (w.beginValidation seconds).2 (.did task ⟨w, .beginValidation seconds, r⟩ :: history) := by
  by_cases hi : w.engine.validation.state = .init
  · -- before the validation has begun the engine has accepted nothing
    obtain ⟨hrunning, hw | ⟨hstarted, haccepts⟩⟩ :=
      verdict_beginValidation (hj.timed.unstarted hi).2 seconds
    · rw [hw]
      exact hj.did_unjudged rfl rfl rfl
    · have hnone : acceptedAlone history = false := by
        rw [← Bool.not_eq_true, ← hj.alone]
        rintro ⟨hw, -⟩
        simp [Accepts, status, hi, (hj.timed.unstarted hi).2] at hw
      refine ⟨ht, ?_, fun hr => ?_, fun hs => absurd hs hstarted⟩
      · rw [hrunning]
        simpa [acceptedAlone, Happening.acceptsAlone, hnone] using haccepts
      · simpa [Happening.marks] using hj.marked (hrunning.symm.trans hr)
  · rw [beginValidation_started hi]
    exact hj.did_unjudged rfl rfl rfl

theorem Judged.fired (hj : Judged booted w history) {id : TimerId} (hf : w.device.timers.fuse id = true)
    (ht : (w.fireOnce id).2.Timed) : Judged booted (w.fireOnce id).2 (.fired w id :: history) := by
  -- a timer that is still armed belongs to an image on trial, which the engine has not accepted
  have hon := hj.timed.onTrial id hf
  have hnone : acceptedAlone history = false := by
    rw [← Bool.not_eq_true, ← hj.alone]
    rintro ⟨hw, -⟩
    simp [Accepts, status, hon.1, hon.2] at hw
  let fired : World A :=
    { w with device := { w.device with timers := w.device.timers.setState id .fired } }
  have hfire : (w.fireOnce id).2 = if w.device.timers.isArmed id then fired.rollbackDue else w := by
    unfold fireOnce
    split <;> rfl
  have hw : (w.fireOnce id).2 = fired.rollbackDue := by
    rw [hfire, if_pos (Timers.isArmed_of_fuse hf)]
  have hv : fired.rollbackDue.engine.validation =
      { w.engine.validation with confirmCancelled := true, state := .invalid } := validation_rollbackDue hon
  have hkept : fired.device.slots = w.device.slots := rfl
  have hr : fired.device.rollback.2.slots = w.device.rollback.2.slots := (Device.rollback_congr hkept rfl).2
  have hs : fired.rollbackDue.device.slots = w.device.rollback.2.slots :=
    (slots_rollbackDue (w := fired) hon).trans hr
  rw [hw] at ht ⊢
  refine ⟨ht, ?_, fun hr => ?_, fun h => ?_⟩
  · simp [acceptedAlone, Happening.acceptsAlone, hnone, Accepts, status, hv, hon.2]
  · rw [hs] at hr
    simpa [Happening.marks] using hj.marked (Device.running_rollback hr)
  · rw [hv] at h
    cases h

theorem Judged.undergo (hj : Judged booted w history) (task : Nat) (s : Saying) (e : Effect A) :
    Judged booted (w.undergo s e).2 (.did task ⟨w, e, (w.undergo s e).1⟩ :: history) := by
  have ht : (w.undergo s e).2.Timed :=
    ((Turn.did (h := history) task s e (w.undergo s e).2.engine.validation.confirmation).net hj.timed).1
  cases e with
  | markValid => exact hj.markValid ht task _
  | markInvalid => exact hj.markInvalid ht task _
  | settleTrial => exact hj.settleTrial ht task _
  | beginValidation seconds => exact hj.beginValidation seconds ht task _
  | _ => exact (hj.of_unjudged (w.unjudged_undergo s id) ht).did_unjudged rfl rfl rfl

end World

open World

theorem Turn.judged {booted : SlotState} {w w' : World A} {h h' : List (Happening A)} (ht : Turn w h w' h')
    (hj : Judged booted w h) : Judged booted w' h' := by
  have htimed := (ht.net hj.timed).1
  cases ht with
  | paced c => exact hj.of_unjudged ⟨rfl, rfl, rfl⟩ htimed
  | surrounded s => exact hj.of_unjudged ⟨rfl, rfl, rfl⟩ htimed
  | fired id hf => exact hj.fired hf htimed
  | did task s e c => exact (hj.undergo task s e).of_unjudged ⟨rfl, rfl, rfl⟩ htimed

theorem ne_invalid_of_settled {n : NextBoot} {history : List (Happening A)} {task : Nat} {s : World A}
    (hg : Throughout (Happening.Genuine n) history) (h : .did task ⟨s, .settleTrial, true⟩ ∈ history) :
    s.engine.validation.state ≠ .invalid := by
  intro hi
  obtain ⟨later, earlier, rfl⟩ := List.append_of_mem h
  obtain ⟨-, _, hreply⟩ := hg.split
  have hfalse : true = false := hreply.trans (congrArg Prod.fst (s.settleTrial_invalid hi))
  cases hfalse

namespace Boot

theorem judged_run (d : Device) (version : String) (ms : List (Move A)) :
    Judged d.slots.running ((start A d version).run ms).world ((start A d version).run ms).history ∧
    Throughout (fun x earlier => Judged d.slots.running x.found earlier)
      ((start A d version).run ms).history := by
  refine run_throughout (fun ht hj => ht.judged hj) d version
    ⟨timed_boot d version, ?_, .inl, fun _ => rfl⟩ ms
  simp [acceptedAlone, Accepts, status, start, boot, Engine.booted, Validation.unstarted]

theorem marked_or_alone_of_settled {booted : SlotState} {n : NextBoot} {history : List (Happening A)}
    {task : Nat} {s : World A} (hb : booted ≠ .valid)
    (hj : Throughout (fun x earlier => Judged booted x.found earlier) history)
    (hg : Throughout (Happening.Genuine n) history) (h : .did task ⟨s, .settleTrial, true⟩ ∈ history) :
    ∃ x ∈ history, x.marks = true ∨ x.acceptsAlone = true := by
  have hstate := ne_invalid_of_settled hg h
  obtain ⟨later, earlier, rfl⟩ := List.append_of_mem h
  have hcall : (Happening.did task ⟨s, .settleTrial, true⟩).call = some s.device.markValid.1 := if_neg hstate
  cases hm : s.device.markValid.1 with
  | ok =>
    rw [hm] at hcall
    exact ⟨_, h, .inl (by simp [Happening.marks, Happening.succeeds, hcall])⟩
  | error c =>
    rw [hm] at hcall
    by_cases hr : s.device.slots.running = .valid
    · obtain ⟨x, hx, hmarks⟩ := (hj.split.marked hr).resolve_left hb
      exact ⟨x, by simp [hx], .inl hmarks⟩
    · exact ⟨_, h, .inr (by simp [Happening.acceptsAlone, Happening.fails, hcall, hr])⟩

theorem booted_of_begun {booted : SlotState} {n : NextBoot} {history : List (Happening A)}
    {task seconds : Nat} {s : World A}
    (hj : Throughout (fun x earlier => Judged booted x.found earlier) history)
    (hg : Throughout (Happening.Genuine n) history)
    (h : .did task ⟨s, .beginValidation seconds, some (.ok .settled)⟩ ∈ history) : booted = .valid := by
  obtain ⟨hi, hr⟩ := valid_of_begun hg h
  obtain ⟨later, earlier, rfl⟩ := List.append_of_mem h
  exact (hj.split.unstarted hi).symm.trans hr

theorem concluding_of_erased {d : Device} (hd : d.slots.running ≠ .valid) (version : String)
    (ms : List (Move A)) {later earlier : List (Happening A)} {task : Nat} {s : World A}
    {r : Except Cause Unit}
    (h : ((start A d version).run ms).history = later ++ .did task ⟨s, .eraseJobId, r⟩ :: earlier) :
    Concluding (deedsBy task earlier) := by
  have hj := (judged_run d version ms).2
  have hg := (genuine_run d version ms).2
  have hrule := (orderly_run d version ms).history
  rw [h] at hj hg hrule
  refine ((hrule.split task _ rfl).erases rfl).resolve_right ?_
  rintro ⟨id, hleft⟩
  generalize hp : deedsBy task earlier = past at hleft
  obtain ⟨s₀, s₁, s₂, seconds, past⟩ := hleft
  have hbegun : .did task ⟨s₀, .beginValidation seconds, some (.ok .settled)⟩ ∈ earlier :=
    mem_deedsBy.mp (by simp [hp])
  exact hd (booted_of_begun hj.drop.2 hg.drop.2 hbegun)

/-- The engine takes for valid what the bootloader does not, exactly if it has accepted the image alone
and since then the image has neither been marked after all nor been condemned. On the first boot of a
new image the job id is erased only after a mark or such an acceptance. -/
theorem verdicts_differ_iff (d : Device) (version : String) (ms : List (Move A)) :
    (((start A d version).run ms).world.Accepts ∧
        ((start A d version).run ms).world.device.slots.running ≠ .valid ↔
      ∃ later x earlier, ((start A d version).run ms).history = later ++ x :: earlier ∧
        x.acceptsAlone = true ∧ ∀ y ∈ later, y.marks = false ∧ y.condemns = false) ∧
    (d.slots.running ≠ .valid → ∀ later task s earlier,
      ((start A d version).run ms).history = later ++ .did task ⟨s, .eraseJobId, .ok ()⟩ :: earlier →
      ∃ x ∈ earlier, x.marks = true ∨ x.acceptsAlone = true) := by
  obtain ⟨hworld, hj⟩ := judged_run d version ms
  refine ⟨hworld.alone.trans acceptedAlone_iff, ?_⟩
  intro hb later task s earlier h
  have hconcluding := concluding_of_erased hb version ms h
  have hg := (genuine_run d version ms).2
  rw [h] at hj hg
  generalize hp : deedsBy task earlier = past at hconcluding
  obtain ⟨s₀, -⟩ := hconcluding
  have hsettled : .did task ⟨s₀, .settleTrial, true⟩ ∈ earlier := mem_deedsBy.mp (hp ▸ List.mem_cons_self)
  exact marked_or_alone_of_settled hb hj.drop.2 hg.drop.2 hsettled

def acceptingAlone : List (Move Agent.application) :=
  [.disturb ⟨[], [], [], { Faults.none with markValid := true }, false, false, false⟩, .attempt] ++
  List.replicate 10 (.go 1 obliging)

theorem verdicts_differ_iff_acceptingAlone : trialDevice.slots.running ≠ .valid ∧
    (((start Agent.application trialDevice "1.0.0").run (enabling ++ acceptingAlone)).world.Accepts ∧
        ((start Agent.application trialDevice "1.0.0").run
          (enabling ++ acceptingAlone)).world.device.slots.running ≠ .valid ↔
      ∃ later x earlier, ((start Agent.application trialDevice "1.0.0").run
          (enabling ++ acceptingAlone)).history = later ++ x :: earlier ∧
        x.acceptsAlone = true ∧ ∀ y ∈ later, y.marks = false ∧ y.condemns = false) ∧
    ∃ later task s earlier, ((start Agent.application trialDevice "1.0.0").run
        (enabling ++ acceptingAlone)).history = later ++ .did task ⟨s, .eraseJobId, .ok ()⟩ :: earlier ∧
      ∃ x ∈ earlier, x.marks = true ∨ x.acceptsAlone = true := by
  have hd : trialDevice.slots.running ≠ .valid := by decide
  have herased : ((start Agent.application trialDevice "1.0.0").run
      (enabling ++ acceptingAlone)).history.any (erasing "A") = true := by decide +kernel
  obtain ⟨later, task, s, earlier, h, -⟩ := exists_of_erasing herased
  have hdiffer := verdicts_differ_iff trialDevice "1.0.0" (enabling ++ acceptingAlone)
  exact ⟨hd, hdiffer.1, later, task, s, earlier, h, hdiffer.2 hd later task s earlier h⟩

/-- A refused mark leaves an image on trial accepted by the engine, and its job id erased. -/
theorem accepted_without_mark :
    trialDevice.slots.running = .pendingVerify ∧
    ((start Agent.application trialDevice "1.0.0").run
      (enabling ++ acceptingAlone)).world.status.validation = .valid ∧
    ((start Agent.application trialDevice "1.0.0").run
      (enabling ++ acceptingAlone)).world.status.valid = true ∧
    ((start Agent.application trialDevice "1.0.0").run
      (enabling ++ acceptingAlone)).world.device.slots.running = .pendingVerify ∧
    ((start Agent.application trialDevice "1.0.0").run
      (enabling ++ acceptingAlone)).world.nextBoot.jobId = none ∧
    ∀ x ∈ ((start Agent.application trialDevice "1.0.0").run (enabling ++ acceptingAlone)).history,
      x.marks = false := by
  decide +kernel

end Boot

end FirmwareUpdate
