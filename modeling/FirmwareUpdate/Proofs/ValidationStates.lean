import FirmwareUpdate.Proofs.OneValidation
import FirmwareUpdate.Proofs.TrialDecisions

/-!
# The states of the validation

What the engine makes of the running image is a state and a flag. No step of a run changes them but by a table,
whatever is called, whichever timers fire, and whatever the bootloader answers: it may refuse what it granted
before, and take back what it said. No step leads back to an earlier state. Only a call that marks the image
invalid leads out of a boot that has nothing to validate, and only a mark that the bootloader accepts leads out of
an invalid image.
-/

namespace FirmwareUpdate

open Routine

variable {A : Application}

/-! ## What a move comes to -/

namespace Boot

open Activity

inductive Moved (b : Boot A) : Boot A → Prop
  | idle : Moved b b
  | called (c : Call A) : Moved b { b with tasks := b.tasks ++ [.call c.activity] }
  | attempted (c : Confirmation) (h : b.world.engine.validation.confirmation = some c) :
    Moved b { b with tasks := b.tasks ++ [.attempt (confirmAttempt (c.attempts + 1) c.interval)] }
  | paced (c c' : Confirmation) (h : b.world.engine.validation.confirmation = some c) :
    Moved b { b with world := b.world.withConfirmation (some c') }
  | advanced (task : Nat) (s : Saying) {e : Effect A} {next : e.Reply → Activity A Unit}
    (ht : b.tasks[task]? = some (.call (.step e next))) :
    Moved b ⟨(b.world.undergo s e).2, b.tasks.set task (.call (next (b.world.undergo s e).1)),
      .did task ⟨b.world, e, (b.world.undergo s e).1⟩ :: b.history⟩
  | tried (task : Nat) (s : Saying) {e : Effect A} {next : e.Reply → Activity A Attempt}
    (ht : b.tasks[task]? = some (.attempt (.step e next))) :
    Moved b ⟨(b.world.undergo s e).2.afterAttempt (next (b.world.undergo s e).1),
      b.tasks.set task (.attempt (next (b.world.undergo s e).1)),
      .did task ⟨b.world, e, (b.world.undergo s e).1⟩ :: b.history⟩
  | fired (id : TimerId) (hf : b.world.device.timers.fuse id = true) :
    Moved b ⟨(b.world.fireOnce id).2, b.tasks, .fired b.world id :: b.history⟩
  | disturbed (s : Surroundings) : Moved b { b with world := { b.world with device := b.world.device.surround s } }

theorem moved (b : Boot A) (m : Move A) : b.Moved (b.step m) := by
  cases m with
  | call c => exact .called c
  | attempt =>
    change b.Moved b.beginAttempt
    unfold beginAttempt
    split
    · rename_i c hc
      split
      · exact .attempted c hc
      · exact .idle
    · exact .idle
  | wake =>
    change b.Moved b.wake
    unfold wake
    dsimp only
    split
    · rename_i c hc
      split
      · exact .paced c _ hc
      · exact .idle
    · exact .idle
  | go task s =>
    change b.Moved (b.advance task s)
    unfold advance
    cases ht : b.tasks[task]? with
    | none => exact .idle
    | some t =>
      rcases t with rest | rest
      · cases rest with
        | step e next => exact .advanced task s ht
        | _ => exact .idle
      · cases rest with
        | step e next => exact .tried task s ht
        | _ => exact .idle
  | fire id =>
    change b.Moved (b.fire id)
    unfold fire
    split
    · rename_i hf
      exact .fired id hf
    · exact .idle
  | disturb s => exact .disturbed s

end Boot

/-! ## Before any bootloader -/

def World.withSlots (w : World A) (s : Slots) : World A := { w with device := { w.device with slots := s } }

namespace Race

/-- A step of a race, or the bootloader comes to hold something else of the slots. -/
inductive Twist (A : Application) where
  | step (st : Step A)
  | slots (s : Slots)

def twist (r : Race A) : Twist A → Race A
  | .step st => r.step st
  | .slots s => { r with boot := { r.boot with world := r.boot.world.withSlots s } }

def through (r : Race A) (ts : List (Twist A)) : Race A := ts.foldl twist r

def sequel (d : Device) (version : String) (ts : List (Twist A)) : Boot A := ((start A d version).through ts).boot

end Race

inductive Boot.Twisted (b : Boot A) : Boot A → Prop
  | moved {b' : Boot A} (h : b.Moved b') : Twisted b b'
  | expired (id : TimerId) (hf : b.world.device.timers.fuse id = true) : Twisted b (b.expire id)
  | rung (id : TimerId) : Twisted b (b.ring id)
  | swapped (s : Slots) : Twisted b { b with world := b.world.withSlots s }

namespace Race

theorem twisted (r : Race A) (t : Twist A) : r.boot.Twisted (r.twist t).boot := by
  cases t with
  | slots s => exact .swapped s
  | step st =>
    cases st with
    | move m => exact .moved (r.boot.moved m)
    | expire id =>
      simp only [twist, step]
      split
      · rename_i hf
        exact .expired id hf
      · exact .moved .idle
    | ring =>
      simp only [twist, step]
      split
      · exact .rung _
      · exact .moved .idle

/-- What every twist preserves holds of every boot that a race comes to. -/
theorem twist_induction {P : Boot A → Prop} {r : Race A} (h : P r.boot)
    (ht : ∀ b b', P b → b.Twisted b' → P b') (ts : List (Twist A)) : P (r.through ts).boot := by
  induction ts generalizing r with
  | nil => exact h
  | cons t ts ih => exact ih (ht _ _ h (r.twisted t))

end Race

/-! ## The table -/

/-- What the engine makes of the running image. -/
structure Verdict where
  state : ValidationState
  valid : Bool
  deriving DecidableEq

/-- An image that passes for valid has the flag, and otherwise only one that had nothing to validate may have it. -/
structure Verdict.Sound (v : Verdict) : Prop where
  flagged : v.state = .valid → v.valid = true
  stated : v.valid = true → v.state = .valid ∨ v.state = .notOtaBoot

/-- The image is on trial, or it has been judged. -/
def Verdict.Tried (v : Verdict) : Prop := v.state = .validating ∨ v.state = .valid ∨ v.state = .invalid

namespace World

def verdict (w : World A) : Verdict := ⟨w.engine.validation.state, w.engine.validation.valid⟩

/-- What may happen in a world, and what the engine makes of the image then. -/
inductive Shift (w : World A) : List (Happening A) → Verdict → Prop
  | still : Shift w [] w.verdict
  | kept (x : Happening A) (hx : x.begins = false) : Shift w [x] w.verdict
  | onTrial (task seconds : Nat) (h : w.verdict.state = .init) :
    Shift w [.did task ⟨w, .beginValidation seconds, some (.ok .trial)⟩] ⟨.validating, w.verdict.valid⟩
  | settled (task seconds : Nat) (h : w.verdict.state = .init) :
    Shift w [.did task ⟨w, .beginValidation seconds, some (.ok .settled)⟩] ⟨.valid, true⟩
  | foreign (task seconds : Nat) (h : w.verdict.state = .init) :
    Shift w [.did task ⟨w, .beginValidation seconds, some (.ok .foreign)⟩] ⟨.notOtaBoot, w.verdict.valid⟩
  | marked (task : Nat) (h : w.device.markValid.1 = .ok ()) :
    Shift w [.did task ⟨w, .markValid, .ok ()⟩]
      ⟨if w.verdict.state = .notOtaBoot then .notOtaBoot else .valid, true⟩
  | condemned (task : Nat) (r : Except UpdateError Unit) : Shift w [.did task ⟨w, .markInvalid, r⟩] ⟨.invalid, false⟩
  | confirmed (task : Nat) (h : w.verdict.state = .validating ∨ w.verdict.state = .valid) :
    Shift w [.did task ⟨w, .settleTrial, true⟩] ⟨.valid, true⟩
  | expired (id : TimerId) (h : w.verdict = ⟨.validating, false⟩) : Shift w [.fired w id] ⟨.invalid, false⟩

variable {w w' : World A} {news : List (Happening A)} {v : Verdict}

/-- A new verdict is a sound one, unless a validation begins after the image has been flagged. -/
theorem Shift.sound_or_same (h : w.Shift news v) (hw : w.verdict = ⟨.init, true⟩ → news.countP Happening.begins = 0) :
    v.Sound ∨ v = w.verdict := by
  cases h with
  | still | kept => exact .inr rfl
  | onTrial _ _ hi =>
    have hunflagged : w.verdict.valid = false := by
      rw [Bool.eq_false_iff]
      intro hv
      have hflagged : w.verdict = ⟨.init, true⟩ := by rw [← hi, ← hv]
      cases hw hflagged
    exact .inl ⟨nofun, fun hv => absurd hv (by simp [hunflagged])⟩
  | settled | confirmed => exact .inl ⟨fun _ => rfl, fun _ => .inl rfl⟩
  | foreign => exact .inl ⟨nofun, fun _ => .inr rfl⟩
  | marked =>
    refine .inl ⟨fun _ => rfl, fun _ => ?_⟩
    dsimp only
    split
    · exact .inr rfl
    · exact .inl rfl
  | condemned | expired => exact .inl ⟨nofun, nofun⟩

theorem Shift.sound (h : w.Shift news v) (hw : w.verdict.Sound) : v.Sound := by
  have hunflagged (hi : w.verdict = ⟨.init, true⟩) : news.countP Happening.begins = 0 := by
    rcases hw.stated (congrArg (·.valid) hi) with hs | hs <;> cases (congrArg (·.state) hi).symm.trans hs
  rcases h.sound_or_same hunflagged with hv | hv
  · exact hv
  · exact hv ▸ hw

theorem Shift.tried (h : w.Shift news v) (hw : w.verdict.Tried) : v.Tried := by
  have hbegun : w.verdict.state ≠ .init := by rcases hw with hs | hs | hs <;> rw [hs] <;> nofun
  cases h with
  | still | kept => exact hw
  | onTrial _ _ hi | settled _ _ hi | foreign _ _ hi => exact absurd hi hbegun
  | marked =>
    have hown : w.verdict.state ≠ .notOtaBoot := by rcases hw with hs | hs | hs <;> rw [hs] <;> nofun
    exact .inr (.inl (if_neg hown))
  | confirmed => exact .inr (.inl rfl)
  | condemned | expired => exact .inr (.inr rfl)

end World

def ValidationState.stage : ValidationState → Nat
  | .init => 0
  | .pendingVerify => 1
  | .validating => 2
  | .valid | .invalid | .notOtaBoot => 3

theorem ValidationState.stage_le (s : ValidationState) : s.stage ≤ 3 := by
  cases s <;> decide

/-- Before the last stage there is one state for each. -/
theorem ValidationState.stage_lt {s t : ValidationState} (hs : s.stage < 3) (hne : t ≠ s) (hle : s.stage ≤ t.stage) :
    s.stage < t.stage := by
  cases s <;> cases t <;> simp [stage] at hs hne hle ⊢

theorem World.Shift.stage_le {w : World A} {news : List (Happening A)} {v : Verdict} (h : w.Shift news v) :
    w.verdict.state.stage ≤ v.state.stage := by
  cases h with
  | still | kept => exact Nat.le_refl _
  | onTrial _ _ hi | foreign _ _ hi =>
    rw [hi]
    exact Nat.zero_le _
  | marked =>
    dsimp only
    split <;> exact ValidationState.stage_le _
  | settled | condemned | confirmed | expired => exact ValidationState.stage_le _

theorem World.Shift.begun {w : World A} {news : List (Happening A)} {v : Verdict} (h : w.Shift news v)
    (hw : w.verdict.state ≠ .init) : v.state ≠ .init := by
  intro hi
  have hle := h.stage_le
  rw [hi] at hle
  cases hstate : w.verdict.state with
  | init => exact hw hstate
  | _ => rw [hstate] at hle; cases hle

theorem World.Shift.of_foreign {w : World A} {news : List (Happening A)} {v : Verdict} (h : w.Shift news v)
    (hw : w.verdict.state = .notOtaBoot) (hv : v.state ≠ .notOtaBoot) :
    v.state = .invalid ∧ ∃ task r, news = [.did task ⟨w, .markInvalid, r⟩] := by
  cases h with
  | still | kept => exact absurd hw hv
  | onTrial _ _ hi | settled _ _ hi | foreign _ _ hi => cases hw.symm.trans hi
  | marked => exact absurd (if_pos hw) hv
  | condemned task r => exact ⟨rfl, task, r, rfl⟩
  | confirmed _ hs => rcases hs with hs | hs <;> cases hw.symm.trans hs
  | expired _ hs =>
    rw [hs] at hw
    cases hw

theorem World.Shift.of_invalid {w : World A} {news : List (Happening A)} {v : Verdict} (h : w.Shift news v)
    (hw : w.verdict.state = .invalid) (hv : v.state ≠ .invalid) :
    v.state = .valid ∧ w.device.markValid.1 = .ok () ∧ ∃ task, news = [.did task ⟨w, .markValid, .ok ()⟩] := by
  cases h with
  | still | kept => exact absurd hw hv
  | onTrial _ _ hi | settled _ _ hi | foreign _ _ hi => cases hw.symm.trans hi
  | marked task hm => exact ⟨if_neg (by simp [hw]), hm, task, rfl⟩
  | condemned | expired => exact absurd rfl hv
  | confirmed _ hs => rcases hs with hs | hs <;> cases hw.symm.trans hs

/-! ## Who concludes a trial -/

def Effect.Concludes : Effect A → Prop
  | .settleTrial | .startConfirmation _ => True
  | _ => False

def Untrying : (e : Effect A) → e.Reply → Prop
  | .beginValidation _, some (.ok .trial) => False
  | _, _ => True

/-- The activity concludes no trial that it has not begun itself. -/
def Routine.Abstains {α : Type} : Activity A α → Prop
  | .done _ | .died => True
  | .step e next => ¬ e.Concludes ∧ ∀ r, Untrying e r → (next r).Abstains

namespace Routine.Abstains

variable {α β : Type} {p : Activity A α}

theorem of_only (h : p.Only fun e => ¬ e.Concludes) : p.Abstains := by
  induction p with
  | done a => trivial
  | died => trivial
  | step e next ih => exact ⟨h.1, fun r _ => ih r (h.2 r)⟩

theorem bind {f : α → Activity A β} (h : p.Abstains) (hf : ∀ a, (f a).Abstains) : (p >>= f).Abstains := by
  induction p with
  | done a => exact hf a
  | died => trivial
  | step e next ih => exact ⟨h.1, fun r hr => ih r (h.2 r hr)⟩

end Routine.Abstains

namespace Activity

theorem abstains_validate (test : Option A.SelfTest) (config : Config) : (validate test config).Abstains := by
  refine ⟨nofun, fun r hr => ?_⟩
  match r with
  | none => trivial
  | some (.error e) => trivial
  | some (.ok .trial) => exact hr.elim
  | some (.ok .settled) =>
    have hreconcile : (reconcile : Activity A _).Only fun e => ¬ e.Concludes :=
      only_reconcile nofun nofun (fun _ _ => nofun) fun _ => nofun
    exact (Routine.Abstains.of_only hreconcile).bind fun _ => trivial
  | some (.ok .foreign) => trivial

theorem abstains_enable (config : Config) (handler : Option A.Handler) (test : Option A.SelfTest) :
    (enable config handler test).Abstains := by
  refine ⟨nofun, fun r _ => ?_⟩
  match r with
  | .error e => trivial
  | .ok () =>
    refine (abstains_validate test config).bind fun r => ?_
    split
    · trivial
    · exact .of_only ((only_note nofun).bind fun _ => trivial)
    · exact .of_only ((only_note nofun).bind fun _ => trivial)

/-- Every call concludes at most the trial that it has begun. -/
theorem abstains_call (c : Call A) : c.activity.Abstains := by
  have hfetches {α : Type} {p : Activity A α} (hp : p.Fetches) : p.Abstains :=
    .of_only ((hp []).only fun _ e hs => by have := hs.kind; cases e <;> first | exact this.elim | exact id)
  have hsingle {e : Effect A} (h : ¬ e.Concludes) : (do let _ ← perform e : Activity A Unit).Abstains :=
    .of_only ((only_perform h).bind fun _ => trivial)
  cases c with
  | enable config handler test => exact (abstains_enable config handler test).bind fun _ => trivial
  | fetch => exact (hfetches fetches_fetch).bind fun _ => trivial
  | autofetch => exact hfetches fetches_autofetchRound
  | download job chunkSize => exact (hfetches (fetches_downloadAndFlash job chunkSize)).bind fun _ => trivial
  | report id status info =>
    have hreport : (reportFor id status info : Activity A _).Only fun e => ¬ e.Concludes :=
      only_reportFor nofun fun _ => nofun
    exact .of_only (hreport.bind fun _ => trivial)
  | disable => exact hsingle (e := .uninstall) nofun
  | markValid => exact hsingle (e := .markValid) nofun
  | markInvalid => exact hsingle (e := .markInvalid) nofun
  | joinConfirmation => exact hsingle (e := .joinConfirmation) nofun

end Activity

/-! ## What the world goes through -/

namespace World

variable {w w' : World A}

theorem Untouched.verdict (h : Untouched w w') : w'.verdict = w.verdict := by
  rw [World.verdict, World.verdict, h.state, h.valid]

theorem shift_beginValidation (w : World A) (task seconds : Nat) :
    w.Shift [.did task ⟨w, .beginValidation seconds, (w.beginValidation seconds).1⟩]
      (w.beginValidation seconds).2.verdict := by
  have hb := w.beginning seconds
  generalize (w.beginValidation seconds).1 = r, (w.beginValidation seconds).2 = w' at hb ⊢
  cases hb with
  | begun | illegible => exact .kept _ rfl
  | trial hi =>
    have hverdict : ((w.note (.slotState .pendingVerify)).beginTrial seconds).verdict =
        ⟨.validating, w.verdict.valid⟩ := by
      rw [verdict, validation_beginTrial]
      rfl
    rw [hverdict]
    exact .onTrial task seconds hi
  | settled hi => exact .settled task seconds hi
  | foreign hi => exact .foreign task seconds hi

theorem shift_markValid (w : World A) (task : Nat) :
    w.Shift [.did task ⟨w, .markValid, w.markValid.1⟩] w.markValid.2.verdict := by
  have hreply := w.fst_markValid
  have hvalidation := w.validation_markValid
  cases hm : w.device.markValid.1 with
  | error c =>
    rw [hm] at hvalidation
    have hverdict : w.markValid.2.verdict = w.verdict := by
      rw [verdict, hvalidation]
      rfl
    rw [hverdict]
    exact .kept _ rfl
  | ok u =>
    rw [hm] at hreply hvalidation
    rw [verdict, hreply, hvalidation]
    exact .marked task hm

theorem shift_markInvalid (w : World A) (task : Nat) :
    w.Shift [.did task ⟨w, .markInvalid, w.markInvalid.1⟩] w.markInvalid.2.verdict := by
  rw [verdict, validation_markInvalid]
  exact .condemned task _

/-- Who has not tried the image has no report of it to settle. -/
theorem shift_settleTrial (ht : w.verdict.Tried) (task : Nat) :
    w.Shift [.did task ⟨w, .settleTrial, w.settleTrial.1⟩] w.settleTrial.2.verdict := by
  by_cases hi : w.engine.validation.state = .invalid
  · rw [settleTrial_invalid w hi]
    exact .kept _ rfl
  · rw [fst_settleTrial hi, verdict, validation_settleTrial hi]
    refine .confirmed task ?_
    rcases ht with hs | hs | hs
    · exact .inl hs
    · exact .inr hs
    · exact absurd hs hi

theorem shift_undergo (task : Nat) (s : Saying) {e : Effect A}
    (ht : e = .settleTrial → w.verdict.Tried) :
    w.Shift [.did task ⟨w, e, (w.undergo s e).1⟩] (w.undergo s e).2.verdict := by
  by_cases hj : e.Judges
  · cases e with
    | beginValidation seconds => exact w.shift_beginValidation task seconds
    | markValid => exact w.shift_markValid task
    | markInvalid => exact w.shift_markInvalid task
    | settleTrial => exact shift_settleTrial (ht rfl) task
    | _ => exact hj.elim
  · rw [(w.untouched_undergo s hj).verdict]
    refine .kept _ ?_
    cases e <;> first | rfl | exact absurd trivial hj

/-- The timer acts, perhaps in a world in which it has been marked as spent meanwhile. -/
theorem shift_rollbackDue (h : w'.verdict = w.verdict) (id : TimerId) :
    w.Shift [.fired w id] w'.rollbackDue.verdict := by
  by_cases hon : w'.OnTrial
  · have hw' : w'.verdict = ⟨.validating, false⟩ := by rw [verdict, hon.1, hon.2]
    have hverdict : w'.rollbackDue.verdict = ⟨.invalid, false⟩ := by
      rw [verdict, validation_rollbackDue hon, hon.2]
    rw [hverdict]
    exact .expired id (h.symm.trans hw')
  · rw [rollbackDue_of_not_onTrial w' hon, h]
    exact .kept _ rfl

theorem confirmation_rollbackDue (w : World A) :
    w.rollbackDue.engine.validation.confirmation = w.engine.validation.confirmation := by
  by_cases h : w.OnTrial
  · rw [validation_rollbackDue h]
  · rw [rollbackDue_of_not_onTrial w h]

theorem tried_of_trying {s : Saying} {e : Effect A} (h : ¬ Untrying e (w.undergo s e).1) :
    (w.undergo s e).2.verdict.Tried := by
  cases e with
  | beginValidation seconds =>
    have hb := w.beginning seconds
    change ¬ Untrying (.beginValidation seconds) (w.beginValidation seconds).1 at h
    change (w.beginValidation seconds).2.verdict.Tried
    generalize (w.beginValidation seconds).1 = r, (w.beginValidation seconds).2 = w' at hb h ⊢
    cases hb with
    | trial =>
      rw [verdict, validation_beginTrial]
      exact .inl rfl
    | begun | illegible | settled | foreign => exact absurd trivial h
  | _ => exact absurd trivial h

end World

/-! ## What every boot keeps to -/

namespace Boot

/-- Until the image has been tried no confirmation is under way, and nobody is about to conclude the trial. -/
structure Untried (b : Boot A) : Prop where
  unconfirmed : b.world.engine.validation.confirmation = none
  tasks : ∀ t ∈ b.tasks, ∃ rest, t = .call rest ∧ rest.Abstains

/-- An image is confirmed only after it has been put on trial. -/
structure Conducted (b : Boot A) : Prop where
  attempts : ∀ rest, .attempt rest ∈ b.tasks → rest.Only Effect.OfConfirm
  tried : b.world.verdict.Tried ∨ b.Untried

structure Governed (b : Boot A) : Prop extends Conducted b where
  sound : b.world.verdict.Sound

variable {b b' : Boot A}

theorem governed_start (d : Device) (version : String) : (start A d version).Governed where
  attempts _ h := nomatch h
  tried := .inr ⟨rfl, fun _ h => nomatch h⟩
  sound := ⟨nofun, nofun⟩

/-- An attempt is made after a confirmation has been started. -/
theorem Conducted.tried_of_attempt (hc : b.Conducted) {rest : Activity A Activity.Attempt}
    (h : .attempt rest ∈ b.tasks) : b.world.verdict.Tried := by
  refine hc.tried.resolve_right fun hu => ?_
  obtain ⟨_, he, -⟩ := hu.tasks _ h
  cases he

theorem Conducted.tried_of_settling (hc : b.Conducted) {e : Effect A} {next : e.Reply → Activity A Unit}
    (h : .call (.step e next) ∈ b.tasks) (he : e = .settleTrial) : b.world.verdict.Tried := by
  refine hc.tried.resolve_right fun hu => ?_
  obtain ⟨_, hrest, habstains⟩ := hu.tasks _ h
  cases hrest
  exact habstains.1 (he ▸ trivial)

/-- Every twist takes a boot on as the table says. -/
theorem Twisted.shift (ht : b.Twisted b') (hc : b.Conducted) :
    ∃ news, b'.history = news ++ b.history ∧ b.world.Shift news b'.world.verdict := by
  have hstill (h : b'.history = b.history) (hv : b'.world.verdict = b.world.verdict) :
      ∃ news, b'.history = news ++ b.history ∧ b.world.Shift news b'.world.verdict :=
    ⟨[], h, hv ▸ .still⟩
  cases ht with
  | expired | swapped => exact hstill rfl rfl
  | rung id => exact ⟨[_], rfl, World.shift_rollbackDue rfl id⟩
  | moved hm =>
    cases hm with
    | idle | called | attempted | paced | disturbed => exact hstill rfl rfl
    | fired id hf =>
      have hexpired : (b.world.expire id).verdict = b.world.verdict := rfl
      refine ⟨[_], rfl, ?_⟩
      dsimp only
      rw [World.fireOnce_of_fuse hf]
      exact World.shift_rollbackDue hexpired id
    | advanced task s ht =>
      exact ⟨[_], rfl, World.shift_undergo task s (hc.tried_of_settling (List.mem_of_getElem? ht))⟩
    | @tried task s e next ht =>
      have htried := hc.tried_of_attempt (List.mem_of_getElem? ht)
      obtain ⟨c, hafter⟩ := Turn.afterAttempt (b.world.undergo s e).2 (next (b.world.undergo s e).1)
      refine ⟨[_], rfl, ?_⟩
      dsimp only
      rw [hafter]
      exact World.shift_undergo task s fun _ => htried

theorem Twisted.attempts (ht : b.Twisted b')
    (h : ∀ rest, .attempt rest ∈ b.tasks → rest.Only Effect.OfConfirm) :
    ∀ rest, .attempt rest ∈ b'.tasks → rest.Only Effect.OfConfirm := by
  cases ht with
  | expired | swapped | rung => exact h
  | moved hm =>
    cases hm with
    | idle | paced | disturbed | fired => exact h
    | called c =>
      intro rest hrest
      rcases List.mem_append.mp hrest with hrest | hrest
      · exact h rest hrest
      · cases List.mem_singleton.mp hrest
    | attempted c =>
      intro rest hrest
      rcases List.mem_append.mp hrest with hrest | hrest
      · exact h rest hrest
      · cases List.mem_singleton.mp hrest
        exact Activity.only_confirmAttempt _ _
    | advanced =>
      intro rest hrest
      rcases List.mem_or_eq_of_mem_set hrest with hrest | hrest
      · exact h rest hrest
      · cases hrest
    | @tried task s e next ht =>
      intro rest hrest
      rcases List.mem_or_eq_of_mem_set hrest with hrest | hrest
      · exact h rest hrest
      · cases hrest
        exact (h _ (List.mem_of_getElem? ht)).2 _

/-- Nothing but the start of a trial makes it possible to conclude one. -/
theorem Twisted.untried (ht : b.Twisted b') (hu : b.Untried) : b'.world.verdict.Tried ∨ b'.Untried := by
  cases ht with
  | expired | swapped => exact .inr ⟨hu.unconfirmed, hu.tasks⟩
  | rung id => exact .inr ⟨b.world.confirmation_rollbackDue.trans hu.unconfirmed, hu.tasks⟩
  | moved hm =>
    cases hm with
    | idle => exact .inr hu
    | disturbed => exact .inr ⟨hu.unconfirmed, hu.tasks⟩
    | fired id => exact .inr ⟨(b.world.confirmation_fireOnce id).trans hu.unconfirmed, hu.tasks⟩
    | called c =>
      refine .inr ⟨hu.unconfirmed, List.forall_mem_append.mpr ⟨hu.tasks, ?_⟩⟩
      intro t ht
      cases List.mem_singleton.mp ht
      exact ⟨_, rfl, Activity.abstains_call c⟩
    | attempted c h | paced c _ h => cases hu.unconfirmed.symm.trans h
    | tried task s ht =>
      obtain ⟨_, he, -⟩ := hu.tasks _ (List.mem_of_getElem? ht)
      cases he
    | @advanced task s e next ht =>
      obtain ⟨_, hrest, habstains⟩ := hu.tasks _ (List.mem_of_getElem? ht)
      cases hrest
      have hunconfirmed : (b.world.undergo s e).2.engine.validation.confirmation = none :=
        b.world.unconfirmed_undergo s hu.unconfirmed fun interval he => habstains.1 (he ▸ trivial)
      by_cases hr : Untrying e (b.world.undergo s e).1
      · refine .inr ⟨hunconfirmed, fun t ht => ?_⟩
        rcases List.mem_or_eq_of_mem_set ht with ht | rfl
        · exact hu.tasks t ht
        · exact ⟨_, rfl, habstains.2 _ hr⟩
      · exact .inl (World.tried_of_trying hr)

theorem Conducted.twisted (hc : b.Conducted) (ht : b.Twisted b') : b'.Conducted := by
  refine ⟨ht.attempts hc.attempts, ?_⟩
  rcases hc.tried with htried | hu
  · obtain ⟨_, -, hs⟩ := ht.shift hc
    exact .inl (hs.tried htried)
  · exact ht.untried hu

theorem Governed.twisted (hg : b.Governed) (ht : b.Twisted b') : b'.Governed := by
  obtain ⟨_, -, hs⟩ := ht.shift hg.toConducted
  exact ⟨hg.toConducted.twisted ht, hs.sound hg.sound⟩

/-- Only calls mark the image valid. -/
theorem Twisted.marked (ht : b.Twisted b') (hc : b.Conducted) {task : Nat}
    {r : Except UpdateError Unit} (h : b'.history = .did task ⟨b.world, .markValid, r⟩ :: b.history) :
    ∃ rest, b.tasks[task]? = some (.call rest) := by
  have hstill (he : b'.history = b.history) : ∃ rest, b.tasks[task]? = some (.call rest) :=
    absurd (he.symm.trans h) (List.cons_ne_self _ _).symm
  cases ht with
  | expired | swapped => exact hstill rfl
  | rung id => cases h
  | moved hm =>
    cases hm with
    | idle | called | attempted | paced | disturbed => exact hstill rfl
    | fired id => cases h
    | advanced task s ht =>
      cases h
      exact ⟨_, ht⟩
    | tried task s ht =>
      cases h
      exact (hc.attempts _ (List.mem_of_getElem? ht)).1.elim

end Boot

end FirmwareUpdate
