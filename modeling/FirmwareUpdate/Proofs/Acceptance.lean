import FirmwareUpdate.Proofs.Attempts
import FirmwareUpdate.Proofs.SideBySide

/-!
# Images accepted in advance

To mark the running image valid and to settle its trial come to the same: the rollback timer is given up, and the slot
and the verdict say that the image is valid. Whatever else is done goes the same way before and after. So two worlds,
in one of which the image was accepted in advance, stay that close until it is accepted in the other as well.
-/

namespace FirmwareUpdate

variable {A : Application}

/-! ## Timers that are given up -/

namespace Timers

def disarm (t : Timer) : Timer := if t.state = .armed then { t with state := .cancelled } else t

theorem cancel_cons_succ (t : Timer) (ts : Timers) (id : TimerId) :
    (cancel (t :: ts) (id + 1)).2 = t :: (ts.cancel id).2 := by
  unfold cancel
  change (if ts.isArmed id then _ else _ : Bool × Timers).2 = _
  split <;> rfl

theorem cancel_eq (ts : Timers) (id : TimerId) : (ts.cancel id).2 = ts.modify id disarm := by
  induction ts generalizing id with
  | nil => cases id <;> rfl
  | cons t ts ih =>
    cases id with
    | zero =>
      obtain ⟨kind, span, state⟩ := t
      cases state <;> rfl
    | succ id => rw [cancel_cons_succ, ih, List.modify_succ_cons]

variable {ts : Timers} {id j : TimerId}

theorem cancel_comm (h : id ≠ j) : ((ts.cancel id).2.cancel j).2 = ((ts.cancel j).2.cancel id).2 := by
  simp only [cancel_eq]
  exact List.modify_modify_ne disarm disarm ts h

theorem cancel_append (t : Timer) (h : id < ts.length) : ((ts ++ [t]).cancel id).2 = (ts.cancel id).2 ++ [t] := by
  induction ts generalizing id with
  | nil => exact absurd h (Nat.not_lt_zero id)
  | cons t' ts ih =>
    cases id with
    | zero =>
      simp only [cancel_eq]
      rfl
    | succ id =>
      rw [List.cons_append, cancel_cons_succ, cancel_cons_succ, ih (Nat.lt_of_succ_lt_succ h), List.cons_append]

end Timers

namespace World

section
variable {w w' : World A}

theorem length_timersGivenUp (w : World A) : w.timersGivenUp.length = w.device.timers.length := by
  unfold timersGivenUp
  split
  · rfl
  · rw [Timers.cancel_eq, List.length_modify]

theorem Timed.same (ht : w.Timed) (hts : w'.device.timers = w.device.timers)
    (he : w'.engine.enabled = w.engine.enabled)
    (hh : w'.engine.validation.rollbackTimer = w.engine.validation.rollbackTimer)
    (hs : w'.engine.validation.state = w.engine.validation.state)
    (hv : w'.engine.validation.valid = w.engine.validation.valid) : w'.Timed :=
  (KeepsNet.of_eq hts he hh hs hv).timed ht

/-- A timer that is set does not hinder the rollback timer from being given up. -/
theorem Timed.timersGivenUp_append (ht : w.Timed) {t : Timer}
    (hv : w'.engine.validation.rollbackTimer = w.engine.validation.rollbackTimer)
    (hts : w'.device.timers = w.device.timers ++ [t]) : w'.timersGivenUp = w.timersGivenUp ++ [t] := by
  unfold timersGivenUp
  rw [hv, hts]
  cases hid : w.engine.validation.rollbackTimer with
  | none => rfl
  | some id =>
    obtain ⟨held, hheld, -⟩ := Option.map_eq_some_iff.mp (ht.once id hid)
    exact Timers.cancel_append t (List.getElem?_eq_some_iff.mp hheld).1

/-- Nor does a periodic timer that is cancelled. -/
theorem Timed.timersGivenUp_cancel (ht : w.Timed) {id : TimerId} (hid : w.device.timers.kind? id = some .periodic)
    (hv : w'.engine.validation.rollbackTimer = w.engine.validation.rollbackTimer)
    (hts : w'.device.timers = (w.device.timers.cancel id).2) : w'.timersGivenUp = (w.timersGivenUp.cancel id).2 := by
  unfold timersGivenUp
  rw [hv, hts]
  cases hheld : w.engine.validation.rollbackTimer with
  | none => rfl
  | some timer =>
    refine Timers.cancel_comm fun he => ?_
    have honce := ht.once timer hheld
    rw [← he, hid] at honce
    cases honce

end

/-! ## Accepting the image -/

/-- The image is accepted: the rollback timer is given up, and the slot and the verdict say that it is valid. -/
def accepted (w : World A) : World A :=
  ⟨{ w.device with slots := { w.device.slots with running := .valid }, timers := w.timersGivenUp },
    { w.engine with
      validation := { w.engine.validation with state := .valid, valid := true, rollbackTimer := none } }⟩

/-- The world but for the journal, if the bootloader had been asked so many times more to mark the image valid. -/
def recounted (w : World A) (calls : Nat) (journal : List Event) : World A :=
  { w with
    device := { w.device with
      journal := journal
      slots := { w.device.slots with markValidCalls := w.device.slots.markValidCalls + calls } } }

theorem recounted_recounted (w : World A) (calls more : Nat) (journal journal' : List Event) :
    (w.recounted calls journal).recounted more journal' = w.recounted (calls + more) journal' := by
  simp [recounted, Nat.add_assoc]

structure Unrefused (w : World A) : Prop where
  running : w.device.slots.running = .pendingVerify ∨ w.device.slots.running = .valid
  verdict : w.engine.validation.state ≠ .invalid ∧ w.engine.validation.state ≠ .notOtaBoot

/-- The image has not been refused, and the bootloader marks it valid if it is asked to. -/
structure Acceptable (w : World A) : Prop extends Unrefused w where
  timed : w.Timed
  obeyed : w.device.faults.markValid = false

structure Settled (w : World A) : Prop extends MarkedValid w where
  unheld : w.engine.validation.rollbackTimer = none

section
variable {w w' : World A}

theorem settled_accepted (w : World A) (calls : Nat) (journal : List Event) :
    (w.accepted.recounted calls journal).Settled := ⟨⟨rfl, rfl, rfl⟩, rfl⟩

theorem Settled.unrefused (h : w.Settled) : w.Unrefused where
  running := .inr h.running
  verdict := by
    rw [h.state]
    exact ⟨nofun, nofun⟩

/-- To accept an image that was accepted changes nothing. -/
theorem Settled.accepted_eq (h : w.Settled) : w.accepted = w := by
  obtain ⟨⟨hrunning, hvalid, hstate⟩, hunheld⟩ := h
  have hgivenUp : w.timersGivenUp = w.device.timers := by rw [timersGivenUp, hunheld]
  unfold accepted
  rw [hgivenUp, ← hrunning, ← hvalid, ← hstate, ← hunheld]

theorem Settled.of_untouched (h : w.Settled) (hu : Untouched w w') : w'.Settled where
  toMarkedValid := h.toMarkedValid.of_untouched hu
  unheld := hu.rollbackTimer.trans h.unheld

theorem Unrefused.of_untouched (h : w.Unrefused) (hu : Untouched w w') : w'.Unrefused where
  running := hu.running.symm ▸ h.running
  verdict := hu.state.symm ▸ h.verdict

theorem Unrefused.beginValidation (h : w.Unrefused) (seconds : Nat) : (w.beginValidation seconds).2.Unrefused := by
  have hbeginning := w.beginning seconds
  generalize (w.beginValidation seconds).1 = r, (w.beginValidation seconds).2 = u at hbeginning ⊢
  cases hbeginning with
  | begun | illegible => exact h
  | trial hi hr =>
    refine ⟨?_, ?_⟩
    · rw [slots_beginTrial]
      exact .inl hr
    · rw [validation_beginTrial]
      exact ⟨nofun, nofun⟩
  | settled hi hr => exact ⟨.inr hr, nofun, nofun⟩
  | foreign hi hr hs =>
    subst hr
    rcases h.running with hr | hr <;> simp [hr] at hs

/-- What a step of the trial leaves follows from the slots, the timers and the record of the validation. -/
theorem TrialStep.eq (h : TrialStep w w') : w' =
    ⟨{ w.device with slots := w'.device.slots, timers := w'.device.timers, journal := w'.device.journal },
      { w.engine with validation := w'.engine.validation }⟩ := by
  obtain ⟨⟨hstore, hnetwork, hfaults, -, -⟩, hengine⟩ := h
  dsimp only
  rw [← hstore, ← hnetwork, ← hfaults, ← hengine]

end

namespace Acceptable

variable {w : World A} (h : w.Acceptable)
include h

theorem call : w.device.markValid.1 = .ok () ∧ w.device.markValid.2.slots =
    { w.device.slots with markValidCalls := w.device.slots.markValidCalls + 1, running := .valid } := by
  rcases h.running with hr | hr <;> simp [Device.markValid, h.obeyed, Slots.markValid, hr]

theorem markValid : w.markValid.1 = .ok () ∧
    w.markValid.2 = w.accepted.recounted 1 w.markValid.2.device.journal := by
  obtain ⟨hok, hslots⟩ := h.call
  have hvalidation := w.validation_markValid
  rw [hok] at hvalidation
  dsimp only at hvalidation
  rw [if_neg h.verdict.2] at hvalidation
  refine ⟨by rw [fst_markValid, hok]; rfl, w.trialStep_markValid.eq.trans ?_⟩
  rw [slots_markValid, timers_markValid, hvalidation, hslots]
  rfl

theorem settleTrial : w.settleTrial.1 = true ∧
    w.settleTrial.2 = w.accepted.recounted 1 w.settleTrial.2.device.journal := by
  refine ⟨fst_settleTrial h.verdict.1, w.trialStep_settleTrial.eq.trans ?_⟩
  rw [slots_settleTrial h.verdict.1, timers_settleTrial h.verdict.1, validation_settleTrial h.verdict.1, h.call.2]
  rfl

theorem recounted (calls : Nat) (journal : List Event) : (w.recounted calls journal).Acceptable :=
  ⟨⟨h.running, h.verdict⟩, h.timed.same rfl rfl rfl rfl rfl, h.obeyed⟩

theorem withConfirmation (c : Option Confirmation) : (w.withConfirmation c).Acceptable :=
  ⟨⟨h.running, h.verdict⟩, h.timed.same rfl rfl rfl rfl rfl, h.obeyed⟩

theorem surround {s : Surroundings} (hs : s.faults.markValid = false) : (w.surround s).Acceptable :=
  ⟨⟨h.running, h.verdict⟩, h.timed.same rfl rfl rfl rfl rfl, hs⟩

end Acceptable

/-! ## Effects before and after -/

end World

def Effect.Inquires : Effect A → Prop
  | .validationState | .joinConfirmation => True
  | _ => False

namespace World

variable {w w' : World A}

theorem undergo_recounted (w : World A) (calls : Nat) (journal : List Event) (s : Saying) {e : Effect A}
    (he : ¬ e.Judges) : ((w.recounted calls journal).undergo s e).1 = (w.undergo s e).1 ∧
      ∃ journal', ((w.recounted calls journal).undergo s e).2 = (w.undergo s e).2.recounted calls journal' := by
  cases e with
  | markValid | markInvalid | settleTrial | beginValidation => exact absurd trivial he
  | install config handler =>
    dsimp only [World.undergo, perform, World.install, startAutofetch, Device.startWorker, Device.setTimer, recounted]
    cases w.engine.enabled.isSome with
    | true => exact ⟨rfl, _, rfl⟩
    | false =>
      cases config.fault? with
      | some f => exact ⟨rfl, _, rfl⟩
      | none =>
        cases config.autofetchPeriod with
        | none => exact ⟨rfl, _, rfl⟩
        | some seconds =>
          cases w.device.faults.worker with
          | true => exact ⟨rfl, _, rfl⟩
          | false => cases w.device.faults.periodic <;> exact ⟨rfl, _, rfl⟩
  | uninstall =>
    dsimp only [World.undergo, perform, World.uninstall, stopAutofetch, recounted]
    cases w.engine.enabled with
    | none => exact ⟨rfl, _, rfl⟩
    | some enabled =>
      dsimp only
      cases enabled.autofetch <;> exact ⟨rfl, _, rfl⟩
  | saveJobId id =>
    dsimp only [World.undergo, perform, Device.saveJobId, recounted]
    rcases w.device.store.write .jobId (Bytes.ofText id) with ⟨⟨c⟩ | ⟨⟩, store⟩ <;> exact ⟨rfl, _, rfl⟩
  | eraseJobId =>
    dsimp only [World.undergo, perform, Device.eraseJobId, recounted]
    cases w.device.faults.erase <;> exact ⟨rfl, _, rfl⟩
  | claim =>
    dsimp only [World.undergo, perform, World.claim, recounted]
    split <;> exact ⟨rfl, _, rfl⟩
  | joinConfirmation =>
    dsimp only [World.undergo, perform, World.joinConfirmation, recounted]
    split <;> exact ⟨rfl, _, rfl⟩
  | _ => exact ⟨rfl, _, rfl⟩

/-- Only who asks how the validation stands learns that the image was accepted. -/
theorem undergo_accepted (ht : w.Timed) (s : Saying) {e : Effect A} (he : ¬ e.Judges) :
    (e.Inquires ∨ (w.accepted.undergo s e).1 = (w.undergo s e).1) ∧
      ∃ journal, (w.accepted.undergo s e).2 = (w.undergo s e).2.accepted.recounted 0 journal := by
  -- the timers need a look of their own, for others than the rollback timer may be set or cancelled
  suffices h : (e.Inquires ∨ (w.accepted.undergo s e).1 = (w.undergo s e).1) ∧ ∃ timers journal,
      (w.accepted.undergo s e).2 = { (w.undergo s e).2.accepted with
        device := { (w.undergo s e).2.accepted.device with timers := timers, journal := journal } } ∧
      timers = (w.undergo s e).2.timersGivenUp by
    obtain ⟨hreply, timers, journal, hworld, rfl⟩ := h
    exact ⟨hreply, journal, hworld⟩
  cases e with
  | markValid | markInvalid | settleTrial | beginValidation => exact absurd trivial he
  | install config handler =>
    dsimp only [World.undergo, perform, World.install, startAutofetch, Device.startWorker, Device.setTimer, accepted]
    cases w.engine.enabled.isSome with
    | true => exact ⟨.inr rfl, _, _, rfl, rfl⟩
    | false =>
      cases config.fault? with
      | some f => exact ⟨.inr rfl, _, _, rfl, rfl⟩
      | none =>
        cases config.autofetchPeriod with
        | none => exact ⟨.inr rfl, _, _, rfl, rfl⟩
        | some seconds =>
          cases w.device.faults.worker with
          | true => exact ⟨.inr rfl, _, _, rfl, rfl⟩
          | false =>
            cases w.device.faults.periodic with
            | true => exact ⟨.inr rfl, _, _, rfl, rfl⟩
            | false =>
              dsimp only [Timers.add]
              rw [length_timersGivenUp]
              exact ⟨.inr rfl, _, _, rfl, Eq.symm (ht.timersGivenUp_append rfl rfl)⟩
  | uninstall =>
    cases he : w.engine.enabled with
    | none =>
      simp only [World.undergo, perform, World.uninstall, accepted, he]
      exact ⟨.inr trivial, _, _, rfl, rfl⟩
    | some enabled =>
      cases ha : enabled.autofetch with
      | none =>
        simp only [World.undergo, perform, World.uninstall, stopAutofetch, accepted, he, ha]
        exact ⟨.inr trivial, _, _, rfl, rfl⟩
      | some id =>
        simp only [World.undergo, perform, World.uninstall, stopAutofetch, accepted, he, ha]
        exact ⟨.inr trivial, _, _, rfl, Eq.symm (ht.timersGivenUp_cancel (ht.periodic _ _ he ha) rfl rfl)⟩
  | saveJobId id =>
    dsimp only [World.undergo, perform, Device.saveJobId, accepted]
    rcases w.device.store.write .jobId (Bytes.ofText id) with ⟨⟨c⟩ | ⟨⟩, store⟩ <;>
      exact ⟨.inr rfl, _, _, rfl, rfl⟩
  | eraseJobId =>
    dsimp only [World.undergo, perform, Device.eraseJobId, accepted]
    cases w.device.faults.erase <;> exact ⟨.inr rfl, _, _, rfl, rfl⟩
  | claim =>
    dsimp only [World.undergo, perform, World.claim, accepted]
    split <;> exact ⟨.inr rfl, _, _, rfl, rfl⟩
  | joinConfirmation =>
    dsimp only [World.undergo, perform, World.joinConfirmation, accepted]
    split <;> exact ⟨.inl trivial, _, _, rfl, rfl⟩
  | validationState => exact ⟨.inl trivial, _, _, rfl, rfl⟩
  | _ => exact ⟨.inr rfl, _, _, rfl, rfl⟩

theorem faults_undergo (w : World A) (s : Saying) (e : Effect A) :
    (w.undergo s e).2.device.faults = w.device.faults := by
  rw [undergo_snd]
  cases e with
  | install config handler =>
    have hinstalling := w.installing config handler
    change (w.install config handler).2.device.faults = _
    generalize (w.install config handler).1 = r, (w.install config handler).2 = w' at hinstalling ⊢
    cases hinstalling <;> rfl
  | uninstall =>
    have huninstalling := w.uninstalling
    change w.uninstall.2.device.faults = _
    generalize w.uninstall.1 = r, w.uninstall.2 = w' at huninstalling ⊢
    cases huninstalling <;> rfl
  | beginValidation seconds => exact (w.trialStep_beginValidation seconds).faults
  | markValid => exact w.trialStep_markValid.faults
  | markInvalid => exact w.trialStep_markInvalid.faults
  | settleTrial => exact w.trialStep_settleTrial.faults
  | joinConfirmation => exact w.trialStep_joinConfirmation.faults
  | saveJobId id =>
    dsimp only [perform, Device.saveJobId]
    rcases w.device.store.write .jobId (Bytes.ofText id) with ⟨⟨c⟩ | ⟨⟩, store⟩ <;> rfl
  | eraseJobId =>
    dsimp only [perform, Device.eraseJobId]
    split <;> rfl
  | claim =>
    dsimp only [perform, World.claim]
    split <;> rfl
  | _ => rfl

theorem Timed.undergo (ht : w.Timed) (s : Saying) (e : Effect A) : (w.undergo s e).2.Timed :=
  ((Turn.did 0 s e (w.undergo s e).2.engine.validation.confirmation : Turn w [] _ _).net ht).1

theorem Settled.undergo (h : w.Settled) (ha : w.Acceptable) (s : Saying) {e : Effect A} (he : e ≠ .markInvalid) :
    (w.undergo s e).2.Settled := by
  by_cases hj : e.Judges
  · cases e with
    | markInvalid => exact absurd rfl he
    | markValid =>
      change w.markValid.2.Settled
      rw [ha.markValid.2]
      exact settled_accepted w 1 _
    | settleTrial =>
      change w.settleTrial.2.Settled
      rw [ha.settleTrial.2]
      exact settled_accepted w 1 _
    | beginValidation seconds =>
      have hb : w.engine.validation.state ≠ .init := by simp [h.state]
      rw [undergo_begun hb]
      exact h
    | _ => exact hj.elim
  · exact h.of_untouched (w.untouched_undergo s hj)

theorem Acceptable.undergo (h : w.Acceptable) (s : Saying) {e : Effect A} (he : e ≠ .markInvalid) :
    (w.undergo s e).2.Acceptable := by
  refine ⟨?_, h.timed.undergo s e, by rw [faults_undergo, h.obeyed]⟩
  by_cases hj : e.Judges
  · cases e with
    | markInvalid => exact absurd rfl he
    | markValid =>
      change w.markValid.2.Unrefused
      rw [h.markValid.2]
      exact (settled_accepted w 1 _).unrefused
    | settleTrial =>
      change w.settleTrial.2.Unrefused
      rw [h.settleTrial.2]
      exact (settled_accepted w 1 _).unrefused
    | beginValidation seconds => exact h.toUnrefused.beginValidation seconds
    | _ => exact hj.elim
  · exact h.toUnrefused.of_untouched (w.untouched_undergo s hj)

theorem Acceptable.accepted (h : w.Acceptable) : w.accepted.Acceptable := by
  have hmarked : w.markValid.2.Acceptable := h.undergo Boot.obliging (e := .markValid) nofun
  rw [h.markValid.2] at hmarked
  exact ⟨⟨hmarked.running, hmarked.verdict⟩, hmarked.timed.same rfl rfl rfl rfl rfl, h.obeyed⟩

/-! ## In advance -/

/-- In the other world the image was marked valid so many times more, and may have been accepted in advance. -/
inductive Ahead (w : World A) (calls : Nat) : World A → Prop
  | level (journal : List Event) : Ahead w calls (w.recounted calls journal)
  | early (journal : List Event) : Ahead w calls (w.accepted.recounted calls journal)

namespace Ahead

variable {calls : Nat}

theorem acceptable (h : w.Ahead calls w') (hw : w.Acceptable) : w'.Acceptable := by
  cases h with
  | level journal => exact hw.recounted calls journal
  | early journal => exact hw.accepted.recounted calls journal

/-- Once the image has been accepted in both worlds neither is ahead. -/
theorem accepted_eq (h : w.Ahead calls w') : ∃ journal, w'.accepted = w.accepted.recounted calls journal := by
  cases h <;> exact ⟨_, rfl⟩

theorem settled (h : w.Ahead calls w') {u u' : World A} {journal journal' : List Event}
    (hu : u = w.accepted.recounted 1 journal) (hu' : u' = w'.accepted.recounted 1 journal') : u.Ahead calls u' := by
  obtain ⟨_, haccepted⟩ := h.accepted_eq
  rw [hu, hu', haccepted, recounted_recounted, Nat.add_comm calls 1, ← recounted_recounted _ 1 calls journal]
  exact .level journal'

/-- Once more the image is marked valid in the other world. -/
theorem marked (h : w.Ahead calls w') (hw : w.Acceptable) :
    w'.markValid.1 = .ok () ∧ w.Ahead (calls + 1) w'.markValid.2 := by
  obtain ⟨hok, hmarked⟩ := (h.acceptable hw).markValid
  obtain ⟨_, haccepted⟩ := h.accepted_eq
  refine ⟨hok, ?_⟩
  rw [hmarked, haccepted, recounted_recounted]
  exact .early _

/-- What is done in both worlds is answered the same, but for who asks how the validation stands. -/
theorem undergo (h : w.Ahead calls w') (hw : w.Acceptable) (hb : w.engine.validation.state ≠ .init) (s : Saying)
    {e : Effect A} (he : e ≠ .markInvalid) :
    (e.Inquires ∨ (w'.undergo s e).1 = (w.undergo s e).1) ∧ (w.undergo s e).2.Ahead calls (w'.undergo s e).2 := by
  have hw' := h.acceptable hw
  by_cases hj : e.Judges
  · cases e with
    | markInvalid => exact absurd rfl he
    | markValid => exact ⟨.inr (hw'.markValid.1.trans hw.markValid.1.symm), h.settled hw.markValid.2 hw'.markValid.2⟩
    | settleTrial =>
      exact ⟨.inr (hw'.settleTrial.1.trans hw.settleTrial.1.symm), h.settled hw.settleTrial.2 hw'.settleTrial.2⟩
    | beginValidation seconds =>
      have hb' : w'.engine.validation.state ≠ .init := by
        cases h with
        | level => exact hb
        | early => exact nofun
      rw [undergo_begun hb, undergo_begun hb']
      exact ⟨.inr rfl, h⟩
    | _ => exact hj.elim
  · cases h with
    | level journal =>
      obtain ⟨hreply, journal', hworld⟩ := w.undergo_recounted calls journal s hj
      rw [hworld]
      exact ⟨.inr hreply, .level journal'⟩
    | early journal =>
      obtain ⟨hreply, journal', hworld⟩ := w.accepted.undergo_recounted calls journal s hj
      obtain ⟨hsame, _, haccepted⟩ := undergo_accepted hw.timed s hj
      rw [hworld, hreply, haccepted, recounted_recounted, Nat.zero_add]
      exact ⟨hsame, .early journal'⟩

theorem confirmation (h : w.Ahead calls w') :
    w'.engine.validation.confirmation = w.engine.validation.confirmation ∧
      w'.engine.validation.confirmCancelled = w.engine.validation.confirmCancelled := by
  cases h <;> exact ⟨rfl, rfl⟩

theorem withConfirmation (h : w.Ahead calls w') (c : Option Confirmation) :
    (w.withConfirmation c).Ahead calls (w'.withConfirmation c) := by
  cases h with
  | level journal => exact .level journal
  | early journal => exact .early journal

theorem attempted (h : w.Ahead calls w') (phase : ConfirmPhase) :
    (w.attempted phase).Ahead calls (w'.attempted phase) := by
  cases h with
  | level journal => exact .level journal
  | early journal => exact .early journal

theorem surround (h : w.Ahead calls w') (s : Surroundings) : (w.surround s).Ahead calls (w'.surround s) := by
  cases h with
  | level journal => exact .level journal
  | early journal => exact .early journal

theorem note (h : w.Ahead calls w') (e e' : Event) : (w.note e).Ahead calls (w'.note e') := by
  cases h with
  | level journal => exact .level _
  | early journal => exact .early _

theorem fuse (h : w.Ahead calls w') (ht : w.Timed) {id : TimerId} (hf : w.device.timers.fuse id = false) :
    w'.device.timers.fuse id = false := by
  cases h with
  | level => exact hf
  | early => exact dropsNet_timersGivenUp ht id

end Ahead

end World

end FirmwareUpdate
