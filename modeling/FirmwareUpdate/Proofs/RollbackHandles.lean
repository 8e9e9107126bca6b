import FirmwareUpdate.Proofs.SideBySide
import FirmwareUpdate.Proofs.ValidationStates

/-!
# The handle of the rollback timer

The engine takes its rollback timer for armed as long as it holds the timer's handle. It gets the handle when it
sets the timer, and lets it go when it gives the timer up for a call to the bootloader. The timer makes such a
call as well, but leaves the handle where it is. So the engine still takes a timer for armed that has fired,
until the image is marked.
-/

namespace FirmwareUpdate

open Routine

variable {A : Application}

/-! ## Since the validation began -/

def Happening.givesUp : Happening A → Bool
  | did _ d => (d.found.callOf d.request).isSome
  | fired .. => false

/-- The validation has begun, and nobody has given its timer up since. -/
def Kept (history : List (Happening A)) : Prop :=
  ∃ later x earlier, history = later ++ x :: earlier ∧ x.begins = true ∧ ∀ y ∈ later, y.givesUp = false

theorem kept_cons {x : Happening A} {history : List (Happening A)} :
    Kept (x :: history) ↔ x.begins = true ∨ x.givesUp = false ∧ Kept history := by
  constructor
  · rintro ⟨later, y, earlier, h, hy, hlater⟩
    cases later with
    | nil =>
      obtain ⟨rfl, -⟩ := List.cons.inj h
      exact .inl hy
    | cons z later =>
      obtain ⟨rfl, rfl⟩ := List.cons.inj h
      obtain ⟨hx, hlater⟩ := List.forall_mem_cons.mp hlater
      exact .inr ⟨hx, later, y, earlier, rfl, hy, hlater⟩
  · rintro (hx | ⟨hx, later, y, earlier, rfl, hy, hlater⟩)
    · exact ⟨[], x, history, rfl, hx, fun _ h => nomatch h⟩
    · exact ⟨x :: later, y, earlier, rfl, hy, List.forall_mem_cons.mpr ⟨hx, hlater⟩⟩

theorem kept_cons_of_still {x : Happening A} {history : List (Happening A)} (hb : x.begins = false)
    (hg : x.givesUp = false) : Kept (x :: history) ↔ Kept history := by
  simp [kept_cons, hb, hg]

/-! ## One-shot timers -/

namespace Timers

variable {ts : Timers} {id : TimerId} {t : Timer}

def Only (ts : Timers) (id : TimerId) (t : Timer) : Prop := ∀ j, ts.once? j = if id = j then some t else none

theorem only_add (h : ∀ j, ts.once? j = none) (span : Nat) :
    (ts.add .once span).2.Only ts.length ⟨.once, span, .armed⟩ := by
  intro j
  unfold once? add
  rcases Nat.lt_trichotomy ts.length j with hj | rfl | hj
  · have hlength : (ts ++ [Timer.mk .once span .armed]).length ≤ j := by
      rw [List.length_append]
      exact hj
    rw [List.getElem?_eq_none hlength, if_neg (Nat.ne_of_lt hj)]
    rfl
  · simp
  · rw [List.getElem?_append_left hj, if_neg (Nat.ne_of_gt hj)]
    exact h j

theorem Only.setState (h : ts.Only id t) (state : TimerState) :
    (ts.setState id state).Only id { t with state := state } := by
  intro j
  rw [once?_setState, h j]
  split <;> rfl

theorem Only.isArmed (h : ts.Only id t) : ts.isArmed id = (t.state == .armed) := by
  have hid : ts.once? id = some t := (h id).trans (if_pos rfl)
  have hat : ts[id]? = some t := (Option.filter_eq_some_iff.mp hid).1
  rw [Timers.isArmed, hat]

/-- A timer that is cancelled is not armed afterwards, whatever has become of it before. -/
theorem Only.cancel (h : ts.Only id t) : ∃ t', (ts.cancel id).2.Only id t' ∧ t'.state ≠ .armed := by
  unfold Timers.cancel
  rw [h.isArmed]
  split
  · exact ⟨_, h.setState .cancelled, nofun⟩
  · rename_i hs
    exact ⟨t, h, by simpa using hs⟩

def HasOnce (ts : Timers) (state : TimerState) : Prop := ∃ id t, ts.once? id = some t ∧ t.state = state

theorem Only.hasOnce_iff (h : ts.Only id t) {state : TimerState} : ts.HasOnce state ↔ t.state = state := by
  constructor
  · rintro ⟨j, t', ht', hs⟩
    rw [h j] at ht'
    split at ht'
    · exact Option.some.inj ht' ▸ hs
    · cases ht'
  · exact fun hs => ⟨id, t, (h id).trans (if_pos rfl), hs⟩

theorem Only.eq_of_once (h : ts.Only id t) {j : TimerId} {t' : Timer} (hj : ts.once? j = some t') : id = j := by
  rw [h j] at hj
  split at hj
  · assumption
  · cases hj

theorem Only.eq_of_fuse (h : ts.Only id t) {j : TimerId} (hf : ts.fuse j = true) : id = j ∧ t.state = .armed := by
  rw [fuse_eq_once?, h j] at hf
  by_cases hj : id = j
  · rw [if_pos hj] at hf
    exact ⟨hj, by simpa using hf⟩
  · rw [if_neg hj] at hf
    cases hf

end Timers

/-! ## The timer and its handle -/

namespace World

inductive Handle (w : World A) (history : List (Happening A)) : Prop
  | unset (hh : w.engine.validation.rollbackTimer = none) (ht : ∀ id, w.device.timers.once? id = none)
  | held {id : TimerId} {t : Timer} (hh : w.engine.validation.rollbackTimer = some id)
      (ht : w.device.timers.Only id t) (hs : t.state ≠ .cancelled) (hb : w.verdict.state ≠ .init)
      (hk : Kept history)
  | released {id : TimerId} {t : Timer} (hh : w.engine.validation.rollbackTimer = none)
      (ht : w.device.timers.Only id t) (hs : t.state ≠ .armed) (hb : w.verdict.state ≠ .init)
      (hk : ¬ Kept history)

def Periodic (w : World A) : Prop :=
  ∀ e id, w.engine.enabled = some e → e.autofetch = some id → w.device.timers.kind? id = some .periodic

variable {w w' : World A} {history history' : List (Happening A)}

theorem Handle.of_same (h : w.Handle history)
    (hh : w'.engine.validation.rollbackTimer = w.engine.validation.rollbackTimer)
    (ht : ∀ id, w'.device.timers.once? id = w.device.timers.once? id)
    (hb : w.verdict.state ≠ .init → w'.verdict.state ≠ .init)
    (hk : w.verdict.state ≠ .init → (Kept history' ↔ Kept history)) : w'.Handle history' := by
  cases h with
  | unset hnone honce => exact .unset (hh.trans hnone) fun id => (ht id).trans (honce id)
  | held hid honly hs hbegun hkept =>
    exact .held (hh.trans hid) (fun j => (ht j).trans (honly j)) hs (hb hbegun) ((hk hbegun).mpr hkept)
  | released hnone honly hs hbegun hkept =>
    exact .released (hh.trans hnone) (fun j => (ht j).trans (honly j)) hs (hb hbegun) (mt (hk hbegun).mp hkept)

theorem Handle.expire (h : w.Handle history) {id : TimerId} (hf : w.device.timers.fuse id = true) :
    (w.expire id).Handle history := by
  cases h with
  | unset hnone honce =>
    rw [Timers.fuse_eq_once?, honce] at hf
    cases hf
  | held hid honly hs hbegun hkept =>
    obtain ⟨rfl, -⟩ := honly.eq_of_fuse hf
    exact .held hid (honly.setState .fired) nofun hbegun hkept
  | released hnone honly hs => exact absurd (honly.eq_of_fuse hf).2 hs

theorem Handle.giveUp (h : w.Handle history) (hh : w'.engine.validation.rollbackTimer = none)
    (ht : w'.device.timers = w.timersGivenUp) (hb : w.verdict.state ≠ .init → w'.verdict.state ≠ .init)
    (hk : w.verdict.state ≠ .init → ¬ Kept history') : w'.Handle history' := by
  cases h with
  | unset hnone honce =>
    refine .unset hh fun id => ?_
    rw [ht, timersGivenUp, hnone]
    exact honce id
  | @held id t hid honly hs hbegun hkept =>
    obtain ⟨t', honly', hs'⟩ := honly.cancel
    have hgivenUp : w.timersGivenUp = (w.device.timers.cancel id).2 := by rw [timersGivenUp, hid]
    exact .released hh (ht ▸ hgivenUp ▸ honly') hs' (hb hbegun) (hk hbegun)
  | released hnone honly hs hbegun hkept =>
    have hgivenUp : w.timersGivenUp = w.device.timers := by rw [timersGivenUp, hnone]
    exact .released hh (ht ▸ hgivenUp ▸ honly) hs (hb hbegun) (hk hbegun)

/-! ### Effects -/

theorem givenUp_undergo (s : Saying) {e : Effect A} {c : Except Cause Unit} (h : w.callOf e = some c) :
    (w.undergo s e).2.engine.validation.rollbackTimer = none ∧
      (w.undergo s e).2.device.timers = w.timersGivenUp := by
  rw [undergo_snd]
  cases e with
  | markValid =>
    refine ⟨?_, w.timers_markValid⟩
    rw [perform, validation_markValid]
    split <;> rfl
  | markInvalid =>
    refine ⟨?_, w.timers_markInvalid⟩
    rw [perform, validation_markInvalid]
  | settleTrial =>
    by_cases hi : w.engine.validation.state = .invalid
    · rw [callOf, if_pos hi] at h
      cases h
    · refine ⟨?_, timers_settleTrial hi⟩
      rw [perform, validation_settleTrial hi]
  | _ => cases h

/-- What neither calls the bootloader nor begins the validation leaves the one-shot timers and the handle. -/
theorem handle_undergo (hp : w.Periodic) (s : Saying) {e : Effect A} (hc : w.callOf e = none)
    (hb : ∀ seconds, e ≠ .beginValidation seconds) :
    (w.undergo s e).2.engine.validation.rollbackTimer = w.engine.validation.rollbackTimer ∧
      ∀ id, (w.undergo s e).2.device.timers.once? id = w.device.timers.once? id := by
  rw [undergo_snd]
  cases e with
  | beginValidation seconds => exact absurd rfl (hb seconds)
  | markValid | markInvalid => cases hc
  | settleTrial =>
    by_cases hi : w.engine.validation.state = .invalid
    · rw [perform, settleTrial_invalid w hi]
      exact ⟨rfl, fun _ => rfl⟩
    · rw [callOf, if_neg hi] at hc
      cases hc
  | install config handler =>
    have h := w.alongside_install config handler
    exact ⟨congrArg _ h.validation, h.once⟩
  | uninstall =>
    rw [perform]
    have hu := w.uninstalling
    generalize w.uninstall.1 = r, w.uninstall.2 = w' at hu
    cases hu with
    | refused | silent => exact ⟨rfl, fun _ => rfl⟩
    | polling journal h ha => exact ⟨rfl, fun j => Timers.once?_cancel_periodic j (hp _ _ h ha)⟩
  | claim =>
    rw [perform]
    unfold claim
    split <;> exact ⟨rfl, fun _ => rfl⟩
  | joinConfirmation =>
    rw [perform]
    unfold joinConfirmation
    dsimp only
    split <;> exact ⟨rfl, fun _ => rfl⟩
  | saveJobId id =>
    refine ⟨rfl, fun _ => ?_⟩
    simp only [perform, Device.saveJobId]
    split <;> rfl
  | eraseJobId =>
    refine ⟨rfl, fun _ => ?_⟩
    simp only [perform, Device.eraseJobId]
    split <;> rfl
  | _ => exact ⟨rfl, fun _ => rfl⟩

theorem Periodic.of_kept (hp : w.Periodic) (he : w'.engine.enabled = w.engine.enabled)
    (hk : ∀ id k, w.device.timers.kind? id = some k → w'.device.timers.kind? id = some k) : w'.Periodic :=
  fun e id h ha => hk id _ (hp e id (he ▸ h) ha)

theorem Periodic.undergo (hp : w.Periodic) (s : Saying) (e : Effect A) : (w.undergo s e).2.Periodic := by
  have hgivenUp {w' : World A} (ht : TrialStep w w') (h : w'.device.timers = w.timersGivenUp) : w'.Periodic :=
    hp.of_kept ht.enabled fun id k hk => by rw [h, kind?_timersGivenUp, hk]
  rw [undergo_snd]
  cases e with
  | install config handler =>
    have hnet : KeepsNet w (w.install config handler).2 := keepsNet_install config handler
    intro e id h ha
    rcases hnet.periodic e id h ha with hold | hnew
    · exact hnet.kind id _ (hp e id hold ha)
    · exact hnew
  | uninstall =>
    rw [perform]
    have hu := w.uninstalling
    generalize w.uninstall.1 = r, w.uninstall.2 = w' at hu
    cases hu with
    | refused => exact hp
    | silent | polling =>
      intro _ _ h
      cases h
  | markValid => exact hgivenUp w.trialStep_markValid w.timers_markValid
  | markInvalid => exact hgivenUp w.trialStep_markInvalid w.timers_markInvalid
  | settleTrial =>
    rw [perform]
    by_cases hi : w.engine.validation.state = .invalid
    · rw [settleTrial_invalid w hi]
      exact hp
    · exact hgivenUp w.trialStep_settleTrial (timers_settleTrial hi)
  | beginValidation seconds =>
    have hs := w.trialStep_beginValidation seconds
    rw [perform]
    have hb := w.beginning seconds
    generalize (w.beginValidation seconds).1 = r, (w.beginValidation seconds).2 = w' at hb hs ⊢
    refine hp.of_kept hs.enabled fun id k hk => ?_
    cases hb with
    | begun | illegible | settled | foreign => exact hk
    | trial =>
      rw [timers_beginTrial]
      split
      · exact hk
      · exact Timers.kind?_add _ .once _ hk
  | claim =>
    rw [perform]
    unfold claim
    split <;> exact hp
  | joinConfirmation =>
    rw [perform]
    unfold joinConfirmation
    dsimp only
    split <;> exact hp
  | saveJobId id =>
    simp only [perform, Device.saveJobId]
    split <;> exact hp
  | eraseJobId =>
    simp only [perform, Device.eraseJobId]
    split <;> exact hp
  | _ => exact hp

theorem handle_beginTrial (hh : w.engine.validation.rollbackTimer = none)
    (ht : ∀ id, w.device.timers.once? id = none) (seconds : Nat) (hk : Kept history) :
    (w.beginTrial seconds).Handle history := by
  have hvalidation := w.validation_beginTrial seconds
  have htimers := w.timers_beginTrial seconds
  by_cases hf : w.device.faults.once = true
  · rw [if_pos hf] at hvalidation htimers
    refine .unset ?_ (htimers ▸ ht)
    rw [hvalidation]
    exact hh
  · rw [if_neg hf] at hvalidation htimers
    have honly : (w.beginTrial seconds).device.timers.Only w.device.timers.length ⟨.once, seconds * 1000, .armed⟩ :=
      htimers ▸ Timers.only_add ht _
    refine .held (congrArg (·.rollbackTimer) hvalidation) honly ?_ ?_ hk
    · intro h
      cases h
    · rw [verdict, hvalidation]
      intro h
      cases h

theorem Handle.beginValidation (h : w.Handle history) (task seconds : Nat) :
    (w.beginValidation seconds).2.Handle
      (.did task ⟨w, .beginValidation seconds, (w.beginValidation seconds).1⟩ :: history) := by
  have hb := w.beginning seconds
  generalize (w.beginValidation seconds).1 = r, (w.beginValidation seconds).2 = w' at hb ⊢
  have hunset (hi : w.engine.validation.state = .init) :
      w.engine.validation.rollbackTimer = none ∧ ∀ id, w.device.timers.once? id = none := by
    cases h with
    | unset hnone honce => exact ⟨hnone, honce⟩
    | held _ _ _ hbegun | released _ _ _ hbegun => exact absurd hi hbegun
  cases hb with
  | begun | illegible => exact h.of_same rfl (fun _ => rfl) id fun _ => kept_cons_of_still rfl rfl
  | settled hi | foreign hi => exact .unset (hunset hi).1 (hunset hi).2
  | trial hi =>
    have hkept : Kept (.did task ⟨w, .beginValidation seconds, some (.ok .trial)⟩ :: history) :=
      kept_cons.mpr (.inl rfl)
    exact handle_beginTrial (w := w.note (.slotState .pendingVerify)) (hunset hi).1 (hunset hi).2 seconds hkept

theorem begins_undergo (hb : w.verdict.state ≠ .init) (task : Nat) (s : Saying) (e : Effect A) :
    (Happening.did task ⟨w, e, (w.undergo s e).1⟩).begins = false := by
  cases e with
  | beginValidation seconds =>
    rw [undergo_begun hb]
    rfl
  | _ => rfl

theorem Handle.undergo (h : w.Handle history) (hp : w.Periodic) (task : Nat) (s : Saying) (e : Effect A)
    (hb : w.verdict.state ≠ .init → (w.undergo s e).2.verdict.state ≠ .init) :
    (w.undergo s e).2.Handle (.did task ⟨w, e, (w.undergo s e).1⟩ :: history) := by
  cases hc : w.callOf e with
  | some c =>
    obtain ⟨hh, ht⟩ := givenUp_undergo s hc
    have hgivesUp : (Happening.did task ⟨w, e, (w.undergo s e).1⟩).givesUp = true := by
      simp [Happening.givesUp, hc]
    refine h.giveUp hh ht hb fun hbegun => ?_
    simp [kept_cons, begins_undergo hbegun task s e, hgivesUp]
  | none =>
    have hgivesUp : (Happening.did task ⟨w, e, (w.undergo s e).1⟩).givesUp = false := by
      simp [Happening.givesUp, hc]
    by_cases he : ∃ seconds, e = .beginValidation seconds
    · obtain ⟨seconds, rfl⟩ := he
      exact h.beginValidation task seconds
    · obtain ⟨hh, ht⟩ := handle_undergo hp s hc (not_exists.mp he)
      exact h.of_same hh ht hb fun hbegun => kept_cons_of_still (begins_undergo hbegun task s e) hgivesUp

end World

/-! ## In every boot -/

namespace Boot

variable {b b' : Boot A}

theorem Twisted.periodic (ht : b.Twisted b') (hp : b.world.Periodic) : b'.world.Periodic := by
  have hspent {w : World A} (hp : w.Periodic) (id : TimerId) : (w.expire id).Periodic :=
    hp.of_kept rfl fun j k hk => (Timers.kind?_setState _ _ _ _).trans hk
  have hdue {w : World A} (hp : w.Periodic) : w.rollbackDue.Periodic :=
    hp.of_kept w.trialStep_rollbackDue.enabled fun j k hk => by rw [World.timers_rollbackDue, hk]
  cases ht with
  | swapped => exact hp
  | expired id => exact hspent hp id
  | rung => exact hdue hp
  | moved hm =>
    cases hm with
    | idle | called | attempted | paced | disturbed => exact hp
    | fired id hf =>
      dsimp only
      rw [World.fireOnce_of_fuse hf]
      exact hdue (hspent hp id)
    | advanced task s => exact hp.undergo s _
    | @tried task s e next =>
      obtain ⟨c, hc⟩ := Turn.afterAttempt (b.world.undergo s e).2 (next (b.world.undergo s e).1)
      dsimp only
      rw [hc]
      exact hp.undergo s e

theorem Twisted.handle (ht : b.Twisted b') (hg : b.Governed) (hp : b.world.Periodic)
    (h : b.world.Handle b.history) : b'.world.Handle b'.history := by
  obtain ⟨_, -, hshift⟩ := ht.shift hg.toConducted
  have hb := hshift.begun
  -- the timer acts without the engine's handle
  have hdue {w : World A} (h : w.Handle b.history)
      (hb : w.verdict.state ≠ .init → w.rollbackDue.verdict.state ≠ .init)
      (id : TimerId) : w.rollbackDue.Handle (.fired b.world id :: b.history) := by
    refine h.of_same ?_ (fun _ => by rw [World.timers_rollbackDue]) hb fun _ => kept_cons_of_still rfl rfl
    by_cases hon : w.OnTrial
    · rw [World.validation_rollbackDue hon]
    · rw [World.rollbackDue_of_not_onTrial w hon]
  cases ht with
  | swapped => exact h.of_same rfl (fun _ => rfl) id fun _ => Iff.rfl
  | expired id hf => exact h.expire hf
  | rung id => exact hdue h hb id
  | moved hm =>
    cases hm with
    | idle | called | attempted => exact h
    | paced | disturbed => exact h.of_same rfl (fun _ => rfl) id fun _ => Iff.rfl
    | fired id hf =>
      dsimp only at hb ⊢
      rw [World.fireOnce_of_fuse hf] at hb ⊢
      exact hdue (h.expire hf) hb id
    | advanced task s => exact h.undergo hp task s _ hb
    | @tried task s e next =>
      obtain ⟨c, hc⟩ := Turn.afterAttempt (b.world.undergo s e).2 (next (b.world.undergo s e).1)
      dsimp only at hb ⊢
      rw [hc] at hb ⊢
      exact (h.undergo hp task s e hb).of_same rfl (fun _ => rfl) id fun _ => Iff.rfl

end Boot

/-! ## All in all -/

namespace World

variable {w : World A} {history : List (Happening A)}

theorem Handle.eq_of_once (h : w.Handle history) {i j : TimerId} {t t' : Timer}
    (hi : w.device.timers.once? i = some t) (hj : w.device.timers.once? j = some t') : i = j := by
  cases h with
  | unset hnone honce => cases (honce i).symm.trans hi
  | held _ honly | released _ honly => exact (honly.eq_of_once hi).symm.trans (honly.eq_of_once hj)

theorem Handle.armed_iff (h : w.Handle history) : w.status.rollbackArmed = true ↔
    w.device.timers.HasOnce .armed ∨ w.device.timers.HasOnce .fired ∧ Kept history := by
  change w.engine.validation.rollbackTimer.isSome = true ↔ _
  cases h with
  | unset hnone honce =>
    have hno (state : TimerState) : ¬ w.device.timers.HasOnce state := by
      rintro ⟨j, t, ht, -⟩
      cases (honce j).symm.trans ht
    simp [hnone, hno]
  | @held id t hid honly hs hbegun hkept =>
    rw [honly.hasOnce_iff, honly.hasOnce_iff, hid]
    refine ⟨fun _ => ?_, fun _ => rfl⟩
    cases hstate : t.state with
    | armed => exact .inl rfl
    | fired => exact .inr ⟨rfl, hkept⟩
    | cancelled => exact absurd hstate hs
  | released hnone honly hs hbegun hkept =>
    rw [honly.hasOnce_iff, hnone]
    simp [hs, hkept]

end World

namespace Race

variable (d : Device) (version : String) (ts : List (Twist A))

theorem handle_sequel : (sequel d version ts).world.Handle (sequel d version ts).history := by
  have hperiodic : (Boot.start A d version).world.Periodic := by
    intro e id h
    cases h
  have hhandle : (Boot.start A d version).world.Handle (Boot.start A d version).history :=
    .unset rfl fun _ => rfl
  refine (twist_induction (P := fun b => b.Governed ∧ b.world.Periodic ∧ b.world.Handle b.history)
    ⟨Boot.governed_start d version, hperiodic, hhandle⟩ ?_ ts).2.2
  rintro b b' ⟨hg, hp, hh⟩ ht
  exact ⟨hg.twisted ht, ht.periodic hp, ht.handle hg hp hh⟩

/-- At most one one-shot timer is set in a boot. The engine takes it for armed as long as it is, and when it has
fired until somebody gives it up. -/
theorem rollbackArmed_iff :
    (∀ i j t t', (sequel d version ts).world.device.timers.once? i = some t →
      (sequel d version ts).world.device.timers.once? j = some t' → i = j) ∧
    ((sequel d version ts).world.status.rollbackArmed = true ↔
      (sequel d version ts).world.device.timers.HasOnce .armed ∨
      (sequel d version ts).world.device.timers.HasOnce .fired ∧ Kept (sequel d version ts).history) :=
  have hh := handle_sequel d version ts
  ⟨fun _ _ _ _ hi hj => hh.eq_of_once hi hj, hh.armed_iff⟩

def lapsing : List (Twist Agent.application) := (Boot.enabling ++ [Move.fire 1]).map fun m => .step (.move m)

theorem rollbackArmed_iff_lapsing :
    (sequel Boot.trialDevice "1.0.0" lapsing).world.status.rollbackArmed = true ∧
    ¬ (sequel Boot.trialDevice "1.0.0" lapsing).world.device.timers.HasOnce .armed ∧
    (sequel Boot.trialDevice "1.0.0" lapsing).world.device.timers.HasOnce .fired ∧
    Kept (sequel Boot.trialDevice "1.0.0" lapsing).history := by
  have harmed : (sequel Boot.trialDevice "1.0.0" lapsing).world.status.rollbackArmed = true := by decide +kernel
  have hfired : (sequel Boot.trialDevice "1.0.0" lapsing).world.device.timers.once? 1 =
      some ⟨.once, 90000, .fired⟩ := by decide +kernel
  obtain ⟨hone, hiff⟩ := rollbackArmed_iff Boot.trialDevice "1.0.0" lapsing
  have hspent : ¬ (sequel Boot.trialDevice "1.0.0" lapsing).world.device.timers.HasOnce .armed := by
    rintro ⟨j, t, ht, hs⟩
    obtain rfl := hone 1 j _ t hfired ht
    cases Option.some.inj (hfired.symm.trans ht)
    cases hs
  exact ⟨harmed, hspent, (hiff.mp harmed).resolve_left hspent⟩

/-- The image has been rolled back, and the timer is still taken for armed. -/
theorem armed_after_firing :
    (sequel Boot.trialDevice "1.0.0" lapsing).world.status.validation = .invalid ∧
    (sequel Boot.trialDevice "1.0.0" lapsing).world.device.slots.rollbackCalls = 1 ∧
    (sequel Boot.trialDevice "1.0.0" lapsing).world.device.timers =
      [⟨.periodic, 86400000, .armed⟩, ⟨.once, 90000, .fired⟩] ∧
    (sequel Boot.trialDevice "1.0.0" lapsing).world.status.rollbackArmed = true := by
  decide +kernel

end Race

end FirmwareUpdate
