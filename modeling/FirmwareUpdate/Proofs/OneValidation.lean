import FirmwareUpdate.Proofs.Erasures
import FirmwareUpdate.Proofs.Examinations

/-!
# One validation a boot

However often the engine is enabled, and whatever its handlers, its tests and the network do meanwhile,
the validation of a boot begins at most once: no way leads back to its first state. So one rollback timer
is set, one test made, one confirmation started and one rollback reported, at most.
-/

namespace FirmwareUpdate

open Routine

variable {A : Application}

/-! ## Tests and confirmations -/

def Effect.startsConfirmation : Effect A → Bool
  | .startConfirmation _ => true
  | _ => false

theorem Effect.startsConfirmation_iff {e : Effect A} : e.startsConfirmation = true ↔ e.Starts := by
  cases e <;> simp [startsConfirmation, Starts]

theorem Effect.exists_of_tests {e : Effect A} (h : e.tests = true) : ∃ test, e = .diagnose test := by
  cases e with
  | diagnose test => exact ⟨test, rfl⟩
  | _ => cases h

theorem Effect.examines_of_tests {e : Effect A} (h : e.tests = true) : e.Examines := by
  obtain ⟨test, rfl⟩ := exists_of_tests h
  trivial

namespace Boot

variable (d : Device) (version : String) (ms : List (Move A))

theorem begins_le_one : ((start A d version).run ms).history.countP Happening.begins ≤ 1 :=
  countP_le_one fun _ _ _ _ _ h hx =>
    unbegun_before d version ms h hx _ (List.mem_append_right _ List.mem_cons_self)

/-- What a task requests only after it has begun the validation, and never again, is requested once. -/
theorem requests_le_one {p : Effect A → Bool}
    (hp : ∀ past e, Examining past e → p e = true → Began past ∧ ∀ d ∈ past, p d.request = false) :
    ((start A d version).run ms).history.countP (Happening.requests p) ≤ 1 := by
  have hrule := (examining_run d version ms).history
  apply countP_le_one
  intro later x between y earlier h hx
  cases x with
  | fired => cases hx
  | did i x =>
    cases y with
    | fired => rfl
    | did j y =>
      have h' : ((start A d version).run ms).history = (later ++ .did i x :: between) ++ .did j y :: earlier := by
        simpa using h
      obtain ⟨hbegan, hnone⟩ := hp _ _ ((h ▸ hrule).split i x rfl) hx
      cases hy : p y.request with
      | false => exact hy
      | true =>
        have hbegan' := (hp _ _ ((h' ▸ hrule).split j y rfl) hy).1
        -- it is one task that asks twice
        obtain rfl := began_once d version ms h hbegan h' hbegan'
        have hdone : y ∈ deedsBy i (between ++ .did i y :: earlier) :=
          mem_deedsBy.mpr (List.mem_append_right _ List.mem_cons_self)
        exact absurd hy (by simp [hnone y hdone])

theorem tests_le_one :
    ((start A d version).run ms).history.countP (Happening.requests Effect.tests) ≤ 1 := by
  apply requests_le_one
  intro past e he htests
  obtain ⟨test, rfl⟩ := Effect.exists_of_tests htests
  obtain ⟨hb, hnone⟩ := he.tests test rfl
  exact ⟨hb, fun d hd => Bool.eq_false_iff.mpr fun ht => hnone d hd (Effect.examines_of_tests ht)⟩

theorem confirmations_le_one :
    ((start A d version).run ms).history.countP (Happening.requests Effect.startsConfirmation) ≤ 1 := by
  apply requests_le_one
  intro past e he hstarts
  have hcleared := he.starts (Effect.startsConfirmation_iff.mp hstarts)
  exact ⟨hcleared.began, fun d hd =>
    Bool.eq_false_iff.mpr fun hs => hcleared.unstarted d hd (Effect.startsConfirmation_iff.mp hs)⟩

end Boot

/-! ## Timers -/

namespace Timers

def shots (ts : Timers) : Nat := ts.countP (·.kind == .once)

theorem shots_congr {ts ts' : Timers} (h : ∀ id, ts'.kind? id = ts.kind? id) : ts'.shots = ts.shots := by
  have hkinds : ts'.map (·.kind) = ts.map (·.kind) := by
    apply List.ext_getElem?
    intro id
    rw [List.getElem?_map, List.getElem?_map]
    exact h id
  have hcount (ts : Timers) : ts.shots = (ts.map (·.kind)).countP (· == .once) := by
    rw [List.countP_map]
    rfl
  rw [hcount, hcount, hkinds]

theorem shots_add (ts : Timers) (kind : TimerKind) (span : Nat) :
    (ts.add kind span).2.shots = ts.shots + (kind == .once).toNat := by
  cases kind <;> simp [shots, add]

end Timers

namespace World

variable (w : World A)

theorem shots_install (config : Config) (handler : Option A.Handler) :
    (w.install config handler).2.device.timers.shots = w.device.timers.shots := by
  have hi := w.installing config handler
  generalize (w.install config handler).1 = r, (w.install config handler).2 = w' at hi ⊢
  cases hi with
  | refused | silent => rfl
  | polling => exact Timers.shots_add _ .periodic _

theorem shots_uninstall : w.uninstall.2.device.timers.shots = w.device.timers.shots := by
  have hu := w.uninstalling
  generalize w.uninstall.1 = r, w.uninstall.2 = w' at hu ⊢
  cases hu with
  | refused | silent => rfl
  | polling => exact Timers.shots_congr (Timers.kind?_cancel _ _)

theorem shots_undergo (s : Saying) {e : Effect A} (h : ∀ seconds, e ≠ .beginValidation seconds) :
    (w.undergo s e).2.device.timers.shots = w.device.timers.shots := by
  have hgivenUp : w.timersGivenUp.shots = w.device.timers.shots := Timers.shots_congr kind?_timersGivenUp
  rw [undergo_snd]
  cases e with
  | beginValidation seconds => exact absurd rfl (h seconds)
  | install config handler => exact w.shots_install config handler
  | uninstall => exact w.shots_uninstall
  | markValid => rw [perform, timers_markValid, hgivenUp]
  | markInvalid => rw [perform, timers_markInvalid, hgivenUp]
  | settleTrial =>
    rw [perform]
    by_cases hs : w.engine.validation.state = .invalid
    · rw [settleTrial_invalid w hs]
      rfl
    · rw [timers_settleTrial hs, hgivenUp]
  | claim =>
    rw [perform]
    unfold claim
    split <;> rfl
  | joinConfirmation =>
    rw [perform]
    unfold joinConfirmation
    dsimp only
    split <;> rfl
  | saveJobId id =>
    simp only [perform, Device.saveJobId]
    split <;> rfl
  | eraseJobId =>
    simp only [perform, Device.eraseJobId]
    split <;> rfl
  | _ => rfl

theorem shots_fireOnce (id : TimerId) :
    (w.fireOnce id).2.device.timers.shots = w.device.timers.shots := by
  unfold fireOnce
  split
  · rw [timers_rollbackDue]
    exact Timers.shots_congr (Timers.kind?_setState _ _ · _)
  · rfl

/-- A one-shot timer has been set once at most, and not before the validation has begun. -/
structure Single (w : World A) : Prop where
  shots : w.device.timers.shots ≤ 1
  unstarted : w.engine.validation.state = .init → w.device.timers.shots = 0

variable {w}

theorem Single.beginValidation (h : w.Single) (seconds : Nat) : (w.beginValidation seconds).2.Single := by
  have hb := w.beginning seconds
  generalize (w.beginValidation seconds).1 = r, (w.beginValidation seconds).2 = w' at hb ⊢
  cases hb with
  | begun | illegible => exact h
  | trial hi =>
    refine ⟨?_, by rw [validation_beginTrial]; nofun⟩
    rw [timers_beginTrial]
    split
    · exact h.shots
    · have hnone : (w.note (.slotState .pendingVerify)).device.timers.shots = 0 := h.unstarted hi
      rw [Timers.shots_add, hnone]
      exact Nat.le_refl 1
  | settled | foreign => exact ⟨h.shots, nofun⟩

end World

theorem Turn.single {w w' : World A} {h h' : List (Happening A)} (ht : Turn w h w' h') (hw : w.Timed)
    (hs : w.Single) : w'.Single := by
  have hleft := (ht.net hw).2
  have hkept (he : w'.device.timers.shots = w.device.timers.shots)
      (hi : w'.engine.validation.state = .init → w.engine.validation.state = .init) : w'.Single :=
    ⟨he ▸ hs.shots, fun h => he ▸ hs.unstarted (hi h)⟩
  have hback (h : w'.engine.validation.state = .init) : w.engine.validation.state = .init := by
    refine Classical.byContradiction fun hne => ?_
    exact (hleft hne).1 h
  cases ht with
  | paced c => exact hkept rfl hback
  | surrounded s => exact hkept rfl hback
  | fired id hf => exact hkept (w.shots_fireOnce id) hback
  | did task s e c =>
    by_cases he : ∃ seconds, e = .beginValidation seconds
    · obtain ⟨seconds, rfl⟩ := he
      have hnext : (w.undergo s (.beginValidation seconds)).2.Single := by
        rw [World.undergo_snd]
        exact hs.beginValidation seconds
      exact ⟨hnext.shots, hnext.unstarted⟩
    · exact hkept (w.shots_undergo s (not_exists.mp he)) hback

theorem Boot.single_run (d : Device) (version : String) (ms : List (Move A)) :
    ((start A d version).run ms).world.Single := by
  have hrun := run_turns (b := start A d version) (P := fun w _ => w.Timed ∧ w.Single)
    (fun ht hp => ⟨(ht.net hp.1).1, ht.single hp.1 hp.2⟩) ⟨World.timed_boot d version, ?_⟩ ms
  · exact hrun.2
  · exact ⟨Nat.zero_le 1, fun _ => rfl⟩

/-! ## Rollbacks reported -/

/-- Between the start of the validation and the report that a job was rolled back nothing is sent. -/
theorem Retracting.begun {id : String} {past : List (Deed A)} (h : Retracting id past) :
    ∃ recent s seconds prior, past = recent ++ ⟨s, .beginValidation seconds, some (.ok .settled)⟩ :: prior ∧
      ∀ d ∈ recent, d.request.posts = false := by
  cases h with
  | erased s h =>
    obtain ⟨s₀, s₁, s₂, seconds, prior⟩ := h
    exact ⟨[_, _, _], s₀, seconds, prior, rfl, by simp [Effect.posts]⟩
  | kept s s' c c' h =>
    obtain ⟨s₀, s₁, s₂, seconds, prior⟩ := h
    exact ⟨[_, _, _, _], s₀, seconds, prior, rfl, by simp [Effect.posts]⟩

/-- A member of a list stands in front of another if something behind it is not behind the other. -/
theorem mem_of_behind {α : Type} {front back front' back' : List α} {x y z : α}
    (h : front ++ x :: back = front' ++ y :: back') (hz : z ∈ back) (hz' : z ∉ back') : x ∈ front' := by
  rcases List.append_eq_append_iff.mp h with ⟨rest, rfl, hrest⟩ | ⟨rest, -, hrest⟩
  · cases rest with
    | nil =>
      obtain ⟨-, rfl⟩ := List.cons.inj hrest
      exact absurd hz hz'
    | cons x' rest =>
      obtain ⟨rfl, -⟩ := List.cons.inj hrest
      exact List.mem_append_right _ List.mem_cons_self
  · cases rest with
    | nil =>
      obtain ⟨-, rfl⟩ := List.cons.inj hrest
      exact absurd hz hz'
    | cons y' rest =>
      obtain ⟨-, rfl⟩ := List.cons.inj hrest
      exact absurd (List.mem_append_right _ (List.mem_cons_of_mem _ hz)) hz'

namespace Boot

/-- The application has the job reported as rolled back: it does so itself, or it rejects a job in the
engine's own words for a rollback. -/
def Instructed (ms : List (Move A)) (task : Nat) (id : String) (before : List (Happening A)) : Prop :=
  (∃ c, .call c ∈ ms ∧ c.Retracts id) ∨ Dictated id (deedsBy task before)

variable (d : Device) (version : String) (ms : List (Move A))

theorem begun_of_uninstructed {later before : List (Happening A)} {task : Nat} {w : World A} {id : String}
    {r : Option (Except Cause Response)}
    (h : ((start A d version).run ms).history = later ++ .did task ⟨w, retraction id, r⟩ :: before)
    (hu : ¬ Instructed ms task id before) :
    ∃ between s seconds prior,
      before = between ++ .did task ⟨s, .beginValidation seconds, some (.ok .settled)⟩ :: prior ∧
        ∀ d ∈ deedsBy task between, d.request.posts = false := by
  have hrule := (orderly_run d version ms).history
  rw [h] at hrule
  rcases (hrule.split task _ rfl).retracts id rfl with hown | hdictated | hretracting
  · exact absurd (.inl hown) hu
  · exact absurd (.inr hdictated) hu
  · obtain ⟨recent, s, seconds, past, hpast, hsilent⟩ := hretracting.begun
    obtain ⟨between, prior, rfl, hbetween, -⟩ := split_of_deedsBy recent hpast
    exact ⟨between, s, seconds, prior, rfl, hbetween ▸ hsilent⟩

/-- Of two reports that a job was rolled back, the application had one sent. -/
theorem instructed_of_retractions {later between before : List (Happening A)} {i j : Nat} {w w' : World A}
    {id id' : String} {r r' : Option (Except Cause Response)}
    (h : ((start A d version).run ms).history = later ++ .did i ⟨w, retraction id, r⟩ ::
      (between ++ .did j ⟨w', retraction id', r'⟩ :: before)) :
    Instructed ms i id (between ++ .did j ⟨w', retraction id', r'⟩ :: before) ∨ Instructed ms j id' before := by
  refine Classical.byContradiction fun hnone => ?_
  obtain ⟨hu, hu'⟩ := not_or.mp hnone
  have h' : ((start A d version).run ms).history = (later ++ .did i ⟨w, retraction id, r⟩ :: between) ++
      .did j ⟨w', retraction id', r'⟩ :: before := by simpa using h
  obtain ⟨recent, s, seconds, prior, hsplit, hsilent⟩ := begun_of_uninstructed d version ms h hu
  obtain ⟨recent', s', seconds', prior', rfl, -⟩ := begun_of_uninstructed d version ms h' hu'
  have hbegun : ((start A d version).run ms).history = (later ++ .did i ⟨w, retraction id, r⟩ :: recent) ++
      .did i ⟨s, .beginValidation seconds, some (.ok .settled)⟩ :: prior := by
    rw [h, hsplit]
    simp
  have hbegun' : .did j ⟨s', .beginValidation seconds', some (.ok .settled)⟩ ∈
      recent' ++ .did j ⟨s', .beginValidation seconds', some (.ok .settled)⟩ :: prior' :=
    List.mem_append_right _ List.mem_cons_self
  -- the validation has begun only once, so before the earlier report, and in the same task
  have hearlier : .did j ⟨w', retraction id', r'⟩ ∈ recent := by
    refine mem_of_behind hsplit hbegun' fun hmem => ?_
    cases unbegun_before d version ms hbegun rfl _ hmem
  obtain rfl : i = j := begun_once d version ms (hbegun ▸ List.mem_append_right _ List.mem_cons_self)
    (h' ▸ List.mem_append_right _ (List.mem_cons_of_mem _ hbegun')) rfl rfl
  cases hsilent _ (mem_deedsBy.mpr hearlier)

/-! ## All in all -/

/-- The validation of a boot begins at most once. One one-shot timer is set at most, one test and one
confirmation are started, and one rollback is reported that the application did not have reported. -/
theorem validated_at_most_once :
    ((start A d version).run ms).history.countP Happening.begins ≤ 1 ∧
    ((start A d version).run ms).world.device.timers.shots ≤ 1 ∧
    ((start A d version).run ms).history.countP (Happening.requests Effect.tests) ≤ 1 ∧
    ((start A d version).run ms).history.countP (Happening.requests Effect.startsConfirmation) ≤ 1 ∧
    ∀ {later between before : List (Happening A)} {i j : Nat} {w w' : World A} {id id' : String}
      {r r' : Option (Except Cause Response)},
      ((start A d version).run ms).history = later ++ .did i ⟨w, retraction id, r⟩ ::
        (between ++ .did j ⟨w', retraction id', r'⟩ :: before) →
      Instructed ms i id (between ++ .did j ⟨w', retraction id', r'⟩ :: before) ∨ Instructed ms j id' before :=
  ⟨begins_le_one d version ms, (single_run d version ms).shots, tests_le_one d version ms,
    confirmations_le_one d version ms, instructed_of_retractions d version ms⟩

def reenabling : List (Move Agent.application) :=
  .call (.enable Config.default none (some ())) :: List.replicate 12 (.go 0 obliging) ++
    [.call .disable, .go 1 obliging] ++
    .call (.enable Config.default none (some ())) :: List.replicate 12 (.go 2 obliging)

example :
    let b := (start Agent.application trialDevice "1.0.0").run reenabling
    b.world.engine.enabled.isSome = true ∧ b.history.countP Happening.begins = 1 ∧
      b.world.device.timers.shots = 1 ∧ b.history.countP (Happening.requests Effect.tests) = 1 ∧
      b.history.countP (Happening.requests Effect.startsConfirmation) = 1 := by
  decide +kernel

end Boot

end FirmwareUpdate
