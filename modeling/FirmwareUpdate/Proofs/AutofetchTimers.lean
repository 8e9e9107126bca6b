import FirmwareUpdate.Proofs.Ticking

/-!
# The autofetch timer

While the engine is enabled with a period there is one armed periodic timer, with that period, and at any
other time there is none. An enabling that fails leaves everything as it found it, and a fetch that finds
the engine disabled does nothing.
-/

namespace FirmwareUpdate

open Routine

variable {A : Application}

/-! ## Periodic timers -/

def Timer.polls (t : Timer) : Bool := t.kind == .periodic && t.state == .armed

namespace Timers

def polling (ts : Timers) : Timers := ts.filter Timer.polls

structure KeepsPeriodic (ts ts' : Timers) : Prop where
  entry : ∀ id, ts.kind? id = some .periodic → ts'[id]? = ts[id]?
  polling : ts'.polling = ts.polling

variable {ts : Timers} {id : TimerId}

theorem KeepsPeriodic.refl (ts : Timers) : ts.KeepsPeriodic ts := ⟨fun _ _ => rfl, rfl⟩

theorem kind?_of_fuse (h : ts.fuse id = true) : ts.kind? id = some .once := by
  obtain ⟨t, hi, ht⟩ := Option.any_eq_true _ _ |>.mp h
  rw [Bool.and_eq_true] at ht
  simp [kind?, hi, eq_of_beq ht.1]

theorem polling_setState (h : ts.kind? id = some .once) (state : TimerState) :
    (ts.setState id state).polling = ts.polling := by
  induction ts generalizing id with
  | nil => cases h
  | cons t ts ih =>
    cases id with
    | zero =>
      have ht : t.kind = .once := by simpa [kind?] using h
      simp [setState, polling, Timer.polls, ht]
    | succ id =>
      have htail : kind? ts id = some .once := by simpa [kind?] using h
      have hrest := ih htail
      simp only [setState, polling] at hrest ⊢
      rw [List.modify_succ_cons, List.filter_cons, List.filter_cons, hrest]

theorem keepsPeriodic_setState (h : ts.kind? id = some .once) (state : TimerState) :
    ts.KeepsPeriodic (ts.setState id state) := by
  refine ⟨fun j hj => ?_, polling_setState h state⟩
  rw [getElem?_setState, if_neg]
  rintro rfl
  rw [h] at hj
  cases hj

theorem keepsPeriodic_cancel (h : ts.kind? id = some .once) : ts.KeepsPeriodic (ts.cancel id).2 := by
  unfold cancel
  split
  · exact keepsPeriodic_setState h _
  · exact .refl ts

theorem keepsPeriodic_add_once (ts : Timers) (span : Nat) : ts.KeepsPeriodic (ts.add .once span).2 := by
  refine ⟨fun j hj => ?_, ?_⟩
  · obtain ⟨t, ht, -⟩ := Option.map_eq_some_iff.mp hj
    exact List.getElem?_append_left (List.getElem?_eq_some_iff.mp ht).1
  · simp [add, polling, Timer.polls]

/-- Cancelling an armed periodic timer leaves one less of them. -/
theorem length_polling_cancel {t : Timer} (h : ts[id]? = some t) (ht : t.polls = true) :
    (ts.cancel id).2.polling.length + 1 = ts.polling.length := by
  have harmed : ts.isArmed id = true := by
    rw [Timer.polls, Bool.and_eq_true] at ht
    simp only [isArmed, h, ht.2]
  rw [cancel, if_pos harmed]
  clear harmed
  induction ts generalizing id with
  | nil => cases h
  | cons t' ts ih =>
    cases id with
    | zero =>
      obtain rfl : t' = t := by simpa using h
      have hnot : ({ t' with state := .cancelled } : Timer).polls = false := by simp [Timer.polls]
      simp [setState, polling, ht, hnot]
    | succ id =>
      have htail : ts[id]? = some t := by simpa using h
      have hrest := ih htail
      simp only [setState, polling] at hrest ⊢
      rw [List.modify_succ_cons, List.filter_cons, List.filter_cons]
      split
      · rw [List.length_cons, List.length_cons, hrest]
      · exact hrest

end Timers

/-! ## What changes them -/

namespace World

variable {w w' : World A}

structure Steady (w w' : World A) : Prop where
  enabled : w'.engine.enabled = w.engine.enabled
  workers : w'.engine.workers = w.engine.workers
  timers : w.device.timers.KeepsPeriodic w'.device.timers

theorem Steady.of_eq (he : w'.engine.enabled = w.engine.enabled) (hw : w'.engine.workers = w.engine.workers)
    (ht : w'.device.timers = w.device.timers) : Steady w w' := ⟨he, hw, ht ▸ .refl _⟩

theorem TrialStep.steady (h : TrialStep w w') (ht : w.device.timers.KeepsPeriodic w'.device.timers) :
    Steady w w' := ⟨h.enabled, congrArg (·.workers) h.engine, ht⟩

theorem Timed.keepsPeriodic_givenUp (ht : w.Timed) : w.device.timers.KeepsPeriodic w.timersGivenUp := by
  unfold timersGivenUp
  split
  · exact .refl _
  · rename_i id hid
    exact Timers.keepsPeriodic_cancel (ht.once id hid)

theorem steady_beginValidation (w : World A) (seconds : Nat) : Steady w (w.beginValidation seconds).2 := by
  have hstep := w.trialStep_beginValidation seconds
  have hb := w.beginning seconds
  generalize (w.beginValidation seconds).1 = r, (w.beginValidation seconds).2 = w' at hb hstep ⊢
  refine hstep.steady ?_
  cases hb with
  | begun | illegible | settled | foreign => exact .refl _
  | trial =>
    rw [timers_beginTrial]
    split
    · exact .refl _
    · exact Timers.keepsPeriodic_add_once _ _

theorem steady_undergo (ht : w.Timed) (s : Saying) {e : Effect A} (hi : ∀ config handler, e ≠ .install config handler)
    (hu : e ≠ .uninstall) : Steady w (w.undergo s e).2 := by
  rw [undergo_snd]
  cases e with
  | install config handler => exact absurd rfl (hi config handler)
  | uninstall => exact absurd rfl hu
  | beginValidation seconds => exact w.steady_beginValidation seconds
  | markValid => exact w.trialStep_markValid.steady (w.timers_markValid ▸ ht.keepsPeriodic_givenUp)
  | markInvalid => exact w.trialStep_markInvalid.steady (w.timers_markInvalid ▸ ht.keepsPeriodic_givenUp)
  | settleTrial =>
    refine w.trialStep_settleTrial.steady ?_
    by_cases hs : w.engine.validation.state = .invalid
    · rw [settleTrial_invalid w hs]
      exact .refl _
    · exact timers_settleTrial hs ▸ ht.keepsPeriodic_givenUp
  | joinConfirmation =>
    refine w.trialStep_joinConfirmation.steady ?_
    unfold joinConfirmation
    dsimp only
    split <;> exact .refl _
  | claim =>
    rw [perform]
    unfold claim
    split <;> exact .of_eq rfl rfl rfl
  | saveJobId id =>
    refine .of_eq rfl rfl ?_
    change (w.device.saveJobId id).2.timers = _
    unfold Device.saveJobId
    split <;> rfl
  | eraseJobId =>
    refine .of_eq rfl rfl ?_
    change w.device.eraseJobId.2.timers = _
    unfold Device.eraseJobId
    dsimp only
    split <;> rfl
  | _ => exact .of_eq rfl rfl rfl

theorem steady_fireOnce {id : TimerId} (hf : w.device.timers.fuse id = true) : Steady w (w.fireOnce id).2 := by
  refine (w.trialStep_fireOnce id).steady ?_
  unfold fireOnce
  rw [if_pos (Timers.isArmed_of_fuse hf), timers_rollbackDue]
  exact Timers.keepsPeriodic_setState (Timers.kind?_of_fuse hf) _

/-! ## The timer of the configuration in force -/

/-- The timers that the configuration in force asks for. -/
def duePolling (w : World A) : Timers :=
  match w.engine.enabled with
  | none => []
  | some e =>
    if e.config.autofetchPeriodHours = 0 then []
    else [⟨.periodic, e.config.autofetchPeriodHours.toNat * 3600 * 1000, .armed⟩]

structure Polled (w : World A) : Prop where
  polling : w.device.timers.polling = w.duePolling
  held : ∀ e id, w.engine.enabled = some e → e.autofetch = some id →
    ∃ t, w.device.timers[id]? = some t ∧ t.polls = true
  unheld : ∀ e, w.engine.enabled = some e → e.autofetch = none → w.duePolling = []

theorem polled_boot (d : Device) (version : String) : Polled (.boot d version : World A) where
  polling := rfl
  held _ _ h := by cases h
  unheld _ h := by cases h

theorem Polled.congr (hp : w.Polled) (he : w'.engine.enabled = w.engine.enabled)
    (hpolling : w'.device.timers.polling = w.device.timers.polling)
    (hentry : ∀ id, w.device.timers.kind? id = some .periodic → w'.device.timers[id]? = w.device.timers[id]?) :
    w'.Polled := by
  have hdue : w'.duePolling = w.duePolling := by
    unfold duePolling
    rw [he]
  refine ⟨?_, fun e id h ha => ?_, fun e h ha => ?_⟩
  · rw [hpolling, hp.polling, hdue]
  · obtain ⟨t, hi, ht⟩ := hp.held e id (he ▸ h) ha
    have hkind : t.kind = .periodic := by
      rw [Timer.polls, Bool.and_eq_true] at ht
      exact eq_of_beq ht.1
    refine ⟨t, ?_, ht⟩
    rw [hentry id (by simp [Timers.kind?, hi, hkind]), hi]
  · rw [hdue]
    exact hp.unheld e (he ▸ h) ha

theorem Steady.polled (h : Steady w w') (hp : w.Polled) : w'.Polled :=
  hp.congr h.enabled h.timers.polling h.timers.entry

theorem Stirred.polled (h : w.Stirred w') (hp : w.Polled) : w'.Polled := by
  obtain ⟨⟨journal, hd⟩, workers, deserted, he⟩ := h
  exact hp.congr (by rw [he]) (by rw [hd]) fun id _ => by rw [hd]

variable {config : Config} {handler : Option A.Handler} {r : Except UpdateError Unit}

theorem Installing.polled (hi : w.Installing config handler r w') (hp : w.Polled) : w'.Polled := by
  have hidle (h : w.engine.enabled = none) : w.device.timers.polling = [] := by
    rw [hp.polling, duePolling, h]
  cases hi with
  | refused => exact hp
  | silent journal h hnone =>
    have hzero : config.autofetchPeriodHours = 0 := by simpa [Config.autofetchPeriod] using hnone
    refine ⟨?_, nofun, fun e he _ => ?_⟩
    · simp [duePolling, hzero, hidle h]
    · simp [duePolling, hzero]
  | @polling journal seconds h hsome =>
    obtain ⟨hpos, rfl⟩ : config.autofetchPeriodHours ≠ 0 ∧ config.autofetchPeriodHours.toNat * 3600 = seconds := by
      simpa [Config.autofetchPeriod] using hsome
    have hidle := hidle h
    rw [Timers.polling] at hidle
    refine ⟨?_, fun e id he ha => ?_, fun e he ha => ?_⟩
    · simp [duePolling, Timers.polling, Timer.polls, hpos, hidle]
    · cases he
      cases ha
      exact ⟨_, List.getElem?_concat_length, rfl⟩
    · cases he
      cases ha

theorem Uninstalling.polled (hu : w.Uninstalling r w') (hp : w.Polled) : w'.Polled := by
  cases hu with
  | refused => exact hp
  | @silent journal e h ha => exact ⟨hp.polling.trans (hp.unheld e h ha), nofun, nofun⟩
  | @polling journal e id h ha =>
    obtain ⟨t, hi, ht⟩ := hp.held e id h ha
    have hlength := Timers.length_polling_cancel hi ht
    have hmost : w.duePolling.length ≤ 1 := by
      unfold duePolling
      split
      · simp
      · split <;> simp
    rw [hp.polling] at hlength
    refine ⟨List.eq_nil_of_length_eq_zero ?_, nofun, nofun⟩
    change (w.device.timers.cancel id).2.polling.length = 0
    omega

end World

/-- A turn leaves the autofetch as it is, or it is an attempt to enable the engine or to disable it. -/
theorem Turn.enabling {w w' : World A} {h h' : List (Happening A)} (ht : Turn w h w' h') (hw : w.Timed) :
    w.Steady w' ∨
    (∃ config handler r w₁ c, w.Installing config handler r w₁ ∧ w' = w₁.withConfirmation c) ∨
    ∃ r w₁ c, w.Uninstalling r w₁ ∧ w' = w₁.withConfirmation c := by
  cases ht with
  | paced | surrounded => exact .inl (.of_eq rfl rfl rfl)
  | fired id hf => exact .inl (World.steady_fireOnce hf)
  | did task s e c =>
    by_cases hi : ∃ config handler, e = .install config handler
    · obtain ⟨config, handler, rfl⟩ := hi
      exact .inr (.inl ⟨config, handler, _, _, c, w.installing config handler, rfl⟩)
    by_cases hu : e = .uninstall
    · subst hu
      exact .inr (.inr ⟨_, _, c, w.uninstalling, rfl⟩)
    · have hsteady := World.steady_undergo hw s (fun config handler he => hi ⟨config, handler, he⟩) hu
      exact .inl ⟨hsteady.enabled, hsteady.workers, hsteady.timers⟩

theorem Turn.polled {w w' : World A} {h h' : List (Happening A)} (ht : Turn w h w' h') (hw : w.Timed)
    (hp : w.Polled) : w'.Polled := by
  have hpaced {w : World A} (c : Option Confirmation) (hp : w.Polled) : (w.withConfirmation c).Polled :=
    ⟨hp.polling, hp.held, hp.unheld⟩
  rcases ht.enabling hw with hs | ⟨config, handler, r, w₁, c, hi, rfl⟩ | ⟨r, w₁, c, hu, rfl⟩
  · exact hs.polled hp
  · exact hpaced c (hi.polled hp)
  · exact hpaced c (hu.polled hp)

/-! ## Turned away -/

namespace Activity

/-- An enabling that fails has tried to put its configuration in force, and nothing else. -/
theorem ran_enable_error {config : Config} {handler : Option A.Handler} {test : Option A.SelfTest}
    {t : List (Deed A)} {e : UpdateError} (h : Ran (enable config handler test) t (some (.error e))) :
    ∃ w, t = [⟨w, .install config handler, .error e⟩] := by
  obtain _ | _ | ⟨w, r, h⟩ := h
  cases r with
  | error e' =>
    cases h
    exact ⟨w, rfl⟩
  | ok =>
    rcases Ran.of_bind (p := validate test config) h with ⟨v, t₁, t₂, -, hend, rfl⟩ | ⟨-, ho⟩
    · match v, hend with
      | none, hend => cases hend
      | some (.ok state), hend =>
        obtain _ | _ | ⟨_, _, hend⟩ := hend
        cases hend
      | some (.error c), hend =>
        obtain _ | _ | ⟨_, _, hend⟩ := hend
        cases hend
    · cases ho

/-- A fetch finds the engine busy, or is not admitted, or asks the service. -/
theorem ran_fetch_admission {t : List (Deed A)} {o : Option (Except UpdateError FetchOutcome)}
    (h : Ran fetch t o) : (∃ w, t = [⟨w, .inProgress, true⟩] ∧ o = some (.error World.busy)) ∨
      ∃ w w' r u, t = ⟨w, .inProgress, false⟩ :: ⟨w', .admission, r⟩ :: u ∧
        ∀ e, r = .error e → u = [] ∧ o = some (.error e) := by
  obtain _ | _ | ⟨w, busy, h⟩ := h
  cases busy with
  | true =>
    cases h
    exact .inl ⟨w, rfl, rfl⟩
  | false =>
    obtain _ | _ | ⟨w', r, h⟩ := h
    refine .inr ⟨w, w', r, _, rfl, ?_⟩
    rintro e rfl
    cases h
    exact ⟨rfl, rfl⟩

end Activity

/-- The fetch did nothing but look at the engine, and was told that it is busy or not enabled. -/
inductive TurnedAway : List (Deed A) → Option (Except UpdateError FetchOutcome) → Prop
  | busy (w : World A) : TurnedAway [⟨w, .inProgress, true⟩] (some (.error World.busy))
  | unenabled (w w' : World A) :
      TurnedAway [⟨w, .inProgress, false⟩, ⟨w', .admission, .error .notEnabled⟩] (some (.error .notEnabled))

namespace Ticking

variable (d : Device) (version : String) (steps : List (Step A))

theorem polled_run : ((start A d version).run steps).boot.world.Polled := by
  have hrun := run_turns (P := fun w _ => w.Timed ∧ w.Polled) (r := start A d version) ?_ ?_ ?_ steps
  · exact hrun.2
  · exact fun ht h => ⟨(ht.net h.1).1, ht.polled h.1 h.2⟩
  · exact fun hs h => ⟨hs.keepsNet.timed h.1, hs.polled h.2⟩
  · exact ⟨World.timed_boot d version, World.polled_boot d version⟩

theorem replied {i : Nat} {x : Deed A} (hx : x ∈ deedsBy i ((start A d version).run steps).boot.history) :
    ∃ s, x.reply = (x.found.undergo s x.request).1 := by
  obtain ⟨later, earlier, h⟩ := List.append_of_mem (mem_deedsBy.mp hx)
  have hgenuine := (recorded_run d version steps).genuine
  rw [h] at hgenuine
  exact hgenuine.split.2

/-- Whatever happens, the armed periodic timers are those that the configuration in force asks for. An
enabling that fails leaves the world as it is. A fetch that finds the engine disabled is turned away. -/
theorem autofetch_timer : ((start A d version).run steps).boot.world.device.timers.polling =
      ((start A d version).run steps).boot.world.duePolling ∧
    (∀ i t config handler test e, Ran (Activity.enable config handler test) t (some (.error e)) →
      t <:+: (deedsBy i ((start A d version).run steps).boot.history).reverse →
      ∃ w, t = [⟨w, .install config handler, .error e⟩] ∧ w.install config handler = (.error e, w) ∧
        (e = .alreadyEnabled ∨ (∃ text, e = .invalidConfig text) ∨ ∃ c, e = .timer c)) ∧
    (∀ i t o, Ran Activity.fetch t o →
      t <:+: (deedsBy i ((start A d version).run steps).boot.history).reverse →
      (∀ x ∈ t, x.request = .admission → x.found.engine.enabled = none) → TurnedAway t o) := by
  have hreplied {i : Nat} {t : List (Deed A)} {x : Deed A} (hx : x ∈ t)
      (ht : t <:+: (deedsBy i ((start A d version).run steps).boot.history).reverse) :
      ∃ s, x.reply = (x.found.undergo s x.request).1 :=
    replied d version steps (List.mem_reverse.mp (ht.subset hx))
  refine ⟨(polled_run d version steps).polling, ?_, ?_⟩
  · intro i t config handler test e hran ht
    obtain ⟨w, rfl⟩ := Activity.ran_enable_error hran
    obtain ⟨s, hr⟩ := hreplied List.mem_cons_self ht
    have hr : .error e = (w.install config handler).1 := hr
    have hi := w.installing config handler
    refine ⟨w, rfl, ?_⟩
    generalize w.install config handler = p at hr hi
    obtain ⟨r, w'⟩ := p
    cases hr
    cases hi with
    | refused h => exact ⟨rfl, h⟩
  · intro i t o hran ht hoff
    rcases Activity.ran_fetch_admission hran with ⟨w, rfl, rfl⟩ | ⟨w, w', r, u, rfl, hend⟩
    · exact .busy w
    · obtain ⟨s, hr⟩ := hreplied (List.mem_cons_of_mem _ List.mem_cons_self) ht
      have hnone : w'.engine.enabled = none :=
        hoff ⟨w', .admission, r⟩ (List.mem_cons_of_mem _ List.mem_cons_self) rfl
      have hr : r = .error .notEnabled := by
        refine hr.trans ?_
        change w'.admission = _
        rw [World.admission, hnone]
      obtain ⟨rfl, rfl⟩ := hend _ hr
      subst hr
      exact .unenabled w w'

open Boot

def enablingTwice : List (Move Agent.application) :=
  enabling ++ .call (.enable Config.default none none) :: [.go 1 obliging]

def disabling : List (Move Agent.application) := enabling ++ [.call .disable, .go 1 obliging]

def fetchingLate : List (Move Agent.application) :=
  disabling ++ .call .fetch :: List.replicate 2 (.go 2 obliging)

theorem autofetch_timer_daily :
    ((start Agent.application (.fresh .valid) "1.0.0").run (enabling.map .move)).boot.world.device.timers.polling =
      [⟨.periodic, 86400000, .armed⟩] ∧
    (∃ w e, w.install Config.default none = (.error e, w) ∧
      [(⟨w, .install Config.default none, .error e⟩ : Deed Agent.application)] <:+: (deedsBy 1
        ((start Agent.application (.fresh .valid) "1.0.0").run (enablingTwice.map .move)).boot.history).reverse) ∧
    (∃ t o, Ran Activity.fetch t o ∧ TurnedAway t o ∧ t <:+: (deedsBy 2
      ((start Agent.application (.fresh .valid) "1.0.0").run (fetchingLate.map .move)).boot.history).reverse) := by
  refine ⟨?_, ?_, ?_⟩
  · refine (autofetch_timer (.fresh .valid) "1.0.0" (enabling.map .move)).1.trans ?_
    decide +kernel
  · have htasks : ((Boot.start Agent.application (.fresh .valid) "1.0.0").run enabling).tasks.length = 1 := by
      decide +kernel
    have hfailed : (Routine.run (undergoing obliging) (Activity.enable Config.default none none)
        ((Boot.start Agent.application (.fresh .valid) "1.0.0").run enabling).world).1.any (!·.toBool) = true := by
      decide +kernel
    have hran := ran_trace (undergoing obliging) (Activity.enable Config.default none none)
      ((Boot.start Agent.application (.fresh .valid) "1.0.0").run enabling).world
    have hinfix := infix_call (c := .enable Config.default none none) rfl
      ((Boot.start Agent.application (.fresh .valid) "1.0.0").run enabling) obliging (n := 1) (by decide +kernel) []
    rw [htasks, ← Boot.run_append, List.append_nil] at hinfix
    obtain ⟨r, hrun, hfailed⟩ := Option.any_eq_true _ _ |>.mp hfailed
    rw [hrun] at hran
    cases r with
    | ok => cases hfailed
    | error e =>
      obtain ⟨w, ht, hw, -⟩ := (autofetch_timer (.fresh .valid) "1.0.0" (enablingTwice.map .move)).2.1 1 _ _ _ _ _
        hran (by rw [boot_moves]; exact hinfix)
      refine ⟨w, e, hw, ?_⟩
      rw [← ht, boot_moves]
      exact hinfix
  · have htasks : ((Boot.start Agent.application (.fresh .valid) "1.0.0").run disabling).tasks.length = 2 := by
      decide +kernel
    have hoff : (Activity.fetch.trace (undergoing obliging) ((Boot.start Agent.application (.fresh .valid)
        "1.0.0").run disabling).world).all (·.found.engine.enabled.isNone) = true := by decide +kernel
    have hran := ran_trace (undergoing obliging) Activity.fetch
      ((Boot.start Agent.application (.fresh .valid) "1.0.0").run disabling).world
    have hinfix := infix_fetch ((Boot.start Agent.application (.fresh .valid) "1.0.0").run disabling) obliging
      (n := 2) (by decide +kernel) []
    rw [htasks, ← Boot.run_append, List.append_nil] at hinfix
    have hinfix := (start Agent.application (.fresh .valid) "1.0.0").boot_moves fetchingLate ▸ hinfix
    refine ⟨_, _, hran, ?_, hinfix⟩
    refine (autofetch_timer (.fresh .valid) "1.0.0" (fetchingLate.map .move)).2.2 2 _ _ hran hinfix ?_
    exact fun x hx _ => Option.isNone_iff_eq_none.mp (List.all_eq_true.mp hoff x hx)

end Ticking

end FirmwareUpdate
