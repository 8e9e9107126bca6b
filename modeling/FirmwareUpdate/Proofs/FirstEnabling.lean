import FirmwareUpdate.Proofs.Leftovers

/-!
# Verdicts before the first enabling

The application may judge the running image before it enables the engine. Whether the first enabling
validates the boot depends on that alone: it does unless the image has been marked valid, or told to be
invalid, before. Then nothing is tested, confirmed or reported, in this boot or later in it.
-/

namespace FirmwareUpdate

open Routine

variable {A : Application}

/-! ## A verdict -/

def Happening.judges (x : Happening A) : Bool := x.marks || x.condemns

theorem Happening.judges_of_not_judges {task : Nat} {w : World A} {e : Effect A} {r : e.Reply} (h : ¬ e.Judges) :
    (did task ⟨w, e, r⟩).judges = false := by
  cases e <;> first | rfl | exact absurd trivial h

namespace World

/-- Nobody has enabled the engine. Its validation is unstarted if, and only if, nobody has judged the image. -/
structure Dormant (d : Device) (w : World A) (history : List (Happening A)) : Prop where
  unenabled : w.engine.enabled = none
  unconfirmed : w.engine.validation.confirmation = none
  untried : w.engine.validation.state ≠ .validating
  onRecord : w.nextBoot.jobId = d.nextBoot.jobId
  unjudged : (∀ x ∈ history, x.judges = false) → w.engine.validation.state = .init ∧
    w.engine.validation.confirmCancelled = false ∧ w.device.slots.running = d.slots.running
  judged : (∃ x ∈ history, x.judges = true) → w.engine.validation.state ≠ .init

namespace Dormant

variable {d : Device} {w : World A} {history : List (Happening A)}

/-- What judges nothing leaves the verdict as it is. -/
theorem aside (h : w.Dormant d history) {w' : World A} {x : Happening A} (hx : x.judges = false)
    (he : w'.engine.enabled = none) (hc : w'.engine.validation.confirmation = none)
    (hs : w'.engine.validation.state = w.engine.validation.state)
    (hu : w'.engine.validation.confirmCancelled = w.engine.validation.confirmCancelled)
    (hr : w'.device.slots.running = w.device.slots.running) (hn : w'.nextBoot.jobId = w.nextBoot.jobId) :
    w'.Dormant d (x :: history) where
  unenabled := he
  unconfirmed := hc
  untried := hs ▸ h.untried
  onRecord := hn.trans h.onRecord
  unjudged := by
    intro hnone
    obtain ⟨hstate, hcancelled, hrunning⟩ := h.unjudged fun y hy => hnone y (List.mem_cons_of_mem _ hy)
    exact ⟨hs.trans hstate, hu.trans hcancelled, hr.trans hrunning⟩
  judged := by
    rintro ⟨y, hy, hjudges⟩
    rw [hs]
    rcases List.mem_cons.mp hy with rfl | hy
    · rw [hx] at hjudges
      cases hjudges
    · exact h.judged ⟨y, hy, hjudges⟩

theorem undergo (h : w.Dormant d history) (s : Saying) {e : Effect A} (he : ¬ e.Stirs)
    (hr : Refuses e (w.undergo s e).1) (task : Nat) :
    (w.undergo s e).2.Dormant d (.did task ⟨w, e, (w.undergo s e).1⟩ :: history) := by
  have hj : ¬ e.Judges := by
    cases e <;> first | exact he | exact id
  have hu := w.untouched_undergo s hj
  apply h.aside (Happening.judges_of_not_judges hj) (unenabled_undergo h.unenabled s hr) ?_ hu.state hu.cancelled
    hu.running
  · rw [w.nextBoot_undergo]
    cases e <;> first | rfl | exact absurd trivial he
  · apply w.unconfirmed_undergo s h.unconfirmed
    rintro interval rfl
    exact he trivial

/-- A call that the bootloader refuses leaves the image unjudged. -/
theorem markValid (h : w.Dormant d history) (task : Nat) (r : Except UpdateError Unit) :
    w.markValid.2.Dormant d (.did task ⟨w, .markValid, r⟩ :: history) := by
  have hstep := w.trialStep_markValid
  have hv := w.validation_markValid
  have hslots := w.slots_markValid
  have hrunning := w.device.running_markValid
  have hrecord := congrArg NextBoot.jobId hstep.toInward.nextBoot
  have hcalled : (Happening.did task ⟨w, .markValid, r⟩).call = some w.device.markValid.1 := rfl
  cases hcall : w.device.markValid.1 with
  | error c =>
    rw [hcall] at hv hcalled hrunning
    have hx : (Happening.did task ⟨w, .markValid, r⟩).judges = false := by
      simp [Happening.judges, Happening.marks, Happening.condemns, Happening.succeeds, hcalled]
    refine h.aside hx (hstep.enabled.trans h.unenabled) ?_ ?_ ?_ ?_ hrecord
    · rw [hv]
      exact h.unconfirmed
    · rw [hv]
    · rw [hv]
    · rw [hslots, hrunning]
  | ok =>
    rw [hcall] at hv hcalled
    have hx : (Happening.did task ⟨w, .markValid, r⟩).judges = true := by
      simp [Happening.judges, Happening.marks, Happening.succeeds, hcalled]
    have hstate : w.markValid.2.engine.validation.state ≠ .init ∧
        w.markValid.2.engine.validation.state ≠ .validating := by
      rw [hv]
      by_cases hn : w.engine.validation.state = .notOtaBoot <;> simp [hn]
    refine ⟨hstep.enabled.trans h.unenabled, ?_, hstate.2, hrecord.trans h.onRecord, fun hnone => ?_,
      fun _ => hstate.1⟩
    · rw [hv]
      exact h.unconfirmed
    · rw [hnone _ List.mem_cons_self] at hx
      cases hx

/-- A condemned image is judged, whatever the bootloader makes of it. -/
theorem markInvalid (h : w.Dormant d history) (task : Nat) (r : Except UpdateError Unit) :
    w.markInvalid.2.Dormant d (.did task ⟨w, .markInvalid, r⟩ :: history) := by
  have hstep := w.trialStep_markInvalid
  have hv := w.validation_markInvalid
  have hx : (Happening.did task ⟨w, .markInvalid, r⟩).judges = true := rfl
  have hstate : w.markInvalid.2.engine.validation.state = .invalid := by rw [hv]
  refine ⟨hstep.enabled.trans h.unenabled, ?_, by simp [hstate],
    (congrArg NextBoot.jobId hstep.toInward.nextBoot).trans h.onRecord, fun hnone => ?_, by simp [hstate]⟩
  · rw [hv]
    exact h.unconfirmed
  · rw [hnone _ List.mem_cons_self] at hx
    cases hx

end Dormant

end World

/-! ## Up to the first enabling -/

def Activity.Dozes (p : Activity A Unit) : Prop :=
  p.Idles ∨ p = Call.markValid.activity ∨ p = Call.markInvalid.activity

theorem Activity.dozes_call (c : Call A) : Dozes c.activity := by
  by_cases hv : c = .markValid
  · exact .inr (.inl (congrArg _ hv))
  · by_cases hi : c = .markInvalid
    · exact .inr (.inr (congrArg _ hi))
    · exact .inl (Activity.idles_call hv hi)

namespace Boot

variable {d : Device} {b : Boot A}

theorem dormant_step (h : b.Calling (World.Dormant d) Activity.Dozes) (ht : b.world.Timed) {m : Move A}
    (hs : ∀ x ∈ (b.step m).history, x.enables = false) : (b.step m).Calling (World.Dormant d) Activity.Dozes := by
  have hw := h.holds
  apply Calling.step h hw.unconfirmed
  · exact fun c _ => Activity.dozes_call c
  · intro task s e next hdozes hstep
    rw [hstep] at hs ⊢
    rcases hdozes with hidles | hmark | hmark
    · have hrefused := World.refuses_of_unenabled hw.unenabled s (hs _ List.mem_cons_self)
      exact ⟨hw.undergo s hidles.1 hrefused task, .inl (hidles.2 _ hrefused)⟩
    · cases hmark
      exact ⟨hw.markValid task _, .inl trivial⟩
    · cases hmark
      exact ⟨hw.markInvalid task _, .inl trivial⟩
  · -- no timer is armed before an image is on trial
    intro id hf
    exact absurd (ht.onTrial id hf).1 hw.untried
  · intro s
    exact ⟨hw.unenabled, hw.unconfirmed, hw.untried, hw.onRecord, hw.unjudged, hw.judged⟩

/-- What the first enabling finds. -/
theorem dormant_run (d : Device) (version : String) (ms : List (Move A))
    (hn : ∀ x ∈ ((start A d version).run ms).history, x.enables = false) :
    ((start A d version).run ms).world.Dormant d ((start A d version).run ms).history := by
  have hrun : ((start A d version).run ms).Calling (World.Dormant d) Activity.Dozes := by
    refine unenabled_induction ⟨?_, fun _ h => nomatch h⟩ (fun b m _ ht h hs => dormant_step h ht hs) hn
    exact ⟨rfl, rfl, nofun, rfl, fun _ => ⟨rfl, rfl, rfl⟩, fun ⟨_, hx, _⟩ => nomatch hx⟩
  exact hrun.holds

end Boot

/-! ## Enabling a judged image -/

/-- Once the validation has left its first state, to enable the engine is to install a configuration. -/
theorem Activity.does_enable_started {w : World A} (h : w.engine.validation.state ≠ .init) {config : Config}
    {handler : Option A.Handler} (hi : (w.install config handler).1 = .ok ()) (test : Option A.SelfTest)
    (s : Saying) : Does (Boot.undergoing s) (enable config handler test) w
      [⟨w, .install config handler, .ok ()⟩,
        ⟨(w.install config handler).2, .beginValidation config.rollbackTimeoutSecs.toNat, none⟩]
      (some (.ok ())) (w.install config handler).2 := by
  have hu : World.Untouched w (w.install config handler).2 := (w.reconfigured_install config handler).untouched
  have hinstall : Does (Boot.undergoing s) (perform (.install config handler)) w
    [⟨w, .install config handler, .ok ()⟩] (some (.ok ())) (w.install config handler).2 :=
    .replied (Prod.ext hi rfl)
  generalize (w.install config handler).2 = w₁ at hu hinstall ⊢
  have hbegin : Does (Boot.undergoing s) (perform (.beginValidation config.rollbackTimeoutSecs.toNat)) w₁
    [⟨w₁, .beginValidation config.rollbackTimeoutSecs.toNat, none⟩] (some none) w₁ :=
    .replied (World.beginValidation_started (hu.state ▸ h) _)
  have hvalidate : Does (Boot.undergoing s) (validate test config) w₁ _ (some none) w₁ :=
    hbegin.bind (.done _ w₁)
  exact hinstall.bind (hvalidate.bind (.done _ w₁))

/-! ## Enabling on the first boot of an image -/

/-- What the first boot of a new image needs to find the job it was fetched for. -/
structure World.Awaiting (w : World A) (id : String) : Prop where
  unstarted : w.engine.validation.state = .init
  uncancelled : w.engine.validation.confirmCancelled = false
  running : w.device.slots.running = .pendingVerify
  legible : w.device.faults.runningState = false
  readable : w.device.store.failReads = false
  onRecord : w.nextBoot.jobId = some (Bytes.ofText id)
  named : id ≠ ""

theorem World.Awaiting.install {w : World A} {id : String} (h : w.Awaiting id) (config : Config)
    (handler : Option A.Handler) : (w.install config handler).2.Awaiting id := by
  have hu : World.Untouched w (w.install config handler).2 := (w.reconfigured_install config handler).untouched
  have hi := w.inward_install config handler
  exact {
    unstarted := hu.state.trans h.unstarted
    uncancelled := hu.cancelled.trans h.uncancelled
    running := hu.running.trans h.running
    legible := hi.faults ▸ h.legible
    readable := hi.store ▸ h.readable
    onRecord := hi.nextBoot ▸ h.onRecord
    named := h.named }

structure World.Confirmable (w : World A) (id : String) : Prop where
  uncancelled : w.engine.validation.confirmCancelled = false
  loaded : w.device.store.loadJobId = .ok (some id)

theorem World.Awaiting.beginValidation {w : World A} {id : String} (h : w.Awaiting id) (seconds : Nat) :
    (w.beginValidation seconds).1 = some (.ok .trial) ∧ (w.beginValidation seconds).2.Confirmable id := by
  have hstep := w.trialStep_beginValidation seconds
  refine ⟨?_, ?_, ?_⟩
  · simp [World.beginValidation, h.unstarted, Device.runningState, h.legible, h.running]
  · exact (w.confirmation_beginValidation seconds).1.trans h.uncancelled
  · rw [hstep.store]
    exact Store.loadJobId_of_raw h.readable h.onRecord h.named

namespace Activity

variable {w : World A} {id : String}

/-- The confirmation is started for the job whose id is read, and the id stays where it is. -/
theorem does_confirmTrial (s : Saying) (interval : Nat) (h : w.Confirmable id) :
    ∃ t r, Does (Boot.undergoing s) (confirmTrial interval : Activity A _) w t (some r)
      (w.withConfirmation (some ⟨interval, 0, .poised⟩)) := by
  have hread : Does (Boot.undergoing s) (perform .loadJobId) w [⟨w, .loadJobId, .ok (some id)⟩]
    (some (.ok (some id))) w := .replied (Prod.ext h.loaded rfl)
  obtain ⟨t, r, hstart⟩ := does_startConfirmation s interval h.uncancelled
  exact ⟨_, r, hread.bind hstart⟩

/-- Enabled on the first boot of a new image that passes its test, the engine starts the confirmation for the
job on record. -/
theorem does_enable_awaiting (h : w.Awaiting id) {config : Config} {handler : Option A.Handler}
    (hi : (w.install config handler).1 = .ok ()) {s : Saying} {test : Option A.SelfTest}
    (ht : test = none ∨ s.diagnosis = .passed) :
    ∃ t w', Does (Boot.undergoing s) (enable config handler test) w t (some (.ok ())) w' ∧
      w'.engine.validation.confirmation = some ⟨config.confirmRetryIntervalMs.toNat, 0, .poised⟩ ∧
      w'.nextBoot.jobId = w.nextBoot.jobId := by
  have hinstalled := h.install config handler
  obtain ⟨htrial, hbegun⟩ := hinstalled.beginValidation config.rollbackTimeoutSecs.toNat
  have hkept := ((w.install config handler).2.trialStep_beginValidation
    config.rollbackTimeoutSecs.toNat).toInward.nextBoot
  obtain ⟨w₁, hw₁, henable⟩ := does_enable_passing s hi htrial ht
  -- passing a test is only noted
  have hpassed : w₁.Confirmable id ∧ w₁.nextBoot.jobId = w.nextBoot.jobId := by
    have hrecord := (congrArg NextBoot.jobId hkept).trans (hinstalled.onRecord.trans h.onRecord.symm)
    rcases hw₁ with rfl | rfl
    · exact ⟨hbegun, hrecord⟩
    · exact ⟨⟨hbegun.uncancelled, hbegun.loaded⟩, hrecord⟩
  obtain ⟨hconfirmable, hrecord⟩ := hpassed
  obtain ⟨t, r, hdoes⟩ := does_confirmTrial s config.confirmRetryIntervalMs.toNat hconfirmable
  obtain ⟨t', e, hdoes'⟩ := henable hdoes
  exact ⟨t', _, hdoes', rfl, hrecord⟩

/-- It is tested whatever the test comes to. -/
theorem diagnose_mem_enable (h : w.Awaiting id) {config : Config} {handler : Option A.Handler}
    (hi : (w.install config handler).1 = .ok ()) (s : Saying) (test : A.SelfTest) :
    ∃ w₁, ⟨w₁, .diagnose test, s.diagnosis⟩ ∈ (enable config handler (some test)).trace (Boot.undergoing s) w := by
  have hinstalled := h.install config handler
  have hinstall : Boot.undergoing s (.install config handler) w = (.ok (), (w.install config handler).2) :=
    Prod.ext hi rfl
  generalize (w.install config handler).2 = w₁ at hinstalled hinstall
  have hbegin : Boot.undergoing s (.beginValidation config.rollbackTimeoutSecs.toNat) w₁ =
      (some (.ok .trial), (w₁.beginValidation config.rollbackTimeoutSecs.toNat).2) :=
    Prod.ext (hinstalled.beginValidation _).1 rfl
  generalize (w₁.beginValidation config.rollbackTimeoutSecs.toNat).2 = w₂ at hbegin
  have hmem {α β : Type} {p : Activity A α} {f : α → Activity A β} {w : World A} {d : Deed A}
      (hd : d ∈ p.trace (Boot.undergoing s) w) : d ∈ (p >>= f).trace (Boot.undergoing s) w := by
    rw [trace_bind]
    exact List.mem_append_left _ hd
  have htested : ⟨w₂, .diagnose test, s.diagnosis⟩ ∈
      (testTrial (some test) config.confirmRetryIntervalMs.toNat).trace (Boot.undergoing s) w₂ :=
    List.mem_cons_self
  have hvalidated : ⟨w₂, .diagnose test, s.diagnosis⟩ ∈
      (validate (some test) config).trace (Boot.undergoing s) w₁ := by
    unfold validate perform
    rw [request_bind, Routine.trace, hbegin]
    exact List.mem_cons_of_mem _ (hmem htested)
  refine ⟨w₂, ?_⟩
  unfold enable perform
  rw [request_bind, Routine.trace, hinstall]
  exact List.mem_cons_of_mem _ (hmem hvalidated)

end Activity

namespace Boot

/-- The first enabling validates the boot unless the running image has been judged before. On a valid slot it
reports the job that was left over and forgets it; on the first boot of a new image it has the image tested
and, if it passes, starts the confirmation for the job on record. On an image that has been judged it
installs the configuration and does nothing else, whatever slot it is. -/
theorem first_enable_validates_unless_judged {d : Device} {version : String} {ms : List (Move A)}
    (hn : ∀ x ∈ ((start A d version).run ms).history, x.enables = false)
    {id : String} (hne : id ≠ "") (hid : d.nextBoot.jobId = some (Bytes.ofText id))
    (hs : ((start A d version).run ms).world.device.faults.runningState = false)
    (hr : ((start A d version).run ms).world.device.store.failReads = false)
    {config : Config} {handler : Option A.Handler}
    (hi : (((start A d version).run ms).world.install config handler).1 = .ok ())
    (test : Option A.SelfTest) (s : Saying) {turns : Nat}
    (ht : ((Activity.enable config handler test).trace (undergoing s)
      ((start A d version).run ms).world).length ≤ turns) :
    let b := (start A d version).run ms
    let b' := b.enable config handler test s turns
    ((∀ x ∈ b.history, x.judges = false) →
      (d.slots.running = .valid →
        b'.world.device.network.posts =
          b.world.device.network.posts ++ [⟨Report.path, Report.body id .rejected rollbackInfo⟩] ∧
        (b'.world.nextBoot.jobId = none ↔ b.world.device.faults.erase = false)) ∧
      (d.slots.running = .pendingVerify →
        (∀ test', test = some test' →
          ∃ w, .did b.tasks.length ⟨w, .diagnose test', s.diagnosis⟩ ∈ b'.history) ∧
        (test = none ∨ s.diagnosis = .passed →
          b'.world.engine.validation.confirmation = some ⟨config.confirmRetryIntervalMs.toNat, 0, .poised⟩ ∧
          b'.world.nextBoot.jobId = some (Bytes.ofText id)))) ∧
    ((∃ x ∈ b.history, x.judges = true) →
      b'.history = .did b.tasks.length ⟨b'.world, .beginValidation config.rollbackTimeoutSecs.toNat, none⟩ ::
        .did b.tasks.length ⟨b.world, .install config handler, .ok ()⟩ :: b.history ∧
      b'.world.device.network.posts = b.world.device.network.posts ∧
      b'.world.nextBoot.jobId = some (Bytes.ofText id) ∧
      b'.world.engine.validation.confirmation = none) := by
  intro b b'
  have hdormant : b.world.Dormant d b.history := dormant_run d version ms hn
  have hrecord : b.world.nextBoot.jobId = some (Bytes.ofText id) := hdormant.onRecord.trans hid
  refine ⟨fun hnone => ⟨fun hd => ?_, fun hd => ?_⟩, fun hjudged => ?_⟩
  · obtain ⟨hstate, -, hrunning⟩ := hdormant.unjudged hnone
    exact enable_leftover ⟨hstate, hrunning.trans hd, hs, hr, hrecord, hne⟩ hi test s ht
  · obtain ⟨hstate, hcancelled, hrunning⟩ := hdormant.unjudged hnone
    have hawaiting : b.world.Awaiting id := ⟨hstate, hcancelled, hrunning.trans hd, hs, hr, hrecord, hne⟩
    constructor
    · rintro test' rfl
      obtain ⟨w, hmem⟩ := Activity.diagnose_mem_enable hawaiting hi s test'
      have hb' : b'.history = _ := congrArg Boot.history (enable_eq (Routine.does _ _) ht)
      refine ⟨w, ?_⟩
      rw [hb']
      exact List.mem_append_left _ (List.mem_reverse.mpr (List.mem_map_of_mem hmem))
    · intro hpassed
      obtain ⟨t, w', hdoes, hstarted, hkept⟩ := Activity.does_enable_awaiting hawaiting hi hpassed
      have hb' : b'.world = w' := congrArg Boot.world (enable_eq hdoes (hdoes.trace_eq ▸ ht))
      rw [hb']
      exact ⟨hstarted, hkept.trans hrecord⟩
  · have hdoes := Activity.does_enable_started (hdormant.judged hjudged) hi test s
    have hb' : b' = _ := enable_eq hdoes (hdoes.trace_eq ▸ ht)
    have hinward := b.world.inward_install config handler
    have hconfigured := b.world.reconfigured_install config handler
    rw [hb']
    refine ⟨rfl, ?_, ?_, ?_⟩
    · exact congrArg Network.posts hinward.network
    · exact (congrArg NextBoot.jobId hinward.nextBoot).trans hrecord
    · exact (congrArg Validation.confirmation hconfigured.validation).trans hdormant.unconfirmed

def marked (d : Device) : Boot Agent.application :=
  (start Agent.application d "1.0.0").run [.call .markValid, .go 0 obliging]

theorem first_enable_validates_unless_judged_marked :
    leftoverDevice.slots.running = .valid ∧ trialDevice.slots.running = .pendingVerify ∧ "A" ≠ "" ∧
    (∀ d ∈ [leftoverDevice, trialDevice], d.nextBoot.jobId = some (Bytes.ofText "A") ∧
      (∀ x ∈ (refused d).history, x.enables = false ∧ x.judges = false) ∧
      (∀ x ∈ (marked d).history, x.enables = false) ∧ (∃ x ∈ (marked d).history, x.judges = true) ∧
      (∀ b ∈ [refused d, marked d], b.world.device.faults = .none ∧ b.world.device.store.failReads = false ∧
        (b.world.install Config.default none).1 = .ok ())) ∧
    ((refused leftoverDevice).enable Config.default none (some ()) obliging 12).world.device.network.posts =
      (refused leftoverDevice).world.device.network.posts ++
        [⟨Report.path, Report.body "A" .rejected rollbackInfo⟩] ∧
    ((refused leftoverDevice).enable Config.default none (some ()) obliging 12).world.nextBoot.jobId = none ∧
    (∃ w, .did (refused trialDevice).tasks.length ⟨w, .diagnose (), .passed⟩ ∈
      ((refused trialDevice).enable Config.default none (some ()) obliging 12).history) ∧
    ((refused trialDevice).enable Config.default none (some ()) obliging 12).world.engine.validation.confirmation =
      some ⟨Config.default.confirmRetryIntervalMs.toNat, 0, .poised⟩ ∧
    ((refused trialDevice).enable Config.default none (some ()) obliging 12).world.nextBoot.jobId =
      some (Bytes.ofText "A") ∧
    ∀ d ∈ [leftoverDevice, trialDevice],
      ((marked d).enable Config.default none (some ()) obliging 12).world.device.network.posts =
        (marked d).world.device.network.posts ∧
      ((marked d).enable Config.default none (some ()) obliging 12).world.nextBoot.jobId =
        some (Bytes.ofText "A") ∧
      ((marked d).enable Config.default none (some ()) obliging 12).world.engine.validation.confirmation = none := by
  have hfound : ∀ d ∈ [leftoverDevice, trialDevice], d.nextBoot.jobId = some (Bytes.ofText "A") ∧
      (∀ x ∈ (refused d).history, x.enables = false ∧ x.judges = false) ∧
      (∀ x ∈ (marked d).history, x.enables = false) ∧ (∃ x ∈ (marked d).history, x.judges = true) ∧
      (∀ b ∈ [refused d, marked d], b.world.device.faults = .none ∧ b.world.device.store.failReads = false ∧
        (b.world.install Config.default none).1.toBool = true ∧
        ((Activity.enable Config.default none (some ())).trace (undergoing obliging) b.world).length ≤ 12) := by
    decide +kernel
  have hready (d : Device) (hd : d ∈ [leftoverDevice, trialDevice]) (b : Boot Agent.application)
      (hb : b ∈ [refused d, marked d]) : b.world.device.faults = .none ∧ b.world.device.store.failReads = false ∧
        (b.world.install Config.default none).1 = .ok () := by
    obtain ⟨hfaults, hreads, hinstall, -⟩ := (hfound d hd).2.2.2.2 b hb
    exact ⟨hfaults, hreads, Except.eq_ok_of_toBool hinstall⟩
  have hrefused (d : Device) (hd : d ∈ [leftoverDevice, trialDevice]) := by
    have hmem : refused d ∈ [refused d, marked d] := List.mem_cons_self
    obtain ⟨hid, hunjudged, -, -, hboots⟩ := hfound d hd
    obtain ⟨hfaults, hreads, hinstall⟩ := hready d hd _ hmem
    have hn : ∀ x ∈ (refused d).history, x.enables = false := fun x hx => (hunjudged x hx).1
    exact (first_enable_validates_unless_judged hn (by decide) hid (congrArg Faults.runningState hfaults) hreads
      hinstall (some ()) obliging (hboots _ hmem).2.2.2).1 fun x hx => (hunjudged x hx).2
  have hmarked (d : Device) (hd : d ∈ [leftoverDevice, trialDevice]) := by
    have hmem : marked d ∈ [refused d, marked d] := List.mem_cons_of_mem _ List.mem_cons_self
    obtain ⟨hid, -, hn, hjudged, hboots⟩ := hfound d hd
    obtain ⟨hfaults, hreads, hinstall⟩ := hready d hd _ hmem
    exact (first_enable_validates_unless_judged hn (by decide) hid (congrArg Faults.runningState hfaults) hreads
      hinstall (some ()) obliging (hboots _ hmem).2.2.2).2 hjudged
  obtain ⟨hposts, hforgotten⟩ := (hrefused leftoverDevice (by simp)).1 rfl
  obtain ⟨htested, hstarted⟩ := (hrefused trialDevice (by simp)).2 rfl
  obtain ⟨hconfirmation, hkept⟩ := hstarted (.inr rfl)
  refine ⟨rfl, rfl, by decide, fun d hd => ?_, hposts, hforgotten.mpr ?_, ?_, hconfirmation, hkept, fun d hd => ?_⟩
  · obtain ⟨hid, hrefused, hn, hjudged, -⟩ := hfound d hd
    exact ⟨hid, hrefused, hn, hjudged, hready d hd⟩
  · exact congrArg Faults.erase (hready leftoverDevice (by simp) _ List.mem_cons_self).1
  · exact htested () rfl
  · unfold marked
    exact (hmarked d hd).2

/-- Marked valid before it is enabled, the engine neither reports what a valid slot has left over nor tests and
confirms a new image. -/
theorem first_enable_skips_validation :
    leftoverDevice.slots.running = .valid ∧ leftoverDevice.nextBoot.jobId = some (Bytes.ofText "A") ∧
    trialDevice.slots.running = .pendingVerify ∧ trialDevice.nextBoot.jobId = some (Bytes.ofText "A") ∧
    ∀ d ∈ [leftoverDevice, trialDevice], (marked d).world.device.slots.rollbackRequested = false ∧
      (∀ x ∈ (marked d).history, x.enables = false) ∧ (marked d).world.device.faults = .none ∧
      (marked d).world.device.store.failReads = false ∧
      ((marked d).enable Config.default none (some ()) obliging 12).world.engine.enabled.isSome = true ∧
      ((marked d).enable Config.default none (some ()) obliging 12).tasks.all (·.next?.isNone) = true ∧
      ((marked d).enable Config.default none (some ()) obliging 12).world.device.network.posts = [] ∧
      ((marked d).enable Config.default none (some ()) obliging 12).world.nextBoot.jobId =
        some (Bytes.ofText "A") ∧
      ((marked d).enable Config.default none (some ()) obliging 12).history.any (Happening.requests Effect.tests) =
        false ∧
      ((marked d).enable Config.default none (some ()) obliging 12).world.engine.validation.confirmation = none := by
  decide +kernel

end Boot

end FirmwareUpdate
