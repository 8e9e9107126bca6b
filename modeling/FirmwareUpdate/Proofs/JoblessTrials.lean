import FirmwareUpdate.Proofs.UpdateCycle

/-!
# Trials without a job

An image that was not fetched for a job has nothing to report. Whether it is accepted hangs on the first look
at the record alone. If that shows that there is no job, the image is marked valid at once. If the record
cannot be read then, the image waits for a report that is never made, whatever later looks show, until the
rollback timer ends its trial.
-/

namespace FirmwareUpdate

open Routine

variable {A : Application}

/-! ## No job on record -/

namespace Store

def Jobless (s : Store) : Prop := s.raw .jobId = none ∨ s.raw .jobId = some []

variable {s : Store}

theorem Jobless.loadJobId (h : s.Jobless) (hr : s.failReads = false) : s.loadJobId = .ok none := by
  unfold Store.loadJobId
  rw [read_raw _ hr]
  rcases h with h | h <;> rw [h] <;> rfl

/-- Whether it can be read or not, the record names no job. -/
theorem Jobless.loadJobId_ne (h : s.Jobless) (id : String) : s.loadJobId ≠ .ok (some id) := by
  cases hr : s.failReads with
  | true =>
    unfold Store.loadJobId
    rw [read_refused _ hr]
    nofun
  | false =>
    rw [h.loadJobId hr]
    nofun

end Store

namespace World

/-- The image is on trial without a job, and its rollback timer will go off. Since the trial began on the given
device nothing has been sent and no rollback asked for. -/
structure Waiting (d : Device) (timer : TimerId) (w : World A) : Prop where
  onTrial : w.OnTrial
  uncancelled : w.engine.validation.confirmCancelled = false
  held : w.engine.validation.rollbackTimer = some timer
  armed : w.device.timers.fuse timer = true
  running : w.device.slots.running = .pendingVerify
  jobless : w.device.store.Jobless
  posts : w.device.network.posts = d.network.posts
  rollbacks : w.device.slots.rollbackCalls = d.slots.rollbackCalls

structure Accepted (d : Device) (w : World A) : Prop where
  marked : w.MarkedValid
  unheld : w.engine.validation.rollbackTimer = none
  unconfirmed : w.engine.validation.confirmation = none
  posts : w.device.network.posts = d.network.posts
  rollbacks : w.device.slots.rollbackCalls = d.slots.rollbackCalls

section
variable {d : Device} {timer : TimerId} {w : World A}

theorem TrialBegun.waiting (h : w.TrialBegun d timer) (hj : d.store.Jobless) : w.Waiting d timer where
  onTrial := by simp [OnTrial, h.validation]
  uncancelled := by rw [h.validation]
  held := by rw [h.validation]
  armed := h.armed
  running := by rw [h.slots, h.pending]
  jobless := h.store ▸ hj
  posts := by rw [h.network]
  rollbacks := by rw [h.slots]

theorem Waiting.note (h : w.Waiting d timer) (e : Event) : (w.note e).Waiting d timer :=
  ⟨h.onTrial, h.uncancelled, h.held, h.armed, h.running, h.jobless, h.posts, h.rollbacks⟩

theorem Waiting.surround (h : w.Waiting d timer) (s : Surroundings) : (w.surround s).Waiting d timer :=
  ⟨h.onTrial, h.uncancelled, h.held, h.armed, h.running, h.jobless, h.posts, h.rollbacks⟩

theorem Waiting.withConfirmation (h : w.Waiting d timer) (c : Option Confirmation) :
    (w.withConfirmation c).Waiting d timer :=
  ⟨h.onTrial, h.uncancelled, h.held, h.armed, h.running, h.jobless, h.posts, h.rollbacks⟩

theorem Waiting.undecided (h : w.Waiting d timer) : w.Undecided := ⟨h.running, h.onTrial.2, .inr h.onTrial.1⟩

theorem Accepted.note (h : w.Accepted d) (e : Event) : (w.note e).Accepted d :=
  ⟨h.marked.of_untouched (untouched_note w e), h.unheld, h.unconfirmed, h.posts, h.rollbacks⟩

theorem Accepted.surround (h : w.Accepted d) (s : Surroundings) : (w.surround s).Accepted d :=
  ⟨⟨h.marked.running, h.marked.valid, h.marked.state⟩, h.unheld, h.unconfirmed, h.posts, h.rollbacks⟩

/-- What only forgets the job and tells of it leaves an accepted image accepted. -/
theorem Accepted.undergo (h : w.Accepted d) (s : Saying) {e : Effect A}
    (he : e = .eraseJobId ∨ ∃ n, e = .note n) : (w.undergo s e).2.Accepted d := by
  have hj : ¬ e.Judges := by rcases he with rfl | ⟨n, rfl⟩ <;> exact id
  have hu := w.untouched_undergo s hj
  refine ⟨h.marked.of_untouched hu, hu.rollbackTimer.trans h.unheld, ?_, ?_, hu.rollbackCalls.trans h.rollbacks⟩
  · rw [w.confirmation_undergo s, h.unconfirmed] <;> rcases he with rfl | ⟨n, rfl⟩ <;> nofun
  · rw [posts_undergo, h.posts]
    rcases he with rfl | ⟨n, rfl⟩ <;> simp [Effect.post?]

end

end World

open World

/-! ## Looking at the record -/

namespace Activity

variable {d : Device} {timer : TimerId} {w : World A}

/-- An attempt to report fails before anything is sent, whether the record can be read or not. -/
theorem does_confirmAttempt_jobless (attempt interval : Nat) (h : w.Waiting d timer) :
    ∃ t e, Does (Boot.undergoing Boot.obliging) (confirmAttempt attempt interval : Activity A _) w t
      (some .retry) (w.note e) ∧ t.length ≤ 8 := by
  have hread : Does (Boot.undergoing Boot.obliging) (perform .loadJobId) w
    [⟨w, .loadJobId, w.device.store.loadJobId⟩] (some w.device.store.loadJobId) w := .request _ w
  have hreport : ∃ e, Does (Boot.undergoing Boot.obliging) (reportPersisted .success confirmationInfo : Activity A _)
      w [⟨w, .loadJobId, w.device.store.loadJobId⟩] (some (.error e)) w := by
    have hunnamed := h.jobless.loadJobId_ne
    unfold reportPersisted
    generalize w.device.store.loadJobId = r at hread hunnamed
    match r with
    | .error c => exact ⟨_, hread.bind (.done _ _)⟩
    | .ok none => exact ⟨_, hread.bind (.done _ _)⟩
    | .ok (some id) => exact absurd rfl (hunnamed id)
  obtain ⟨e, hreport⟩ := hreport
  have hnoted := does_note Boot.obliging (.successReportFailed attempt e interval) w
  have hfailed : Does (Boot.undergoing Boot.obliging) (reportSuccess attempt interval : Activity A _) w _
    (some false) _ := hreport.bind (hnoted.bind (.done false _))
  have hasked : Does (Boot.undergoing Boot.obliging) (perform .confirmCancelled)
    (w.note (.successReportFailed attempt e interval)) [⟨_, .confirmCancelled, false⟩] (some false) _ :=
    .replied (Prod.ext h.uncancelled rfl)
  exact ⟨_, _, hfailed.bind (hasked.bind (.done Attempt.retry _)), by simp⟩

theorem accepted_concludeTrial (s : Saying) (h : w.Waiting d timer)
    (hc : w.engine.validation.confirmation = none) (hf : w.device.faults.markValid = false) :
    ∃ t w', Does (Boot.undergoing s) (concludeTrial : Activity A _) w t (some ()) w' ∧ w'.Accepted d := by
  have hi : w.engine.validation.state ≠ .invalid := by simp [h.onTrial.1]
  have hsettle : Does (Boot.undergoing s) (perform .settleTrial) w [⟨w, .settleTrial, true⟩] (some true)
    w.settleTrial.2 := .replied (Prod.ext (fst_settleTrial hi) rfl)
  have hsettled : w.settleTrial.2.Accepted d := by
    obtain ⟨hmarked, hrollbacks⟩ := h.undecided.settleTrial hf
    have hv := validation_settleTrial hi
    have hposts := congrArg Network.posts w.trialStep_settleTrial.toInward.network
    exact ⟨hmarked, by rw [hv], by rw [hv, hc], hposts.trans h.posts, hrollbacks.trans h.rollbacks⟩
  generalize w.settleTrial.2 = w₁ at hsettle hsettled
  obtain ⟨notes, w₂, hforget, -⟩ := does_forgetJobId s w₁
  have hforgotten : w₂.Accepted d := by
    have honly : (forgetJobId : Activity A _).Only fun e => e = .eraseJobId ∨ ∃ n, e = .note n :=
      only_forgetJobId (.inl rfl) fun n => .inr ⟨_, rfl⟩
    have hrequests := hforget.trace_eq ▸ (ran_trace _ forgetJobId w₁).only honly
    exact hforget.preserves hrequests (fun e w he hw => hw.undergo s he) hsettled
  exact ⟨_, _, hsettle.bind (hforget.bind (does_note s .validated w₂)), hforgotten.note _⟩

/-- Without a job the image is accepted if the record can be read, and if not it is left to a confirmation. -/
theorem does_confirmTrial_jobless (s : Saying) (interval : Nat) (h : w.Waiting d timer)
    (hc : w.engine.validation.confirmation = none) :
    (w.device.store.failReads = false → w.device.faults.markValid = false →
      ∃ t r w', Does (Boot.undergoing s) (confirmTrial interval : Activity A _) w t (some r) w' ∧
        w'.Accepted d) ∧
    (w.device.store.failReads = true →
      ∃ t r w', Does (Boot.undergoing s) (confirmTrial interval : Activity A _) w t (some r) w' ∧
        w'.Waiting d timer ∧ w'.engine.validation.confirmation = some ⟨interval, 0, .poised⟩) := by
  have hread : Does (Boot.undergoing s) (perform .loadJobId) w
    [⟨w, .loadJobId, w.device.store.loadJobId⟩] (some w.device.store.loadJobId) w := .request _ w
  constructor
  · intro hr hf
    rw [h.jobless.loadJobId hr] at hread
    obtain ⟨t, w₁, hconclude, haccepted⟩ := accepted_concludeTrial s (h.note .nothingToReport) hc hf
    have hasked : Does (Boot.undergoing s) (perform .validationState) w₁
      [⟨w₁, .validationState, w₁.engine.validation.state⟩] (some w₁.engine.validation.state) w₁ := .request _ w₁
    have hnoted := does_note s .nothingToReport w
    exact ⟨_, _, w₁, hread.bind (hnoted.bind (hconclude.bind (hasked.bind (.done _ _)))), haccepted⟩
  · intro hr
    have hrefused : ∃ c, w.device.store.loadJobId = .error c := by
      unfold Store.loadJobId
      rw [Store.read_refused _ hr]
      exact ⟨_, rfl⟩
    obtain ⟨c, hrefused⟩ := hrefused
    rw [hrefused] at hread
    have hnoted := h.note (.jobIdUnreadable c)
    obtain ⟨t, r, hstart⟩ := does_startConfirmation s interval hnoted.uncancelled
    exact ⟨_, r, _, hread.bind ((does_note s _ w).bind hstart), hnoted.withConfirmation _, rfl⟩

theorem does_enable_jobless (h : w.FirstBoot d) (hj : d.store.Jobless) {config : Config}
    {handler : Option A.Handler} (hi : (w.install config handler).1 = .ok ()) {s : Saying}
    {test : Option A.SelfTest} (ht : test = none ∨ s.diagnosis = .passed) :
    (d.store.failReads = false → d.faults.markValid = false →
      ∃ t w', Does (Boot.undergoing s) (enable config handler test) w t (some (.ok ())) w' ∧ w'.Accepted d) ∧
    (d.store.failReads = true →
      ∃ timer t w' interval, Does (Boot.undergoing s) (enable config handler test) w t (some (.ok ())) w' ∧
        w'.Waiting d timer ∧ w'.engine.validation.confirmation = some ⟨interval, 0, .poised⟩) := by
  obtain ⟨timer, w₁, hbegun, henable⟩ := does_enable_begun h hi ht
  obtain ⟨haccepted, hleft⟩ := does_confirmTrial_jobless s config.confirmRetryIntervalMs.toNat
    (hbegun.waiting hj) (by rw [hbegun.validation])
  rw [hbegun.store, hbegun.faults] at haccepted
  rw [hbegun.store] at hleft
  constructor
  · intro hr hf
    obtain ⟨t, r, w', hdoes, haccepted⟩ := haccepted hr hf
    obtain ⟨t', e, hdoes'⟩ := henable hdoes
    exact ⟨t', _, hdoes', haccepted.note e⟩
  · intro hr
    obtain ⟨t, r, w', hdoes, hwaiting, hc⟩ := hleft hr
    obtain ⟨t', e, hdoes'⟩ := henable hdoes
    exact ⟨timer, t', _, _, hdoes', hwaiting.note e, hc⟩

end Activity

/-! ## Looking again and again -/

namespace Boot

/-- The image is on trial without a job, and its next attempt is due. -/
structure Waiting (d : Device) (timer : TimerId) (b : Boot A) : Prop where
  waiting : b.world.Waiting d timer
  confirmation : ∃ interval made, b.world.engine.validation.confirmation = some ⟨interval, made, .poised⟩
  idle : b.tasks.any Task.attempting = false

variable {d : Device} {timer : TimerId} {b : Boot A}

theorem Waiting.attempting (h : b.Waiting d timer) (s : Surroundings) :
    (b.run (attempting b.tasks.length s)).Waiting d timer ∧
      (b.run (attempting b.tasks.length s)).tasks.length = b.tasks.length + 1 := by
  obtain ⟨interval, made, hc⟩ := h.confirmation
  have hwaiting := h.waiting.surround s
  obtain ⟨t, e, hdoes, hlen⟩ := Activity.does_confirmAttempt_jobless (made + 1) interval hwaiting
  rw [run_attempting_retry hc h.idle s hdoes hlen rfl hwaiting.uncancelled]
  refine ⟨⟨(hwaiting.note e).withConfirmation _, ⟨interval, made + 1, rfl⟩, ?_⟩, by simp⟩
  simp [h.idle, Task.attempting]

/-- However often the record is looked at, and whatever it shows, the image goes on waiting. -/
theorem Waiting.attempts (h : b.Waiting d timer) (later : List Surroundings) :
    (b.run (attempts b.tasks.length later)).Waiting d timer := by
  induction later generalizing b with
  | nil => exact h
  | cons s later ih =>
    obtain ⟨hwaiting, hlen⟩ := h.attempting s
    have hrest := ih hwaiting
    rw [hlen] at hrest
    rw [Boot.attempts, run_append]
    exact hrest

/-- With no confirmation there is nothing to attempt. -/
theorem run_attempting_unconfirmed (hc : b.world.engine.validation.confirmation = none) {task : Nat}
    (ht : b.tasks.length ≤ task) (s : Surroundings) :
    b.run (attempting task s) = { b with world := b.world.surround s } := by
  have hgone : b.tasks[task]? = none := List.getElem?_eq_none ht
  have hgo : ∀ n, run { b with world := b.world.surround s } (List.replicate n (.go task obliging)) =
      { b with world := b.world.surround s } := by
    intro n
    induction n with
    | zero => rfl
    | succ n ih =>
      rw [List.replicate_succ, run, List.foldl_cons]
      simpa [run, step, advance, hgone] using ih
  have hbegun : b.run [.disturb s, .attempt] = { b with world := b.world.surround s } := by
    change (b.step (.disturb s)).beginAttempt = _
    simp [beginAttempt, step, hc, World.surround]
  rw [Boot.attempting, run_append, run_append, hbegun, hgo]
  change wake _ = _
  simp [wake, World.surround, hc]

theorem accepted_attempts (h : b.world.Accepted d) {task : Nat} (ht : b.tasks.length ≤ task)
    (later : List Surroundings) : (b.run (attempts task later)).world.Accepted d := by
  induction later generalizing b task with
  | nil => exact h
  | cons s later ih =>
    rw [attempts, run_append, run_attempting_unconfirmed h.unconfirmed ht]
    exact ih (h.surround s) (Nat.le_succ_of_le ht)

end Boot

/-! ## From the first look on -/

/-- A new image without a job that passes its test is accepted if the record can be read at the first look,
and nothing is sent. If it cannot, the image is on trial for good, whatever later looks show: nothing is sent
and nothing marked, and when the rollback timer goes off the image is rolled back. -/
theorem Session.jobless_trial {d : Device} (hd : d.slots.running = .pendingVerify) (hj : d.store.Jobless)
    {surr : Surroundings} {version : String} {config : Config} {handler : Option A.Handler}
    {test : Option A.SelfTest} {turns : Nat} {s : Saying} (hr : surr.faults.runningState = false)
    (ho : surr.faults.once = false) (hf : surr.faults.markValid = false) (ht : test = none ∨ s.diagnosis = .passed)
    (hi : ((World.boot (d.surround surr) version : World A).install config handler).1 = .ok ())
    (hn : ((Activity.enable config handler test).trace (Boot.undergoing s)
      (World.boot (d.surround surr) version)).length ≤ turns) (later : List Surroundings) :
    let b := ((Session.enablingIn surr version config handler test turns s).goingOn (Boot.attempts 1 later)).boot d
    (surr.failReads = false → b.world.Accepted d) ∧
    (surr.failReads = true → ∃ timer, b.world.Waiting d timer ∧
      (b.world.device.faults.rollback = false → (b.step (.fire timer)).world.RolledBack)) := by
  intro b
  have hfirst : (World.boot (d.surround surr) version : World A).FirstBoot (d.surround surr) :=
    ⟨rfl, rfl, rfl, rfl, rfl, hd, hr, ho⟩
  obtain ⟨haccepted, hleft⟩ := Activity.does_enable_jobless hfirst hj hi ht
  have hboot : b = ((Session.enabling version config handler test turns s).boot (d.surround surr)).run
      (Boot.attempts 1 later) := Session.boot_goingOn _ _ _
  constructor
  · intro hread
    obtain ⟨t, w', hdoes, haccepted⟩ := haccepted hread hf
    rw [hboot, Session.boot_enabling hdoes (hdoes.trace_eq ▸ hn)]
    exact Boot.accepted_attempts ⟨haccepted.marked, haccepted.unheld, haccepted.unconfirmed, haccepted.posts,
      haccepted.rollbacks⟩ (Nat.le_refl 1) later
  · intro hunread
    obtain ⟨timer, t, w', interval, hdoes, hwaiting, hc⟩ := hleft hunread
    have hstart : ((Session.enabling version config handler test turns s).boot (d.surround surr)).Waiting
        (d.surround surr) timer := by
      rw [Session.boot_enabling hdoes (hdoes.trace_eq ▸ hn)]
      exact ⟨hwaiting, ⟨interval, 0, hc⟩, rfl⟩
    have hend : b.world.Waiting (d.surround surr) timer := by
      have hlen : ((Session.enabling version config handler test turns s).boot (d.surround surr)).tasks.length = 1 := by
        rw [Session.boot_enabling hdoes (hdoes.trace_eq ▸ hn)]
        rfl
      rw [hboot, ← hlen]
      exact (hstart.attempts later).waiting
    refine ⟨timer, ⟨hend.onTrial, hend.uncancelled, hend.held, hend.armed, hend.running, hend.jobless, hend.posts,
      hend.rollbacks⟩, fun hrollback => ?_⟩
    change (b.fire timer).world.RolledBack
    rw [Boot.fire_of_fuse hend.armed]
    exact (rolledBack_rollbackDue (w := b.world.expire timer) hend.onTrial hrollback).1

/-- The engine is enabled while the record can be read, or cannot. -/
def looking (unreadable : Bool) : Session Agent.application :=
  Session.enablingIn { answering with failReads := unreadable } "2.0.0" Config.default none (some ()) 12
    Boot.obliging

/-- Later looks at the record, the first of them still in vain. -/
def lookingOn : List Surroundings := [{ answering with failReads := true }, answering, answering]

theorem Session.jobless_trial_looking :
    (Device.fresh .pendingVerify).slots.running = .pendingVerify ∧
    (Device.fresh .pendingVerify).store.Jobless ∧
    (∀ unreadable, ((World.boot ((Device.fresh .pendingVerify).surround
      { answering with failReads := unreadable }) "2.0.0" : World Agent.application).install
        Config.default none).1 = .ok ()) ∧
    (((looking false).goingOn (Boot.attempts 1 lookingOn)).boot (Device.fresh .pendingVerify)).world.Accepted
      (Device.fresh .pendingVerify) ∧
    ∃ timer, (((looking true).goingOn (Boot.attempts 1 lookingOn)).boot
        (Device.fresh .pendingVerify)).world.Waiting (Device.fresh .pendingVerify) timer ∧
      ((((looking true).goingOn (Boot.attempts 1 lookingOn)).boot (Device.fresh .pendingVerify)).step
        (.fire timer)).world.RolledBack := by
  have hjobless : (Device.fresh .pendingVerify).store.Jobless := .inl rfl
  have hinstall (unreadable : Bool) : ((World.boot ((Device.fresh .pendingVerify).surround
      { answering with failReads := unreadable }) "2.0.0" : World Agent.application).install
        Config.default none).1 = .ok () := Except.eq_ok_of_toBool (by cases unreadable <;> decide +kernel)
  have hturns (unreadable : Bool) : ((Activity.enable Config.default none (some ())).trace
      (Boot.undergoing Boot.obliging) (World.boot ((Device.fresh .pendingVerify).surround
        { answering with failReads := unreadable }) "2.0.0" : World Agent.application)).length ≤ 12 := by
    cases unreadable <;> decide +kernel
  obtain ⟨haccepted, -⟩ := Session.jobless_trial rfl hjobless rfl rfl rfl (.inr rfl) (hinstall false)
    (hturns false) lookingOn
  obtain ⟨-, hleft⟩ := Session.jobless_trial rfl hjobless rfl rfl rfl (.inr rfl) (hinstall true)
    (hturns true) lookingOn
  obtain ⟨timer, hwaiting, hrolledBack⟩ := hleft rfl
  exact ⟨rfl, hjobless, hinstall, haccepted rfl, timer, hwaiting, hrolledBack (by decide +kernel)⟩

/-- One look in vain costs a good image its trial: the record shows no job ever after, nothing is marked and
nothing sent, and the rollback timer condemns the image. -/
theorem Session.jobless_image_condemned :
    let b := ((looking true).goingOn (Boot.attempts 1 [answering, answering])).boot (Device.fresh .pendingVerify)
    b.world.nextBoot.jobId = none ∧ b.world.device.store.failReads = false ∧
      b.world.device.slots.running = .pendingVerify ∧ b.world.engine.validation.state = .validating ∧
      b.world.rollbackPending = true ∧ b.world.device.network.posts = [] ∧
      (b.step (.fire 1)).world.device.slots.running = .invalid := by
  decide +kernel

end FirmwareUpdate
