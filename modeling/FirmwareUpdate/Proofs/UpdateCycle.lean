import FirmwareUpdate.Proofs.Attempts
import FirmwareUpdate.Proofs.Commits
import FirmwareUpdate.Proofs.RollbackEpisode

/-!
# A full update

A fetch applies the job that is offered. After the reboot its image runs on trial, attempts to confirm it
are made while the rollback timer is armed, and the first that is acknowledged confirms it.
-/

namespace FirmwareUpdate

open Routine

variable {A : Application}

/-! ## A valid slot -/

/-- Whoever asks for a rollback condemns the running image. -/
def Slots.Consistent (s : Slots) : Prop := s.rollbackRequested = true → s.running = .invalid

theorem Slots.Consistent.markValid {s : Slots} (h : s.Consistent) : s.markValid.2.Consistent := by
  unfold Slots.markValid
  dsimp only
  split
  · exact h
  · rename_i hvalid
    exact fun hr => absurd (h hr) hvalid

namespace Device

variable {d : Device}

theorem consistent_markValid (h : d.slots.Consistent) : d.markValid.2.slots.Consistent := by
  unfold markValid
  split
  · exact h
  · exact h.markValid

theorem consistent_rollback (h : d.slots.Consistent) : d.rollback.2.slots.Consistent := by
  unfold rollback
  split
  · exact h
  · exact fun _ => rfl

end Device

namespace World

variable {w : World A}

theorem slots_beginValidation (seconds : Nat) : (w.beginValidation seconds).2.device.slots = w.device.slots := by
  have hb := w.beginning seconds
  generalize (w.beginValidation seconds).1 = r, (w.beginValidation seconds).2 = w' at hb ⊢
  cases hb with
  | trial => exact slots_beginTrial _ seconds
  | _ => rfl

theorem consistent_undergo (h : w.device.slots.Consistent) (s : Saying) (e : Effect A) :
    (w.undergo s e).2.device.slots.Consistent := by
  by_cases hj : e.Judges
  · rw [undergo_snd]
    cases e with
    | beginValidation seconds =>
      rw [perform, slots_beginValidation]
      exact h
    | markValid =>
      rw [perform, slots_markValid]
      exact Device.consistent_markValid h
    | markInvalid =>
      rw [perform, slots_markInvalid]
      exact Device.consistent_rollback h
    | settleTrial =>
      rw [perform]
      by_cases hi : w.engine.validation.state = .invalid
      · rw [settleTrial_invalid w hi]
        exact h
      · rw [slots_settleTrial hi]
        exact Device.consistent_markValid h
    | _ => exact hj.elim
  · have hu := w.untouched_undergo s hj
    intro hr
    rw [hu.running]
    exact h (hu.requested.symm.trans hr)

theorem consistent_rollbackDue (h : w.device.slots.Consistent) : w.rollbackDue.device.slots.Consistent := by
  by_cases hon : w.OnTrial
  · rw [slots_rollbackDue hon]
    exact Device.consistent_rollback h
  · rwa [rollbackDue_of_not_onTrial w hon]

end World

theorem Turn.consistent {w w' : World A} {h h' : List (Happening A)} (ht : Turn w h w' h')
    (hc : w.device.slots.Consistent) : w'.device.slots.Consistent := by
  cases ht with
  | paced c => exact hc
  | surrounded s => exact hc
  | fired id hf =>
    rw [World.fireOnce_of_fuse hf]
    exact World.consistent_rollbackDue (w := w.expire id) hc
  | did task s e c => exact World.consistent_undergo hc s e

/-- As long as the slot is valid, nobody has asked for a rollback in this boot. -/
theorem Boot.unasked_of_valid {d : Device} (hd : d.slots.rollbackRequested = false) (version : String)
    (ms : List (Move A)) (hv : ((start A d version).run ms).world.device.slots.running = .valid) :
    ((start A d version).run ms).world.device.slots.rollbackRequested = false := by
  have hstart : (start A d version).world.device.slots.Consistent := by
    intro hr
    rw [show (start A d version).world.device.slots.rollbackRequested = false from hd] at hr
    cases hr
  have hrun : ((start A d version).run ms).world.device.slots.Consistent :=
    run_turns (P := fun w _ => w.device.slots.Consistent) (fun ht hc => ht.consistent hc) hstart ms
  rw [Bool.eq_false_iff]
  intro hr
  rw [hrun hr] at hv
  cases hv

/-! ## Applying the job -/

theorem FetchAnswer.named_of_payload {a : FetchAnswer} {job : Job} (h : a.payload = .ok (.job job)) :
    job.id ≠ "" := by
  unfold payload at h
  split at h
  · split at h <;> cases h
  · split at h
    · cases h
    · rename_i id hid
      split at h
      · cases h
      · split at h
        · cases h
        · cases h
          have hpresent := (Option.filter_eq_some_iff.mp hid).2
          simpa using hpresent

theorem Payload.named_of_bytes {body : Bytes} {job : Job} (h : Payload.ofBytes body = .ok (.job job)) :
    job.id ≠ "" := by
  unfold ofBytes at h
  split at h
  · exact FetchAnswer.named_of_payload h
  · cases h

namespace World

/-- An idle engine that flashes images as they come is offered a job, and the image is there to be flashed. -/
structure Offered (w : World A) (job : Job) (image : Bytes) : Prop where
  enabled : ∃ e, w.engine.enabled = some e ∧ e.handler = none ∧
    max e.config.downloadChunkSize.toNat 1 ≤ Activity.bufferLimit ∧
    w.device.startApplyTask e.config.applyTaskStackSize.toNat = .ok ()
  idle : w.engine.inProgress = false
  /-- As on a slot that is valid. -/
  unasked : w.device.slots.rollbackRequested = false
  answered : ∃ response rest, w.device.network.gets = .answer response :: rest ∧
    Payload.ofBytes response.body = .ok (.job job)
  served : ∃ served, w.device.network.images.lookup job.url = some served ∧ served.Whole ∧ served.data = image
  size : image.length = job.size
  nonempty : 0 < job.size
  openable : w.device.faults.openUpdate = false
  flashable : w.device.slots.failWrites = false
  storable : w.device.store.failWrites = false

namespace Offered

variable {w : World A} {job : Job} {image : Bytes}

theorem unattended (h : w.Offered job image) : w.Unattended := by
  intro e he
  obtain ⟨e', he', hhandler, -⟩ := h.enabled
  rw [he] at he'
  cases he'
  exact hhandler

theorem named (h : w.Offered job image) : job.id ≠ "" := by
  obtain ⟨response, rest, -, hparse⟩ := h.answered
  exact Payload.named_of_bytes hparse

theorem imageFor (h : w.Offered job image) {chunkSize : Nat} (hc : max chunkSize 1 ≤ Activity.bufferLimit) :
    w.imageFor job chunkSize = some image := by
  obtain ⟨served, hserved, hwhole, rfl⟩ := h.served
  have hsource : w.device.network.openImage job.url = .ok served.source := by
    simp [Network.openImage, hserved]
  have hflash : w.device.openUpdate = .ok (.opened false) := by
    simp [Device.openUpdate, h.openable, h.flashable]
  have hroom : 0 < max chunkSize 1 := Nat.lt_of_lt_of_le Nat.zero_lt_one (Nat.le_max_right _ _)
  have hok := Download.run_whole hwhole hroom h.size h.nonempty
  unfold World.imageFor
  rw [hsource, hflash]
  dsimp only
  rw [if_neg (Nat.not_lt.mpr hc)]
  cases hrun : (Download.start served.source (.opened false)).run Source.read job.size (max chunkSize 1) with
  | mk r d =>
    rw [hrun] at hok
    cases hok
    have hcomplete := (Download.complete hroom hrun).1
    rw [← h.size, List.take_length] at hcomplete
    exact congrArg some hcomplete

theorem delivery (h : w.Offered job image) : w.delivery = some (job, image) := by
  obtain ⟨e, he, -, hc, hstarts⟩ := h.enabled
  obtain ⟨response, rest, hgets, hparse⟩ := h.answered
  have himage : w.imageUnder job e.config = some image := by
    rw [imageUnder, hstarts]
    exact h.imageFor hc
  have hin : w.letIn = .ok ⟨e.handler, e.config, w.engine.version⟩ := by
    simp [letIn, h.idle, admission, he]
  unfold World.delivery
  rw [hin]
  simp [Device.get, Network.get, hgets, Reply.result, deliveryOf, hparse, himage]

end Offered

end World

theorem untouched_of_does {α : Type} {b : Behaviour A} {p : Activity A α} {w w' : World A} {t : List (Deed A)}
    {o : Option α} (h : Does (World.perform b) p w t o w') (hp : p.Only fun e => ¬ e.Judges)
    (ha : ∀ d ∈ t, ¬ d.request.Asks) : w.Untouched w' := by
  have hjudges : ∀ d ∈ t, ¬ d.request.Judges := h.trace_eq ▸ (ran_trace _ p w).only hp
  exact h.preserves (P := fun e => ¬ e.Judges ∧ ¬ e.Asks) (fun d hd => ⟨hjudges d hd, ha d hd⟩)
    (fun e w₁ he hw => hw.trans (w₁.untouched_perform b he.1 he.2)) (.refl w)

theorem Effect.OfFetch.not_judges {e : Effect A} (h : e.OfFetch) : ¬ e.Judges := by
  cases e <;> first | exact id | exact h.elim

/-- The job is applied. The next boot will be of its image, on trial, with its id on record. -/
theorem World.Offered.applied {w : World A} {job : Job} {image : Bytes} (h : w.Offered job image)
    (b : Behaviour A) : (Activity.run b Activity.fetch w).1 = some (.ok (.applied job.id)) ∧
      (Activity.run b Activity.fetch w).2.device.reboot.slots.running = .pendingVerify ∧
      (Activity.run b Activity.fetch w).2.device.reboot.slots.image = image ∧
      (Activity.run b Activity.fetch w).2.device.reboot.nextBoot.jobId = some (Bytes.ofText job.id) := by
  obtain ⟨t, r, w', hdoes, hcourse⟩ := does_fetch b w h.unattended
  have hrun : Activity.run b Activity.fetch w = (some r, w') := hdoes.run_eq
  have happlied := applied_of_delivery (b := b) h.unattended h.delivery h.storable
  have hnext := nextBoot_of_does hdoes hcourse.not_asks
  rw [hcourse.nextBoot, h.delivery, h.storable] at hnext
  have honly : (Activity.fetch : Activity A _).Only fun e => ¬ e.Judges :=
    ((Activity.fetches_fetch []).only fun _ _ hs => hs.kind).mono fun _ => Effect.OfFetch.not_judges
  have huntouched := untouched_of_does hdoes honly hcourse.not_asks
  rw [hrun] at happlied ⊢
  have hstaged := Device.reboot_staged (d := w'.device) (congrArg NextBoot.staged hnext)
    (huntouched.requested.trans h.unasked)
  exact ⟨happlied, hstaged.1, hstaged.2, congrArg NextBoot.jobId hnext⟩

/-! ## Booting its image -/

namespace World

structure FirstBoot (d : Device) (w : World A) : Prop where
  unstarted : w.engine.validation = .unstarted
  slots : w.device.slots = d.slots
  store : w.device.store = d.store
  network : w.device.network = d.network
  faults : w.device.faults = d.faults
  pending : d.slots.running = .pendingVerify
  legible : d.faults.runningState = false
  armable : d.faults.once = false

structure TrialBegun (d : Device) (timer : TimerId) (w : World A) : Prop where
  validation : w.engine.validation = ⟨.validating, false, some timer, false, none⟩
  armed : w.device.timers.fuse timer = true
  slots : w.device.slots = d.slots
  store : w.device.store = d.store
  network : w.device.network = d.network
  faults : w.device.faults = d.faults
  pending : d.slots.running = .pendingVerify

variable {d : Device} {id : String} {timer : TimerId} {sent : Nat} {w : World A}

theorem FirstBoot.install (h : w.FirstBoot d) (config : Config) (handler : Option A.Handler) :
    (w.install config handler).2.FirstBoot d := by
  have hr := w.reconfigured_install config handler
  have hi := w.inward_install config handler
  exact ⟨hr.validation.trans h.unstarted, hr.slots.trans h.slots, hi.store.trans h.store,
    hi.network.trans h.network, hi.faults.trans h.faults, h.pending, h.legible, h.armable⟩

theorem FirstBoot.beginValidation (h : w.FirstBoot d) (seconds : Nat) :
    (w.beginValidation seconds).1 = some (.ok .trial) ∧
      (w.beginValidation seconds).2.TrialBegun d w.device.timers.length := by
  have hlegible : w.device.runningState = .ok .pendingVerify := by
    simp [Device.runningState, h.faults, h.legible, h.slots, h.pending]
  have harmable : w.device.faults.once = false := by rw [h.faults, h.armable]
  unfold World.beginValidation
  rw [if_neg (by simp [h.unstarted, Validation.unstarted]), hlegible]
  refine ⟨rfl, ?_⟩
  simp only [beginTrial, setRollbackTimer, keepRollbackTimer, enterTrial, Device.setTimer, moveValidation, note,
    withValidation, Device.note, harmable, h.unstarted, Validation.unstarted]
  exact ⟨rfl, by simp [Timers.fuse_add], h.slots, h.store, h.network, h.faults, h.pending⟩

theorem TrialBegun.note (h : w.TrialBegun d timer) (e : Event) : (w.note e).TrialBegun d timer :=
  ⟨h.validation, h.armed, h.slots, h.store, h.network, h.faults, h.pending⟩

theorem TrialBegun.trying (h : w.TrialBegun d timer) (hid : d.nextBoot.jobId = some (Bytes.ofText id)) :
    w.Trying d id timer 0 where
  onTrial := by simp [OnTrial, h.validation]
  uncancelled := by rw [h.validation]
  held := by rw [h.validation]
  armed := h.armed
  running := by rw [h.slots, h.pending]
  image := by rw [h.slots]
  marks := by rw [h.slots]
  onRecord := by
    rw [← hid]
    exact congrArg (·.raw .jobId) h.store
  erasures := by rw [h.store]
  posts := by simp [h.network]

theorem Trying.note (h : w.Trying d id timer sent) (e : Event) : (w.note e).Trying d id timer sent :=
  ⟨h.onTrial, h.uncancelled, h.held, h.armed, h.running, h.image, h.marks, h.onRecord, h.erasures, h.posts⟩

end World

open World

namespace Activity

variable {d : Device} {id : String} {timer : TimerId} {sent : Nat} {w : World A}

def LeavesPoised {α : Type} (s : Saying) (p : Activity A α) (w : World A) (d : Device) (id : String)
    (timer : TimerId) (sent : Nat) : Prop :=
  ∃ t r w' interval, Does (Boot.undergoing s) p w t (some r) w' ∧ w'.Trying d id timer sent ∧
    w'.engine.validation.confirmation = some ⟨interval, 0, .poised⟩

theorem poised_confirmTrial (s : Saying) (interval : Nat) (h : w.Trying d id timer sent) (hne : id ≠ "") :
    LeavesPoised s (confirmTrial interval : Activity A _) w d id timer sent := by
  have hread : Does (Boot.undergoing s) (perform .loadJobId) w
    [⟨w, .loadJobId, w.device.store.loadJobId⟩] (some w.device.store.loadJobId) w := .request _ w
  unfold confirmTrial
  rcases Store.loadJobId_cases h.onRecord hne with ⟨-, c, hc⟩ | ⟨-, hloaded⟩
  · rw [hc] at hread
    have hnoted := h.note (.jobIdUnreadable c)
    obtain ⟨t, r, hstart⟩ := does_startConfirmation s interval hnoted.uncancelled
    exact ⟨_, r, _, interval, hread.bind ((does_note s _ w).bind hstart), hnoted.withConfirmation _, rfl⟩
  · rw [hloaded] at hread
    obtain ⟨t, r, hstart⟩ := does_startConfirmation s interval h.uncancelled
    exact ⟨_, r, _, interval, hread.bind hstart, h.withConfirmation _, rfl⟩

/-- Enabled on the first boot of a new image that passes its self-test, the engine begins its trial, and then
starts the confirmation. -/
theorem does_enable_begun (h : w.FirstBoot d) {config : Config} {handler : Option A.Handler}
    (hi : (w.install config handler).1 = .ok ()) {s : Saying} {test : Option A.SelfTest}
    (ht : test = none ∨ s.diagnosis = .passed) :
    ∃ timer w₁, w₁.TrialBegun d timer ∧ ∀ {t r w'},
      Does (Boot.undergoing s) (confirmTrial config.confirmRetryIntervalMs.toNat) w₁ t (some r) w' →
      ∃ t' e, Does (Boot.undergoing s) (enable config handler test) w t' (some (.ok ())) (w'.note e) := by
  obtain ⟨htrial, hbegun⟩ := (h.install config handler).beginValidation config.rollbackTimeoutSecs.toNat
  obtain ⟨w₁, hw₁, henable⟩ := does_enable_passing s hi htrial ht
  refine ⟨(w.install config handler).2.device.timers.length, w₁, ?_, henable⟩
  rcases hw₁ with rfl | rfl
  · exact hbegun
  · exact hbegun.note .selfTestPassed

theorem poised_enable (h : w.FirstBoot d) (hid : d.nextBoot.jobId = some (Bytes.ofText id)) (hne : id ≠ "")
    {config : Config} {handler : Option A.Handler} (hi : (w.install config handler).1 = .ok ()) {s : Saying}
    {test : Option A.SelfTest} (ht : test = none ∨ s.diagnosis = .passed) :
    ∃ timer, LeavesPoised s (enable config handler test) w d id timer 0 := by
  obtain ⟨timer, w₁, hbegun, henable⟩ := does_enable_begun h hi ht
  obtain ⟨t, r, w', interval, hdoes, hleft, hc⟩ :=
    poised_confirmTrial s config.confirmRetryIntervalMs.toNat (hbegun.trying hid) hne
  obtain ⟨t', e, hdoes'⟩ := henable hdoes
  exact ⟨timer, t', _, _, interval, hdoes', hleft.note e, hc⟩

end Activity

/-! ## The whole cycle -/

/-- The surroundings are not part of what a trial is measured against. -/
theorem World.Confirmed.of_surround {d : Device} {surr : Surroundings} {id : String} {timer : TimerId} {sent : Nat}
    {w : World A} (h : w.Confirmed (d.surround surr) id timer sent) : w.Confirmed d id timer sent :=
  ⟨h.marked, h.unheld, h.cancelled, h.image, h.marks, h.forgotten, h.erasures, h.posts⟩

theorem Session.poised_enablingIn {d : Device} {id : String} (hd : d.slots.running = .pendingVerify)
    (hid : d.nextBoot.jobId = some (Bytes.ofText id)) (hne : id ≠ "") {surr : Surroundings} {version : String}
    {config : Config} {handler : Option A.Handler} {test : Option A.SelfTest} {turns : Nat} {s : Saying}
    (hr : surr.faults.runningState = false) (ho : surr.faults.once = false)
    (ht : test = none ∨ s.diagnosis = .passed)
    (hi : ((World.boot (d.surround surr) version : World A).install config handler).1 = .ok ())
    (hn : ((Activity.enable config handler test).trace (Boot.undergoing s)
      (World.boot (d.surround surr) version)).length ≤ turns) :
    ∃ timer, ((Session.enablingIn surr version config handler test turns s).boot d).Poised (d.surround surr) id
      timer 0 ∧ ((Session.enablingIn surr version config handler test turns s).boot d).tasks.length = 1 := by
  have hfirst : (World.boot (d.surround surr) version : World A).FirstBoot (d.surround surr) :=
    ⟨rfl, rfl, rfl, rfl, rfl, hd, hr, ho⟩
  obtain ⟨timer, t, r, w', interval, hdoes, htrying, hc⟩ := Activity.poised_enable hfirst hid hne hi ht
  rw [hdoes.trace_eq] at hn
  rw [Session.boot_enablingIn, Session.boot_enabling hdoes hn]
  exact ⟨timer, ⟨htrying, ⟨interval, 0, hc⟩, rfl⟩, rfl⟩

/-- A job that is offered to an idle engine is applied. Its image boots on trial, and stays so with the
rollback timer armed while attempts to confirm it fail, however many and for whatever reason. The first
that is acknowledged marks the image valid, once, gives up the timer and forgets the job, once. The service
has been told of the success by every attempt that could read the job's id, and of nothing else. -/
theorem update_cycle {w : World A} {job : Job} {image : Bytes} (h : w.Offered job image) (b : Behaviour A) :
    (Activity.run b Activity.fetch w).1 = some (.ok (.applied job.id)) ∧
    ∀ (surr : Surroundings) version config handler test saying turns,
      let d := (Activity.run b Activity.fetch w).2.device.reboot
      surr.faults.runningState = false → surr.faults.once = false →
      (test = none ∨ saying.diagnosis = .passed) →
      ((World.boot (d.surround surr) version : World A).install config handler).1 = .ok () →
      ((Activity.enable config handler test).trace (Boot.undergoing saying)
        (World.boot (d.surround surr) version)).length ≤ turns →
      let s := Session.enablingIn surr version config handler test turns saying
      ∃ timer, (s.boot d).world.engine.validation.rollbackTimer = some timer ∧
        ∀ setbacks last, (∀ x ∈ setbacks, x.acknowledge = false) → last.acknowledge = true →
          last.faults.markValid = false → last.faults.erase = false →
          (∀ ms, ms <+: Boot.attempts 1 setbacks → ((s.goingOn ms).boot d).world.OnTrial ∧
            ((s.goingOn ms).boot d).world.rollbackPending = true) ∧
          ((s.goingOn (Boot.attempts 1 (setbacks ++ [last]))).boot d).world.Confirmed d job.id timer
            ((setbacks ++ [last]).countP (!·.failReads)) ∧
          ((s.goingOn (Boot.attempts 1 (setbacks ++ [last]))).boot d).world.device.slots.image = image := by
  obtain ⟨happlied, hpending, himage, hid⟩ := h.applied b
  refine ⟨happlied, fun surr version config handler test saying turns => ?_⟩
  generalize (Activity.run b Activity.fetch w).2.device.reboot = d at hpending himage hid ⊢
  intro d' hr ho ht hi hn s
  obtain ⟨timer, hpoised, htasks⟩ := Session.poised_enablingIn hpending hid h.named hr ho ht hi hn
  have htimed : (s.boot d).world.Timed := Boot.timed_run d s.version s.moves
  refine ⟨timer, hpoised.trying.held, fun setbacks last hs hlast hf he => ⟨?_, ?_⟩⟩
  · intro ms hms
    rw [Session.boot_goingOn]
    rw [← htasks] at hms
    exact hpoised.onTrial_of_prefix htimed h.named hs hms
  · have hconfirmed := (hpoised.attempts_acknowledged h.named hs hlast hf he).of_surround
    rw [htasks, Nat.zero_add] at hconfirmed
    rw [Session.boot_goingOn]
    exact ⟨hconfirmed, hconfirmed.image.trans himage⟩

def applyingDevice : Device := (Activity.run Agent.behaviour Activity.fetch (offer false)).2.device.reboot

def answering : Surroundings := ⟨[], [], [], .none, false, false, false⟩

def testing : Session Agent.application :=
  Session.enablingIn answering "2.0.0" Config.default none (some ()) 12 Boot.obliging

def setbacks : List Surroundings :=
  [{ answering with failReads := true }, { answering with postReplies := [.answer ⟨503, []⟩] }, Device.cutOff]

def Payload.job? : Payload → Option Job
  | .job offer => some offer
  | _ => none

theorem Payload.eq_of_job? {r : Except UpdateError Payload} {offer : Job}
    (h : r.toOption.bind job? = some offer) : r = .ok (.job offer) := by
  cases r with
  | error e => cases h
  | ok p =>
    cases p with
    | job offered =>
      cases h
      rfl
    | noUpdate | rejected => cases h

theorem offer_offered : ∃ job, job.id = "B" ∧ (offer false).Offered job [1, 2, 3, 4] := by
  have hparse : ((Payload.ofBytes offeredJob.body).toOption.bind Payload.job?).map
      (fun job => (job.id, job.url, job.size)) = some ("B", "u", 4) := by decide +kernel
  have hserved : (offer false).device.network.images.lookup "u" = some (.plain [1, 2, 3, 4]) := by decide +kernel
  obtain ⟨⟨id, url, size, version, metadata⟩, hjob, he⟩ := Option.map_eq_some_iff.mp hparse
  cases he
  have hwhole : (Image.plain [1, 2, 3, 4]).Whole := ⟨rfl, rfl, fun _ h => absurd h List.not_mem_nil⟩
  exact ⟨_, rfl, ⟨⟨_, rfl, rfl, by decide, rfl⟩, rfl, rfl, ⟨offeredJob, [], rfl, Payload.eq_of_job? hjob⟩,
    ⟨_, hserved, hwhole, rfl⟩, rfl, Nat.zero_lt_succ 3, rfl, rfl, rfl⟩⟩

theorem update_cycle_offer :
    (∃ job, job.id = "B" ∧ (offer false).Offered job [1, 2, 3, 4]) ∧
    (Activity.run Agent.behaviour Activity.fetch (offer false)).1 = some (.ok (.applied "B")) ∧
    ((World.boot (applyingDevice.surround answering) "2.0.0" : World Agent.application).install
      Config.default none).1 = .ok () ∧
    (∀ x ∈ setbacks, x.acknowledge = false) ∧ answering.acknowledge = true ∧
    ∃ timer, (testing.boot applyingDevice).world.engine.validation.rollbackTimer = some timer ∧
      (∀ ms, ms <+: Boot.attempts 1 setbacks → ((testing.goingOn ms).boot applyingDevice).world.OnTrial ∧
        ((testing.goingOn ms).boot applyingDevice).world.rollbackPending = true) ∧
      ((testing.goingOn (Boot.attempts 1 (setbacks ++ [answering]))).boot applyingDevice).world.Confirmed
        applyingDevice "B" timer 3 ∧
      ((testing.goingOn (Boot.attempts 1 (setbacks ++ [answering]))).boot
        applyingDevice).world.device.slots.image = [1, 2, 3, 4] := by
  have hinstall : ((World.boot (applyingDevice.surround answering) "2.0.0" :
      World Agent.application).install Config.default none).1 = .ok () :=
    Except.eq_ok_of_toBool (by decide +kernel)
  have hturns : ((Activity.enable Config.default none (some ())).trace (Boot.undergoing Boot.obliging)
      (World.boot (applyingDevice.surround answering) "2.0.0" : World Agent.application)).length ≤ 12 := by
    decide +kernel
  have hsetbacks : ∀ x ∈ setbacks, x.acknowledge = false := by decide
  have hanswering : answering.acknowledge = true := by decide
  have hsent : (setbacks ++ [answering]).countP (!·.failReads) = 3 := by decide
  obtain ⟨job, hid, hoffered⟩ := offer_offered
  obtain ⟨happlied, hcycle⟩ := update_cycle hoffered Agent.behaviour
  obtain ⟨timer, htimer, hattempts⟩ := hcycle answering "2.0.0" Config.default none (some ()) Boot.obliging 12 rfl
    rfl (.inr rfl) hinstall hturns
  obtain ⟨htrial, hconfirmed, -⟩ := hattempts setbacks answering hsetbacks hanswering rfl rfl
  rw [hid] at happlied
  rw [hid, hsent] at hconfirmed
  have himage : applyingDevice.slots.image = [1, 2, 3, 4] := by decide +kernel
  change ((testing.goingOn (Boot.attempts 1 (setbacks ++ [answering]))).boot
    applyingDevice).world.Confirmed applyingDevice "B" timer 3 at hconfirmed
  exact ⟨⟨job, hid, hoffered⟩, happlied, hinstall, hsetbacks, hanswering, timer, htimer, htrial, hconfirmed,
    hconfirmed.image.trans himage⟩

end FirmwareUpdate
