import FirmwareUpdate.Proofs.RollbackEpisode

/-!
# What the first enabling finds

Until the engine is enabled it takes no job and looks at no slot, so the first enabling of a boot finds
the record and the running slot as the boot has left them. On a valid slot a job that is still on record
is reported as rolled back and forgotten. A slot that was never updated has nothing to validate, and its
record is left alone.
-/

namespace FirmwareUpdate

open Routine

variable {A : Application}

/-! ## Before the first enabling -/

def Effect.Stirs : Effect A → Prop
  | .saveJobId _ | .eraseJobId | .startConfirmation _ => True
  | e => e.Judges

/-- Whoever asks is sent away by an engine that is not enabled, and nobody has enabled it. -/
def Refuses : (e : Effect A) → e.Reply → Prop
  | .install .., .ok () => False
  | .admission, .ok _ => False
  | _, _ => True

def Routine.Idles {α : Type} : Activity A α → Prop
  | .done _ | .died => True
  | .step e next => ¬ e.Stirs ∧ ∀ r, Refuses e r → (next r).Idles

namespace Routine.Idles

variable {α β : Type} {p : Activity A α}

theorem of_only (h : p.Only fun e => ¬ e.Stirs) : p.Idles := by
  induction p with
  | done a => trivial
  | died => trivial
  | step e next ih => exact ⟨h.1, fun r _ => ih r (h.2 r)⟩

theorem bind {f : α → Activity A β} (h : p.Idles) (hf : ∀ a, (f a).Idles) : (p >>= f).Idles := by
  induction p with
  | done a => exact hf a
  | died => trivial
  | step e next ih => exact ⟨h.1, fun r hr => ih r (h.2 r hr)⟩

end Routine.Idles

namespace Activity

theorem idles_enable (config : Config) (handler : Option A.Handler) (test : Option A.SelfTest) :
    (enable config handler test).Idles := by
  refine ⟨nofun, fun r hr => ?_⟩
  cases r with
  | error e => trivial
  | ok => exact hr.elim

theorem idles_fetch : (fetch : Activity A _).Idles := by
  refine ⟨nofun, fun busy _ => ?_⟩
  cases busy with
  | true => trivial
  | false =>
    refine ⟨nofun, fun r hr => ?_⟩
    cases r with
    | error e => trivial
    | ok a => exact hr.elim

theorem idles_autofetchRound : (autofetchRound : Activity A _).Idles := by
  refine Routine.Idles.bind (.of_only (only_note nofun)) fun _ => idles_fetch.bind fun r => ?_
  split
  · trivial
  · exact .of_only (only_note nofun)
  · exact .of_only (only_note nofun)

/-- Only the application can judge the running image of an engine that is not enabled. -/
theorem idles_call {c : Call A} (hv : c ≠ .markValid) (hi : c ≠ .markInvalid) : c.activity.Idles := by
  have hsingle {e : Effect A} (h : ¬ e.Stirs) : (do let _ ← perform e : Activity A Unit).Idles :=
    .of_only ((only_perform h).bind fun _ => trivial)
  cases c with
  | markValid => exact absurd rfl hv
  | markInvalid => exact absurd rfl hi
  | enable config handler test => exact (idles_enable config handler test).bind fun _ => trivial
  | fetch => exact idles_fetch.bind fun _ => trivial
  | autofetch => exact idles_autofetchRound
  | disable => exact hsingle (e := .uninstall) nofun
  | joinConfirmation => exact hsingle (e := .joinConfirmation) nofun
  | report id status info =>
    have hreport : (reportFor id status info : Activity A _).Only fun e => ¬ e.Stirs :=
      only_reportFor nofun fun _ => nofun
    exact .of_only (hreport.bind fun _ => trivial)
  | download job chunkSize =>
    have hdownload : (downloadAndFlash job chunkSize : Activity A _).Only fun e => ¬ e.Stirs := by
      refine (only_downloadAndFlash job chunkSize).mono fun e he => ?_
      cases e <;> first | exact he.elim | exact id
    exact .of_only (hdownload.bind fun _ => trivial)

end Activity

namespace World

/-- Nobody has enabled the engine, nor told it what to make of the running image. -/
structure Asleep (d : Device) (w : World A) : Prop where
  unenabled : w.engine.enabled = none
  unstarted : w.engine.validation.state = .init
  unconfirmed : w.engine.validation.confirmation = none
  running : w.device.slots.running = d.slots.running
  onRecord : w.nextBoot.jobId = d.nextBoot.jobId

variable {d : Device} {w w' : World A}

theorem asleep_boot (d : Device) (version : String) : Asleep d (.boot d version : World A) :=
  ⟨rfl, rfl, rfl, rfl, rfl⟩

theorem unenabled_install {config : Config} {handler : Option A.Handler} {e : UpdateError}
    (h : (w.install config handler).1 = .error e) : (w.install config handler).2.engine.enabled =
      w.engine.enabled := by
  have hi := w.installing config handler
  generalize (w.install config handler).1 = r, (w.install config handler).2 = w' at h hi ⊢
  cases hi with
  | refused => rfl
  | silent | polling => cases h

theorem unenabled_undergo (h : w.engine.enabled = none) (s : Saying) {e : Effect A}
    (hr : Refuses e (w.undergo s e).1) : (w.undergo s e).2.engine.enabled = none := by
  rw [undergo_snd]
  cases e with
  | install config handler =>
    cases hi : (w.install config handler).1 with
    | error e => exact (unenabled_install hi).trans h
    | ok =>
      change Refuses (.install config handler) (w.install config handler).1 at hr
      rw [hi] at hr
      exact hr.elim
  | uninstall =>
    change w.uninstall.2.engine.enabled = none
    unfold uninstall
    rw [h]
    exact h
  | claim =>
    change w.claim.2.engine.enabled = none
    unfold claim
    split <;> exact h
  | beginValidation seconds => exact (w.trialStep_beginValidation seconds).enabled.trans h
  | markValid => exact w.trialStep_markValid.enabled.trans h
  | markInvalid => exact w.trialStep_markInvalid.enabled.trans h
  | settleTrial => exact w.trialStep_settleTrial.enabled.trans h
  | joinConfirmation => exact w.trialStep_joinConfirmation.enabled.trans h
  | _ => exact h

theorem Asleep.undergo (h : w.Asleep d) (s : Saying) {e : Effect A} (he : ¬ e.Stirs)
    (hr : Refuses e (w.undergo s e).1) : (w.undergo s e).2.Asleep d := by
  have hj : ¬ e.Judges := by
    cases e <;> first | exact he | exact id
  have hu := w.untouched_undergo s hj
  refine ⟨unenabled_undergo h.unenabled s hr, hu.state.trans h.unstarted, ?_, hu.running.trans h.running, ?_⟩
  · apply w.unconfirmed_undergo s h.unconfirmed
    rintro interval rfl
    exact he trivial
  · rw [w.nextBoot_undergo]
    refine Eq.trans ?_ h.onRecord
    cases e <;> first | rfl | exact absurd trivial he

end World

def Happening.enables : Happening A → Bool
  | did _ ⟨_, .install .., .ok ()⟩ => true
  | _ => false

theorem World.refuses_of_unenabled {w : World A} (h : w.engine.enabled = none) (s : Saying) {e : Effect A}
    {task : Nat} (hn : (Happening.did task ⟨w, e, (w.undergo s e).1⟩).enables = false) :
    Refuses e (w.undergo s e).1 := by
  cases e with
  | install config handler =>
    generalize (w.undergo s (.install config handler)).1 = r at hn
    cases r with
    | ok => cases hn
    | error e => trivial
  | admission =>
    change Refuses .admission w.admission
    unfold admission
    rw [h]
    trivial
  | _ => trivial

namespace Boot

def Idle (d : Device) (b : Boot A) : Prop := b.Calling (fun w _ => w.Asleep d) Routine.Idles

variable {d : Device} {b : Boot A}

theorem Idle.step (h : b.Idle d) (ht : b.world.Timed) {m : Move A}
    (hm : m ≠ .call .markValid ∧ m ≠ .call .markInvalid) (hs : ∀ x ∈ (b.step m).history, x.enables = false) :
    (b.step m).Idle d := by
  have hw := h.holds
  apply Calling.step h hw.unconfirmed
  · intro c hc
    exact Activity.idles_call (fun he => hm.1 (he ▸ hc)) fun he => hm.2 (he ▸ hc)
  · intro task s e next hidles hstep
    rw [hstep] at hs
    have hrefused := World.refuses_of_unenabled hw.unenabled s (hs _ List.mem_cons_self)
    exact ⟨hw.undergo s hidles.1 hrefused, hidles.2 _ hrefused⟩
  · -- no timer is armed before an image is on trial
    intro id hf
    have hon := (ht.onTrial id hf).1
    rw [hw.unstarted] at hon
    cases hon
  · intro s
    exact ⟨hw.unenabled, hw.unstarted, hw.unconfirmed, hw.running, hw.onRecord⟩

/-- What every move preserves that is made while nobody enables the engine holds up to the first enabling. -/
theorem unenabled_induction {version : String} {P : Boot A → Prop} (h : P (start A d version)) {ms : List (Move A)}
    (hs : ∀ b, ∀ m ∈ ms, b.world.Timed → P b → (∀ x ∈ (b.step m).history, x.enables = false) → P (b.step m))
    (hn : ∀ x ∈ ((start A d version).run ms).history, x.enables = false) : P ((start A d version).run ms) := by
  have hrun := run_induction (b := start A d version)
    (P := fun b => b.world.Timed ∧ ((∀ x ∈ b.history, x.enables = false) → P b)) ?_ ms ?_
  · exact hrun.2 hn
  · exact ⟨World.timed_boot d version, fun _ => h⟩
  · intro b m hmem h
    refine ⟨((b.turn_step m).net h.1).1, fun hn => ?_⟩
    obtain ⟨news, hnews⟩ := b.history_run [m]
    have hnews : (b.step m).history = news ++ b.history := hnews
    refine hs b m hmem h.1 (h.2 fun x hx => hn x ?_) hn
    rw [hnews]
    exact List.mem_append_right _ hx

/-- What a call finds that comes before any enabling. -/
theorem asleep_run (d : Device) (version : String) {ms : List (Move A)}
    (hm : ∀ m ∈ ms, m ≠ .call .markValid ∧ m ≠ .call .markInvalid)
    (hn : ∀ x ∈ ((start A d version).run ms).history, x.enables = false) :
    ((start A d version).run ms).world.Asleep d := by
  have hrun : ((start A d version).run ms).Idle d := by
    refine unenabled_induction (P := Idle d) ⟨World.asleep_boot d version, fun _ h => nomatch h⟩ ?_ hn
    intro b m hmem ht h hs
    exact h.step ht (hm m hmem) hs
  exact hrun.holds

end Boot

/-! ## The first enabling -/

theorem World.Asleep.leftover {d : Device} {w : World A} {id : String} (h : w.Asleep d)
    (hd : d.slots.running = .valid) (hid : d.nextBoot.jobId = some (Bytes.ofText id)) (hne : id ≠ "")
    (hs : w.device.faults.runningState = false) (hr : w.device.store.failReads = false) : w.Leftover id where
  unstarted := h.unstarted
  running := h.running.trans hd
  legible := hs
  readable := hr
  onRecord := h.onRecord.trans hid
  named := hne

theorem World.beginValidation_foreign {w : World A} (hi : w.engine.validation.state = .init)
    (hr : w.device.slots.running = .undefined) (hs : w.device.faults.runningState = false) (seconds : Nat) :
    (w.beginValidation seconds).1 = some (.ok .foreign) ∧
      (w.beginValidation seconds).2.engine.validation.state = .notOtaBoot := by
  simp [beginValidation, Device.runningState, hi, hr, hs, moveValidation, withValidation]

/-- A slot that was never updated is no OTA boot, and no leftover is looked for. -/
theorem Activity.does_enable_foreign {d : Device} {w : World A} (h : w.Asleep d)
    (hd : d.slots.running = .undefined) (hs : w.device.faults.runningState = false) {config : Config}
    {handler : Option A.Handler} (hi : (w.install config handler).1 = .ok ()) (test : Option A.SelfTest)
    (s : Saying) : ∃ t w', Does (Boot.undergoing s) (enable config handler test) w t (some (.ok ())) w' ∧
      w'.engine.validation.state = .notOtaBoot ∧ ∀ deed ∈ t, ¬ deed.request.Outward := by
  have hu : World.Untouched w (w.install config handler).2 := (w.reconfigured_install config handler).untouched
  have hfaults := (w.inward_install config handler).faults
  have hinstall : Does (Boot.undergoing s) (perform (.install config handler)) w
    [⟨w, .install config handler, .ok ()⟩] (some (.ok ())) (w.install config handler).2 :=
    .replied (Prod.ext hi rfl)
  generalize (w.install config handler).2 = w₁ at hu hfaults hinstall
  obtain ⟨hforeign, hstate⟩ := World.beginValidation_foreign (hu.state.trans h.unstarted)
    ((hu.running.trans h.running).trans hd) (hfaults ▸ hs) config.rollbackTimeoutSecs.toNat
  generalize hw : (w₁.beginValidation config.rollbackTimeoutSecs.toNat).2 = w₂ at hstate
  have hbegin : Does (Boot.undergoing s) (perform (.beginValidation config.rollbackTimeoutSecs.toNat)) w₁
    [⟨w₁, .beginValidation config.rollbackTimeoutSecs.toNat, some (.ok .foreign)⟩]
    (some (some (.ok .foreign))) w₂ := .replied (Prod.ext hforeign hw)
  have hvalidate : Does (Boot.undergoing s) (validate test config) w₁ _ (some (some (.ok .notOtaBoot))) w₂ :=
    hbegin.bind (.done _ w₂)
  have hend : Does (Boot.undergoing s) (do note (.bootValidated .notOtaBoot); return .ok () :
      Activity A (Except UpdateError Unit)) w₂ _ _ _ := (does_note s _ w₂).bind (.done (Except.ok ()) _)
  refine ⟨_, _, hinstall.bind (hvalidate.bind hend), hstate, ?_⟩
  simp [Effect.Outward]

theorem Retracts.remembered {id : String} {c : Cause} {t : List (Deed A)} (h : Retracts id (.error c) t)
    (task : Nat) (n : NextBoot) : (n.since (t.map (Happening.did task)).reverse).jobId = n.jobId := by
  have hunsaved := h.unsaved task
  refine jobId_since_kept fun x hx => ⟨hunsaved x hx, ?_⟩
  obtain ⟨before, s, between, s', r, after, rfl, hout⟩ := h
  have hnone : ∀ d ∈ before ++ between ++ after, (Happening.did task d).erases = false := fun d hd =>
    Happening.erases_of_not_outward task (hout d hd)
  simp only [List.forall_mem_append] at hnone
  revert x
  simp only [List.mem_reverse, List.forall_mem_map, List.forall_mem_append, List.forall_mem_cons]
  exact ⟨hnone.1.1, rfl, hnone.1.2, rfl, hnone.2⟩

theorem since_of_does {α : Type} {s : Saying} {p : Activity A α} {w w' : World A} {t : List (Deed A)}
    {o : Option α} (h : Does (Boot.undergoing s) p w t o w') (task : Nat) :
    w'.nextBoot = w.nextBoot.since (t.map (Happening.did task)).reverse := by
  induction p generalizing w t with
  | done a =>
    obtain ⟨rfl, hrun⟩ := h
    cases hrun
    rfl
  | died =>
    obtain ⟨rfl, hrun⟩ := h
    cases hrun
    rfl
  | step e next ih =>
    obtain ⟨rfl, hrun⟩ := h
    rw [ih _ ⟨rfl, hrun⟩, Routine.trace, List.map_cons, List.reverse_cons, NextBoot.since_append]
    exact congrArg (NextBoot.since · _) (w.nextBoot_undergo s e)

namespace Boot

/-- Enabled where it finds a job left over, the engine reports it, once, and forgets it if it can. -/
theorem enable_leftover {b : Boot A} {id : String} (h : b.world.Leftover id) {config : Config}
    {handler : Option A.Handler} (hi : (b.world.install config handler).1 = .ok ()) (test : Option A.SelfTest)
    (s : Saying) {turns : Nat}
    (ht : ((Activity.enable config handler test).trace (undergoing s) b.world).length ≤ turns) :
    (b.enable config handler test s turns).world.device.network.posts =
      b.world.device.network.posts ++ [⟨Report.path, Report.body id .rejected rollbackInfo⟩] ∧
    ((b.enable config handler test s turns).world.nextBoot.jobId = none ↔
      b.world.device.faults.erase = false) := by
  have hdoes : Does (undergoing s) (Activity.enable config handler test) b.world _ _ _ := Routine.does _ _
  have hretracts := Activity.retracts_enable s h hi test
  rw [enable_eq hdoes ht]
  refine ⟨(posts_of_does hdoes).trans (congrArg _ hretracts.posts), ?_⟩
  change (Routine.run (undergoing s) (Activity.enable config handler test) b.world).2.nextBoot.jobId = none ↔ _
  rw [since_of_does hdoes b.tasks.length]
  cases he : b.world.device.faults.erase with
  | false =>
    have herased : b.world.device.eraseJobId.1 = .ok () := by simp [Device.eraseJobId, he]
    rw [herased] at hretracts
    exact iff_of_true (hretracts.forgotten _ _) rfl
  | true =>
    obtain ⟨c, herased⟩ : ∃ c, b.world.device.eraseJobId.1 = .error c := by simp [Device.eraseJobId, he]
    rw [herased] at hretracts
    rw [hretracts.remembered, h.onRecord]
    simp

/-- The first enabling of a boot, which nobody has judged the running image before, reports the job that a
valid slot has left on record as rolled back, once, whatever it is answered, and forgets the job unless it
cannot be erased. Where no image was ever updated it says nothing and keeps the job. -/
theorem first_enable_reconciles {d : Device} {version : String} {ms : List (Move A)}
    (hm : ∀ m ∈ ms, m ≠ .call .markValid ∧ m ≠ .call .markInvalid)
    (hn : ∀ x ∈ ((start A d version).run ms).history, x.enables = false)
    {id : String} (hne : id ≠ "") (hid : d.nextBoot.jobId = some (Bytes.ofText id))
    (hs : ((start A d version).run ms).world.device.faults.runningState = false)
    (hr : ((start A d version).run ms).world.device.store.failReads = false)
    {config : Config} {handler : Option A.Handler}
    (hi : (((start A d version).run ms).world.install config handler).1 = .ok ())
    (test : Option A.SelfTest) (s : Saying) {turns : Nat}
    (ht : ((Activity.enable config handler test).trace (undergoing s)
      ((start A d version).run ms).world).length ≤ turns) :
    let b := (start A d version).run ms
    let b' := b.enable config handler test s turns
    (d.slots.running = .valid →
      b'.world.device.network.posts =
        b.world.device.network.posts ++ [⟨Report.path, Report.body id .rejected rollbackInfo⟩] ∧
      (b'.world.nextBoot.jobId = none ↔ b.world.device.faults.erase = false)) ∧
    (d.slots.running = .undefined →
      b'.world.device.network.posts = b.world.device.network.posts ∧
      b'.world.nextBoot.jobId = some (Bytes.ofText id) ∧ b'.world.engine.validation.state = .notOtaBoot) := by
  intro b b'
  have hasleep : b.world.Asleep d := asleep_run d version hm hn
  have hjobId : b.world.nextBoot.jobId = some (Bytes.ofText id) := hasleep.onRecord.trans hid
  constructor
  · intro hd
    exact enable_leftover (hasleep.leftover hd hid hne hs hr) hi test s ht
  · intro hd
    obtain ⟨t, w', henable, hstate, hout⟩ := Activity.does_enable_foreign hasleep hd hs hi test s
    have hb' : b'.world = w' := congrArg Boot.world (enable_eq henable (henable.trace_eq ▸ ht))
    rw [hb']
    refine ⟨?_, ?_, hstate⟩
    · rw [posts_of_does henable, filterMap_post?_of_not_outward hout, List.append_nil]
    · rw [since_of_does henable 0, jobId_since_kept, hjobId]
      intro x hx
      obtain ⟨deed, hdeed, rfl⟩ := List.mem_map.mp (List.mem_reverse.mp hx)
      exact ⟨Happening.saved?_of_not_outward 0 (hout deed hdeed),
        Happening.erases_of_not_outward 0 (hout deed hdeed)⟩

def factoryDevice : Device := ((Device.fresh .undefined).saveJobId "A").2

def refused (d : Device) : Boot Agent.application :=
  (start Agent.application d "1.0.0").run
    [.call .fetch, .go 0 obliging, .go 0 obliging,
      .call (.enable { Config.default with downloadChunkSize := 0 } none none), .go 1 obliging,
      .disturb Device.cutOff]

theorem first_enable_reconciles_refused :
    leftoverDevice.slots.running = .valid ∧ factoryDevice.slots.running = .undefined ∧ "A" ≠ "" ∧
    (∀ d ∈ [leftoverDevice, factoryDevice], d.nextBoot.jobId = some (Bytes.ofText "A") ∧
      (refused d).history.length = 3 ∧ (∀ x ∈ (refused d).history, x.enables = false) ∧
      (refused d).world.device.faults = .none ∧ (refused d).world.device.store.failReads = false ∧
      ((refused d).world.install Config.default none).1 = .ok ()) ∧
    ((refused leftoverDevice).enable Config.default none none obliging 12).world.device.network.posts =
      (refused leftoverDevice).world.device.network.posts ++
        [⟨Report.path, Report.body "A" .rejected rollbackInfo⟩] ∧
    ((refused leftoverDevice).enable Config.default none none obliging 12).world.nextBoot.jobId = none ∧
    ((refused factoryDevice).enable Config.default none none obliging 12).world.device.network.posts =
      (refused factoryDevice).world.device.network.posts ∧
    ((refused factoryDevice).enable Config.default none none obliging 12).world.nextBoot.jobId =
      some (Bytes.ofText "A") ∧
    ((refused factoryDevice).enable Config.default none none obliging 12).world.engine.validation.state =
      .notOtaBoot := by
  have hfound : ∀ d ∈ [leftoverDevice, factoryDevice], d.nextBoot.jobId = some (Bytes.ofText "A") ∧
      (refused d).history.length = 3 ∧ (∀ x ∈ (refused d).history, x.enables = false) ∧
      (refused d).world.device.faults = .none ∧ (refused d).world.device.store.failReads = false := by
    decide +kernel
  have hinstall : ∀ d ∈ [leftoverDevice, factoryDevice],
      ((refused d).world.install Config.default none).1.toBool = true := by decide +kernel
  have hturns : ∀ d ∈ [leftoverDevice, factoryDevice],
      ((Activity.enable Config.default none none).trace (undergoing obliging)
        (refused d).world).length ≤ 12 := by decide +kernel
  have hreconciles (d : Device) (hd : d ∈ [leftoverDevice, factoryDevice]) := by
    obtain ⟨hid, -, hn, hs, hr⟩ := hfound d hd
    exact first_enable_reconciles (by simp) hn (by decide) hid
      (congrArg Faults.runningState hs) hr (Except.eq_ok_of_toBool (hinstall d hd)) none obliging (hturns d hd)
  obtain ⟨hposts, hforgotten⟩ := (hreconciles leftoverDevice (by simp)).1 rfl
  obtain ⟨hsilent, hkept, hstate⟩ := (hreconciles factoryDevice (by simp)).2 rfl
  refine ⟨rfl, rfl, by decide, fun d hd => ?_, hposts, hforgotten.mpr ?_, hsilent, hkept, hstate⟩
  · obtain ⟨hid, hlength, hn, hs, hr⟩ := hfound d hd
    exact ⟨hid, hlength, hn, hs, hr, Except.eq_ok_of_toBool (hinstall d hd)⟩
  · exact congrArg Faults.erase (hfound leftoverDevice (by simp)).2.2.2.1

def markingFirst : List (Move Agent.application) :=
  [.call .markValid, .go 0 obliging, .call (.enable Config.default none none)] ++
    List.replicate 8 (.go 1 obliging)

/-- On a factory image the leftover stays on record and nothing is reported; so it does on a valid slot that
was marked before. -/
theorem leftover_kept :
    factoryDevice.slots.running = .undefined ∧ factoryDevice.nextBoot.jobId = some (Bytes.ofText "A") ∧
    factoryDevice.faults = .none ∧ factoryDevice.store.failReads = false ∧ "A" ≠ "" ∧
    ((start Agent.application factoryDevice "1.0.0").run enabling).world.engine.enabled.isSome = true ∧
    ((start Agent.application factoryDevice "1.0.0").run enabling).world.device.network.posts = [] ∧
    ((start Agent.application factoryDevice "1.0.0").run enabling).world.nextBoot.jobId =
      some (Bytes.ofText "A") ∧
    leftoverDevice.slots.running = .valid ∧ leftoverDevice.nextBoot.jobId = some (Bytes.ofText "A") ∧
    leftoverDevice.faults = .none ∧ leftoverDevice.store.failReads = false ∧
    ((start Agent.application leftoverDevice "1.0.0").run markingFirst).world.engine.enabled.isSome = true ∧
    ((start Agent.application leftoverDevice "1.0.0").run markingFirst).world.device.network.posts = [] ∧
    ((start Agent.application leftoverDevice "1.0.0").run markingFirst).world.nextBoot.jobId =
      some (Bytes.ofText "A") := by
  decide +kernel

end Boot

end FirmwareUpdate
