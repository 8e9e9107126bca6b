import FirmwareUpdate.Proofs.FirstEnabling

/-!
# The report of a rollback

An image on trial is rolled back, and the boot goes on as it may. The next boot runs the image before it, and
its first enabling tells the service that the job was rolled back. No boot tells it again.
-/

namespace FirmwareUpdate

open Routine

variable {A : Application}

/-- Enabled where it finds a job left over, the engine reports it once and forgets it once. -/
theorem Boot.enable_leftover_once {d : Device} {version id : String} {before : List (Move A)} {config : Config}
    {handler : Option A.Handler} (h : ((start A d version).run before).world.Leftover id)
    (he : ((start A d version).run before).world.device.faults.erase = false)
    (hi : (((start A d version).run before).world.install config handler).1 = .ok ()) (test : Option A.SelfTest)
    (s : Saying) {turns : Nat} (ht : ((Activity.enable config handler test).trace (undergoing s)
      ((start A d version).run before).world).length ≤ turns) :
    let b := (start A d version).run before
    let b' := b.enable config handler test s turns
    b'.world.device.network.posts =
        b.world.device.network.posts ++ [⟨Report.path, Report.body id .rejected rollbackInfo⟩] ∧
      b'.world.device.store.eraseCount .jobId = b.world.device.store.eraseCount .jobId + 1 ∧
      b'.world.nextBoot.jobId = none := by
  intro b b'
  have hdoes : Does (undergoing s) (Activity.enable config handler test) b.world _ _ _ := Routine.does _ _
  have hretracts := Activity.retracts_enable s h hi test
  have herased : b.world.device.eraseJobId.1 = .ok () := by simp [Device.eraseJobId, b, he]
  rw [herased] at hretracts
  have hb' : b' = _ := enable_eq hdoes ht
  obtain ⟨hposts, hforgotten⟩ := enable_leftover h hi test s ht
  refine ⟨hposts, ?_, hforgotten.mpr he⟩
  -- the store counts what is in the history, which is longer by this enabling alone
  have hcounted : b.world.device.store.eraseCount .jobId = _ + b.history.countP Happening.erases :=
    (counted_run d version before).erasures
  have hcounted' := (counted_run d version
    (before ++ .call (.enable config handler test) :: List.replicate turns (.go b.tasks.length s))).erasures
  rw [run_append] at hcounted'
  change b'.world.device.store.eraseCount .jobId = _ + b'.history.countP Happening.erases at hcounted'
  have hmore : b'.history.countP Happening.erases = 1 + b.history.countP Happening.erases := by
    rw [hb', List.countP_append, List.countP_reverse, hretracts.erasures]
  omega

namespace Device

/-- An image on trial is rolled back, by whomever, before its trial is settled. Whatever is done on that
boot, its job stays on record and, if the image has failed its self-test, is never reported as a success
but by the application. The next boot finds the slot valid. Its first enabling, if nobody has judged the image
by then, reports the job as rolled back, once, and forgets it, once. Unless a job is applied, no later boot
that is enabled reports anything. -/
theorem rollback_episode {d : Device} {id : String} (hne : id ≠ "") (hd : d.slots.running = .pendingVerify)
    (hid : d.nextBoot.jobId = some (Bytes.ofText id)) (s : Session A) {later : List (Happening A)}
    {x : Happening A} {earlier : List (Happening A)} (h : (s.boot d).history = later ++ x :: earlier)
    (hx : x.rollsBack = true) (hu : ∀ y ∈ earlier, y.settles = false)
    (hs : ∀ y ∈ (s.boot d).history, y.saved? = none) :
    (s.boot d).world.nextBoot.jobId = some (Bytes.ofText id) ∧
    (∀ i w test c, .did i ⟨w, .diagnose test, .failed c⟩ ∈ (s.boot d).history →
      ∀ task deed, .did task deed ∈ (s.boot d).history →
        deed.request.Claims fun id => ∃ c, .call c ∈ s.moves ∧ c.Claims id) ∧
    (d.after [s]).slots.running = .valid ∧
    ∀ version (before : List (Move A)),
      let b := (Boot.start A (d.after [s]) version).run before
      (∀ y ∈ b.history, y.enables = false) → (∀ y ∈ b.history, y.judges = false) →
      b.world.device.faults.runningState = false → b.world.device.faults.erase = false →
      b.world.device.store.failReads = false →
      ∀ config handler test saying turns, (b.world.install config handler).1 = .ok () →
      ((Activity.enable config handler test).trace (Boot.undergoing saying) b.world).length ≤ turns →
        let b' := b.enable config handler test saying turns
        b'.world.device.network.posts =
          b.world.device.network.posts ++ [⟨Report.path, Report.body id .rejected rollbackInfo⟩] ∧
        b'.world.device.store.eraseCount .jobId = b.world.device.store.eraseCount .jobId + 1 ∧
        ∀ more life (u : Session A),
          let t : Session A := ⟨version, before ++ .call (.enable config handler test) ::
            (List.replicate turns (.go b.tasks.length saying) ++ more)⟩
          (∀ y ∈ d.past (u :: (life ++ [t, s])), y.saved? = none) →
          u.EnablesSilently (d.after (life ++ [t, s])) := by
  obtain ⟨hkept, hvalid⟩ := Session.leaves_of_rolledBack hd hid s h hx hu hs
  refine ⟨hkept, fun i w test c hf task deed => Boot.claims_of_faulted d s.version s.moves hf, hvalid, ?_⟩
  intro version before b hn hj hlegible herase hreadable config handler test saying turns hi hturns b'
  have hdormant : b.world.Dormant (d.after [s]) b.history := Boot.dormant_run _ version before hn
  obtain ⟨hstate, -, hrunning⟩ := hdormant.unjudged hj
  have hrecord : (d.after [s]).nextBoot.jobId = some (Bytes.ofText id) := (jobId_reboot _).trans hkept
  have hleft : b.world.Leftover id :=
    ⟨hstate, hrunning.trans hvalid, hlegible, hreadable, hdormant.onRecord.trans hrecord, hne⟩
  obtain ⟨hposts, herasures, hlost⟩ := Boot.enable_leftover_once hleft herase hi test saying hturns
  refine ⟨hposts, herasures, ?_⟩
  intro more life u t hunsaved
  let t₀ : Session A := ⟨version, before ++ .call (.enable config handler test) ::
    List.replicate turns (.go b.tasks.length saying)⟩
  have ht : t = t₀.goingOn more := by simp [t, t₀, Session.goingOn]
  have hboot : t₀.boot (d.after [s]) = b' := Boot.run_append _ _ _
  have hsplit (life : List (Session A)) : life ++ [t, s] = (life ++ [t₀.goingOn more]) ++ [s] := by simp [ht]
  rw [past, List.forall_mem_append, hsplit, past_append, List.forall_mem_append, after_append] at hunsaved
  rw [hsplit, after_append]
  exact Session.enablesSilently_of_lost (lost_after (hboot ▸ hlost) more life hunsaved.2.1) u hunsaved.1

def failing : Saying := ⟨none, .failed (.of "no radio"), false⟩

/-- The image fails its self-test; then the application tries to mark it valid all the same, and disables
and enables the engine. -/
def failingTest : Session Agent.application :=
  ⟨"2.0.0", .call (.enable Config.default none (some ())) :: List.replicate 8 (.go 0 failing) ++
    [.call .markValid, .go 1 Boot.obliging, .call .disable, .go 2 Boot.obliging,
      .call (.enable Config.default none none)] ++ List.replicate 4 (.go 3 Boot.obliging)⟩

def refusing : List (Move Agent.application) :=
  [.disturb cutOff, .call .fetch, .go 0 Boot.obliging, .go 0 Boot.obliging]

def sequel (ms : List (Move Agent.application)) : Boot Agent.application :=
  (Boot.start Agent.application (Boot.trialDevice.after [failingTest]) "1.0.0").run ms

def retracting : Session Agent.application :=
  ⟨"1.0.0", refusing ++ .call (.enable Config.default none none) :: (List.replicate 12 (.go 1 Boot.obliging) ++ [])⟩

def enablingAgain : Session Agent.application := Session.enabling "1.0.0" Config.default none none 12 Boot.obliging

def faulting : Happening A → Bool
  | .did _ ⟨_, .diagnose _, .failed _⟩ => true
  | _ => false

theorem exists_of_faulting {history : List (Happening A)} (h : history.any faulting = true) :
    ∃ i w test c, .did i ⟨w, .diagnose test, .failed c⟩ ∈ history := by
  obtain ⟨x, hx, hp⟩ := List.any_eq_true.mp h
  unfold faulting at hp
  split at hp
  · rename_i i w test c
    exact ⟨i, w, test, c, hx⟩
  · cases hp

theorem rollback_episode_failingTest :
    "A" ≠ "" ∧ Boot.trialDevice.slots.running = .pendingVerify ∧
    Boot.trialDevice.nextBoot.jobId = some (Bytes.ofText "A") ∧
    (∃ later x earlier, (failingTest.boot Boot.trialDevice).history = later ++ x :: earlier ∧
      x.rollsBack = true ∧ ∀ y ∈ earlier, y.settles = false) ∧
    (∀ y ∈ (failingTest.boot Boot.trialDevice).history, y.saved? = none) ∧
    (∃ i w test c, .did i ⟨w, .diagnose test, .failed c⟩ ∈ (failingTest.boot Boot.trialDevice).history) ∧
    (∀ y ∈ Boot.trialDevice.past [enablingAgain, retracting, failingTest], y.saved? = none) ∧
    (failingTest.boot Boot.trialDevice).world.nextBoot.jobId = some (Bytes.ofText "A") ∧
    (∀ task deed, .did task deed ∈ (failingTest.boot Boot.trialDevice).history →
      deed.request.Claims fun id => ∃ c, .call c ∈ failingTest.moves ∧ c.Claims id) ∧
    (Boot.trialDevice.after [failingTest]).slots.running = .valid ∧
    (sequel refusing).history ≠ [] ∧
    (∀ y ∈ (sequel refusing).history, y.enables = false) ∧ (∀ y ∈ (sequel refusing).history, y.judges = false) ∧
    ((sequel refusing).enable Config.default none none Boot.obliging 12).world.device.network.posts =
      (sequel refusing).world.device.network.posts ++ [⟨Report.path, Report.body "A" .rejected rollbackInfo⟩] ∧
    ((sequel refusing).enable Config.default none none Boot.obliging 12).world.device.store.eraseCount .jobId =
      (sequel refusing).world.device.store.eraseCount .jobId + 1 ∧
    enablingAgain.EnablesSilently (Boot.trialDevice.after [retracting, failingTest]) := by
  have hne : "A" ≠ "" := by decide
  have hd : Boot.trialDevice.slots.running = .pendingVerify := by decide
  have hid : Boot.trialDevice.nextBoot.jobId = some (Bytes.ofText "A") := by decide
  have hrolled : ∃ x ∈ (failingTest.boot Boot.trialDevice).history, x.rollsBack = true := by decide +kernel
  have hunsettled : ∀ y ∈ (failingTest.boot Boot.trialDevice).history, y.settles = false := by decide +kernel
  have hunsaved : ∀ y ∈ (failingTest.boot Boot.trialDevice).history, y.saved? = none := by decide +kernel
  have hfaulted : (failingTest.boot Boot.trialDevice).history.any faulting = true := by decide +kernel
  have hbefore : (sequel refusing).history ≠ [] ∧ (∀ y ∈ (sequel refusing).history, y.enables = false) ∧
      ∀ y ∈ (sequel refusing).history, y.judges = false := by decide +kernel
  have hfine : (sequel refusing).world.device.faults.runningState = false ∧
      (sequel refusing).world.device.faults.erase = false ∧
      (sequel refusing).world.device.store.failReads = false := by decide +kernel
  have hinstall : ((sequel refusing).world.install Config.default none).1 = .ok () :=
    Except.eq_ok_of_toBool (by decide +kernel)
  have hturns : ((Activity.enable Config.default none none).trace (Boot.undergoing Boot.obliging)
      (sequel refusing).world).length ≤ 12 := by decide +kernel
  have hsince : ∀ y ∈ Boot.trialDevice.past [enablingAgain, retracting, failingTest], y.saved? = none := by
    decide +kernel
  obtain ⟨x, hmem, hx⟩ := hrolled
  obtain ⟨later, earlier, h⟩ := List.append_of_mem hmem
  obtain ⟨i, w, test, c, hf⟩ := exists_of_faulting hfaulted
  have hu : ∀ y ∈ earlier, y.settles = false := fun y hy => hunsettled y (by simp [h, hy])
  obtain ⟨hkept, hclaims, hvalid, hnext⟩ := rollback_episode hne hd hid failingTest h hx hu hunsaved
  obtain ⟨hposts, herasures, hsilent⟩ := hnext "1.0.0" refusing hbefore.2.1 hbefore.2.2 hfine.1 hfine.2.1 hfine.2.2
    Config.default none none Boot.obliging 12 hinstall hturns
  exact ⟨hne, hd, hid, ⟨later, x, earlier, h, hx, hu⟩, hunsaved, ⟨i, w, test, c, hf⟩, hsince, hkept,
    hclaims i w test c hf, hvalid, hbefore.1, hbefore.2.1, hbefore.2.2, hposts, herasures,
    hsilent [] [] enablingAgain hsince⟩

/-- The confirmation has settled the trial and is about to forget the job when the application marks the image
invalid. -/
def condemning : Session Agent.application :=
  ⟨"2.0.0", Boot.enabling ++ .attempt :: List.replicate 5 (.go 1 Boot.obliging) ++
    [.call .markInvalid, .go 2 Boot.obliging]⟩

def forgetting : Session Agent.application := condemning.goingOn (List.replicate 2 (.go 1 Boot.obliging))

/-- An image that is rolled back while its confirmation, which has settled the trial, is at its last steps leaves no
job to report. One whose trial is not settled leaves its job, and the next boot does not report it if the image
that it runs is marked valid before the first enabling. -/
theorem rollback_unreported :
    Boot.trialDevice.slots.running = .pendingVerify ∧
    Boot.trialDevice.nextBoot.jobId = some (Bytes.ofText "A") ∧
    ((condemning.boot Boot.trialDevice).history.head?.any (·.rollsBack) = true ∧
      (condemning.boot Boot.trialDevice).tasks[1]?.any Task.attempting = true ∧
      (∀ y ∈ (forgetting.boot Boot.trialDevice).history, y.saved? = none) ∧
      (forgetting.boot Boot.trialDevice).world.nextBoot.jobId = none ∧
      (Boot.trialDevice.after [forgetting]).slots.running = .valid ∧
      ⟨Report.path, Report.body "A" .rejected rollbackInfo⟩ ∉
        (enablingAgain.boot (Boot.trialDevice.after [forgetting])).world.device.network.posts) ∧
    ((failingTest.boot Boot.trialDevice).history.any (·.rollsBack) = true ∧
      (∀ y ∈ (failingTest.boot Boot.trialDevice).history, y.settles = false ∧ y.saved? = none) ∧
      (Boot.trialDevice.after [failingTest]).slots.running = .valid ∧
      (sequel Boot.markingFirst).world.engine.enabled.isSome = true ∧
      (sequel Boot.markingFirst).tasks.all (·.next?.isNone) = true ∧
      (sequel Boot.markingFirst).world.device.network.posts =
        (Boot.trialDevice.after [failingTest]).network.posts ∧
      (sequel Boot.markingFirst).world.nextBoot.jobId = some (Bytes.ofText "A")) := by
  decide +kernel

/-- The timer rolls the image back while the confirmation waits for an answer, which comes too late. -/
def expiringMeanwhile : Session Agent.application :=
  ⟨"2.0.0", Boot.enabling ++ [.attempt, .go 1 Boot.obliging, .fire 1] ++ List.replicate 6 (.go 1 Boot.obliging)⟩

/-- The success has been reported all the same, before the next boot reports the rollback. -/
example : (retracting.boot (Boot.trialDevice.after [expiringMeanwhile])).world.device.network.posts =
    [⟨Report.path, Report.body "A" .success Activity.confirmationInfo⟩,
      ⟨Report.path, Report.body "A" .rejected rollbackInfo⟩] := by
  decide +kernel

end Device

end FirmwareUpdate
