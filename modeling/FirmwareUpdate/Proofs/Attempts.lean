import FirmwareUpdate.Proofs.Ledger
import FirmwareUpdate.Proofs.Lives
import FirmwareUpdate.Proofs.TrialDecisions

/-!
# Attempts to confirm

An image on trial is confirmed by reporting its success until the service acknowledges a report. An
attempt that fails leaves nothing behind but its report, and not even that if the job id could not be
read. The one that is acknowledged settles the trial.
-/

namespace FirmwareUpdate

open Routine

variable {A : Application}

/-! ## Talk -/

def Effect.Talks : Effect A → Prop
  | .post .. | .loadJobId | .note _ | .diagnose _ | .validationState | .confirmCancelled => True
  | _ => False

namespace World

structure Passive (w w' : World A) : Prop where
  engine : w'.engine = w.engine
  store : w'.device.store = w.device.store
  slots : w'.device.slots = w.device.slots
  timers : w'.device.timers = w.device.timers
  faults : w'.device.faults = w.device.faults

theorem Passive.refl (w : World A) : Passive w w := ⟨rfl, rfl, rfl, rfl, rfl⟩

theorem Passive.trans {w w₁ w₂ : World A} (h : Passive w w₁) (h' : Passive w₁ w₂) : Passive w w₂ where
  engine := h'.engine.trans h.engine
  store := h'.store.trans h.store
  slots := h'.slots.trans h.slots
  timers := h'.timers.trans h.timers
  faults := h'.faults.trans h.faults

theorem passive_undergo (w : World A) (s : Saying) {e : Effect A} (h : e.Talks) : Passive w (w.undergo s e).2 := by
  cases e <;> first | exact h.elim | exact ⟨rfl, rfl, rfl, rfl, rfl⟩

end World

open World

theorem passive_of_does {α : Type} {s : Saying} {p : Activity A α} {w w' : World A} {t : List (Deed A)}
    {o : Option α} (h : Does (Boot.undergoing s) p w t o w') (hp : p.Only Effect.Talks) : Passive w w' := by
  have htalks : ∀ d ∈ t, d.request.Talks := h.trace_eq ▸ (ran_trace _ p w).only hp
  exact h.preserves htalks (fun e w₁ he hw => hw.trans (w₁.passive_undergo s he)) (.refl w)

/-! ## One attempt -/

def acknowledged : List Reply → Bool
  | [] => true
  | .answer response :: _ => response.ok
  | .lost _ :: _ => false

/-- Whether an attempt to confirm would succeed. It fails if the id cannot be read, the answer is not a 200,
or there is none. -/
def Device.acknowledges (d : Device) : Bool := !d.store.failReads && acknowledged d.network.postReplies

def confirmation (id : String) : Post := ⟨Report.path, Report.body id .success Activity.confirmationInfo⟩

def Device.confirmations (d : Device) (id : String) : List Post :=
  List.replicate (!d.store.failReads).toNat (confirmation id)

/-- A store that has an id on record loads it, or cannot be read. -/
theorem Store.loadJobId_cases {s : Store} {id : String} (h : s.raw .jobId = some (Bytes.ofText id))
    (hne : id ≠ "") : s.failReads = true ∧ (∃ c, s.loadJobId = .error c) ∨
      s.failReads = false ∧ s.loadJobId = .ok (some id) := by
  cases hf : s.failReads with
  | true =>
    refine .inl ⟨rfl, ?_⟩
    unfold loadJobId
    rw [read_refused _ hf]
    exact ⟨_, rfl⟩
  | false => exact .inr ⟨rfl, loadJobId_of_raw hf h hne⟩

def World.concluded (w : World A) : World A :=
  (⟨w.settleTrial.2.device.eraseJobId.2, w.settleTrial.2.engine⟩ : World A).note .validated

namespace Activity

theorem reportResult_post (d : Device) (path : String) (body : Bytes) :
    (reportResult (some (d.post path body).1)).map Except.toBool = some (acknowledged d.network.postReplies) := by
  unfold Device.post Network.post acknowledged
  cases d.network.postReplies with
  | nil => rfl
  | cons r rest =>
    cases r with
    | lost why => rfl
    | answer response =>
      simp only [Reply.result, reportResult, Option.map_some]
      by_cases hok : response.ok <;> simp [hok, Except.toBool]

variable {w : World A} {id : String}

theorem does_reportPersisted (hid : w.nextBoot.jobId = some (Bytes.ofText id)) (hne : id ≠ "") :
    ∃ t r w', Does (Boot.undergoing Boot.obliging) (reportPersisted .success confirmationInfo : Activity A _) w
      t (some r) w' ∧ r.toBool = w.device.acknowledges ∧ t.length ≤ 3 ∧
        t.filterMap (·.request.post?) = w.device.confirmations id := by
  have hread : Does (Boot.undergoing Boot.obliging) (perform .loadJobId) w
    [⟨w, .loadJobId, w.device.store.loadJobId⟩] (some w.device.store.loadJobId) w := .request _ w
  unfold reportPersisted Device.acknowledges Device.confirmations
  rcases Store.loadJobId_cases hid hne with ⟨hf, c, hc⟩ | ⟨hf, hloaded⟩
  · rw [hc] at hread
    rw [hf]
    exact ⟨_, _, _, hread.bind (.done _ _), rfl, by simp, rfl⟩
  · rw [hloaded] at hread
    rw [hf]
    obtain ⟨notes, w', hreport, hlen, hnotes⟩ :=
      does_reportFor Boot.obliging id .success confirmationInfo w
    have hresult := reportResult_post w.device Report.path (Report.body id .success confirmationInfo)
    change Does _ _ _ _ (reportResult (some (w.device.post Report.path _).1)) _ at hreport
    obtain ⟨r, hr, hok⟩ := Option.map_eq_some_iff.mp hresult
    rw [hr] at hreport
    refine ⟨_, r, w', hread.bind hreport, ?_, ?_, ?_⟩
    · simp [hok]
    · simp
      omega
    · have hnone := filterMap_post?_of_not_outward hnotes
      simp only [List.cons_append, List.nil_append, List.filterMap_cons, hnone]
      rfl

theorem does_reportSuccess (attempt interval : Nat) (hid : w.nextBoot.jobId = some (Bytes.ofText id))
    (hne : id ≠ "") :
    ∃ t w', Does (Boot.undergoing Boot.obliging) (reportSuccess attempt interval : Activity A _) w t
      (some w.device.acknowledges) w' ∧ t.length ≤ 4 ∧ Passive w w' ∧
        w'.device.network.posts = w.device.network.posts ++ w.device.confirmations id := by
  obtain ⟨t, r, w₁, hreport, hok, hlen, hposts⟩ := does_reportPersisted hid hne
  have htold : ∃ e, Does (Boot.undergoing Boot.obliging) (reportSuccess attempt interval : Activity A _) w
      (t ++ [⟨w₁, .note e, ()⟩]) (some w.device.acknowledges) (w₁.note e) := by
    unfold reportSuccess
    rw [← hok]
    match r with
    | .ok () => exact ⟨_, hreport.bind ((does_note _ _ w₁).bind (.done true _))⟩
    | .error c => exact ⟨_, hreport.bind ((does_note _ _ w₁).bind (.done false _))⟩
  obtain ⟨e, hdoes⟩ := htold
  refine ⟨_, _, hdoes, ?_, ?_, ?_⟩
  · rw [List.length_append]
    exact Nat.succ_le_succ hlen
  · exact passive_of_does hdoes (only_reportSuccess trivial (fun _ _ => trivial) (fun _ => trivial) _ _)
  · rw [posts_of_does hdoes, List.filterMap_append, hposts]
    simp only [List.filterMap_cons, List.filterMap_nil, Effect.post?, List.append_nil]

/-- An attempt that fails is to be made again. -/
theorem does_confirmAttempt_failed (attempt interval : Nat) (hid : w.nextBoot.jobId = some (Bytes.ofText id))
    (hne : id ≠ "") (hf : w.device.acknowledges = false) (hc : w.engine.validation.confirmCancelled = false) :
    ∃ t w', Does (Boot.undergoing Boot.obliging) (confirmAttempt attempt interval : Activity A _) w t
      (some .retry) w' ∧ t.length ≤ 8 ∧ Passive w w' ∧
        w'.device.network.posts = w.device.network.posts ++ w.device.confirmations id := by
  obtain ⟨t, w', hreport, hlen, hpassive, hposts⟩ := does_reportSuccess attempt interval hid hne
  have hasked : Does (Boot.undergoing Boot.obliging) (perform .confirmCancelled) w'
    [⟨w', .confirmCancelled, w'.engine.validation.confirmCancelled⟩]
    (some w'.engine.validation.confirmCancelled) w' := .request _ w'
  rw [hf] at hreport
  rw [hpassive.engine, hc] at hasked
  refine ⟨_, w', hreport.bind (hasked.bind (.done Attempt.retry w')), ?_, hpassive, hposts⟩
  simp
  omega

theorem does_concludeTrial (s : Saying) (hi : w.engine.validation.state ≠ .invalid)
    (he : w.device.faults.erase = false) :
    ∃ t, Does (Boot.undergoing s) (concludeTrial : Activity A _) w t (some ()) w.concluded ∧ t.length ≤ 3 := by
  have hsettle : Does (Boot.undergoing s) (perform .settleTrial) w
    [⟨w, .settleTrial, w.settleTrial.1⟩] (some w.settleTrial.1) w.settleTrial.2 := .request _ w
  have hinward := w.trialStep_settleTrial.toInward
  rw [fst_settleTrial hi] at hsettle
  unfold World.concluded
  generalize w.settleTrial.2 = w₁ at hsettle hinward ⊢
  have herase : Does (Boot.undergoing s) (perform .eraseJobId) w₁
    [⟨w₁, .eraseJobId, w₁.device.eraseJobId.1⟩] (some w₁.device.eraseJobId.1)
    ⟨w₁.device.eraseJobId.2, w₁.engine⟩ := .request _ w₁
  have hok : w₁.device.eraseJobId.1 = .ok () := by simp [Device.eraseJobId, hinward.faults, he]
  rw [hok] at herase
  have hforget : Does (Boot.undergoing s) (forgetJobId : Activity A _) w₁ _ _ _ := herase.bind (.done () _)
  exact ⟨_, hsettle.bind (hforget.bind (does_note s .validated _)), by simp⟩

/-- An attempt that is acknowledged settles the trial and forgets the job. -/
theorem does_confirmAttempt_acknowledged (attempt interval : Nat)
    (hid : w.nextBoot.jobId = some (Bytes.ofText id)) (hne : id ≠ "") (ha : w.device.acknowledges = true)
    (hi : w.engine.validation.state ≠ .invalid) (he : w.device.faults.erase = false) :
    ∃ t w₁, Does (Boot.undergoing Boot.obliging) (confirmAttempt attempt interval : Activity A _) w t
      (some .confirmed) w₁.concluded ∧ t.length ≤ 8 ∧ Passive w w₁ ∧
        w₁.device.network.posts = w.device.network.posts ++ w.device.confirmations id := by
  obtain ⟨t, w₁, hreport, hlen, hpassive, hposts⟩ := does_reportSuccess attempt interval hid hne
  rw [ha] at hreport
  obtain ⟨u, hconclude, hlen'⟩ :=
    does_concludeTrial Boot.obliging (w := w₁) (by rwa [hpassive.engine]) (by rwa [hpassive.faults])
  refine ⟨_, w₁, hreport.bind (hconclude.bind (.done Attempt.confirmed _)), ?_, hpassive, hposts⟩
  simp
  omega

end Activity

/-! ## What an attempt leaves -/

namespace World

/-- The image is still on trial, as it was on the given device, and its rollback timer will go off. So
many reports of success have been sent since. -/
structure Trying (d : Device) (id : String) (timer : TimerId) (sent : Nat) (w : World A) : Prop where
  onTrial : w.OnTrial
  uncancelled : w.engine.validation.confirmCancelled = false
  held : w.engine.validation.rollbackTimer = some timer
  armed : w.device.timers.fuse timer = true
  running : w.device.slots.running = .pendingVerify
  image : w.device.slots.image = d.slots.image
  marks : w.device.slots.markValidCalls = d.slots.markValidCalls
  onRecord : w.nextBoot.jobId = some (Bytes.ofText id)
  erasures : w.device.store.eraseCount .jobId = d.store.eraseCount .jobId
  posts : w.device.network.posts = d.network.posts ++ List.replicate sent (confirmation id)

structure Confirmed (d : Device) (id : String) (timer : TimerId) (sent : Nat) (w : World A) : Prop where
  marked : w.MarkedValid
  unheld : w.engine.validation.rollbackTimer = none
  cancelled : w.device.timers[timer]?.map (·.state) = some .cancelled
  image : w.device.slots.image = d.slots.image
  marks : w.device.slots.markValidCalls = d.slots.markValidCalls + 1
  forgotten : w.nextBoot.jobId = none
  erasures : w.device.store.eraseCount .jobId = d.store.eraseCount .jobId + 1
  posts : w.device.network.posts = d.network.posts ++ List.replicate sent (confirmation id)

section
variable {d : Device} {id : String} {timer : TimerId} {sent : Nat} {w w' : World A}

theorem Trying.of_passive (h : w.Trying d id timer sent) (hp : Passive w w') {more : Nat}
    (hposts : w'.device.network.posts = w.device.network.posts ++ List.replicate more (confirmation id)) :
    w'.Trying d id timer (sent + more) where
  onTrial := by
    unfold OnTrial
    rw [hp.engine]
    exact h.onTrial
  uncancelled := by rw [hp.engine, h.uncancelled]
  held := by rw [hp.engine, h.held]
  armed := by rw [hp.timers, h.armed]
  running := by rw [hp.slots, h.running]
  image := by rw [hp.slots, h.image]
  marks := by rw [hp.slots, h.marks]
  onRecord := by
    rw [← h.onRecord]
    exact congrArg (·.raw .jobId) hp.store
  erasures := by rw [hp.store, h.erasures]
  posts := by rw [hposts, h.posts, List.append_assoc, List.replicate_append_replicate]

def surround (w : World A) (s : Surroundings) : World A := { w with device := w.device.surround s }

theorem Trying.surround (h : w.Trying d id timer sent) (s : Surroundings) :
    (w.surround s).Trying d id timer sent :=
  ⟨h.onTrial, h.uncancelled, h.held, h.armed, h.running, h.image, h.marks, h.onRecord, h.erasures, h.posts⟩

theorem Trying.withConfirmation (h : w.Trying d id timer sent) (c : Option Confirmation) :
    Trying d id timer sent (w.withConfirmation c) :=
  ⟨h.onTrial, h.uncancelled, h.held, h.armed, h.running, h.image, h.marks, h.onRecord, h.erasures, h.posts⟩

theorem Confirmed.withConfirmation (h : w.Confirmed d id timer sent) (c : Option Confirmation) :
    (w.withConfirmation c).Confirmed d id timer sent :=
  ⟨⟨h.marked.running, h.marked.valid, h.marked.state⟩, h.unheld, h.cancelled, h.image, h.marks, h.forgotten,
    h.erasures, h.posts⟩

theorem Trying.undecided (h : w.Trying d id timer sent) : w.Undecided :=
  ⟨h.running, h.onTrial.2, .inr h.onTrial.1⟩

theorem Trying.pending (h : w.Trying d id timer sent) : w.rollbackPending = true := by
  simp [rollbackPending, h.held, h.armed]

theorem Trying.concluded (h : w.Trying d id timer sent) (hf : w.device.faults.markValid = false)
    (he : w.device.faults.erase = false) : w.concluded.Confirmed d id timer sent := by
  have hi : w.engine.validation.state ≠ .invalid := by simp [h.onTrial.1]
  have hmarked := (h.undecided.settleTrial hf).1
  have hinward := w.trialStep_settleTrial.toInward
  have hslots := slots_settleTrial hi
  have htimers := timers_settleTrial hi
  have hvalidation := validation_settleTrial hi
  unfold World.concluded
  generalize w.settleTrial.2 = w₁ at *
  have hdevice : w₁.device.eraseJobId.2 =
      { w₁.device with store := w₁.device.store.erase .jobId }.note .jobIdErased := by
    simp [Device.eraseJobId, hinward.faults, he]
  rw [hdevice]
  have hcalled : w.device.markValid.2.slots =
      { w.device.slots with markValidCalls := w.device.slots.markValidCalls + 1, running := .valid } := by
    simp [Device.markValid, hf, Slots.markValid, h.running]
  have hgivenUp : w.timersGivenUp = w.device.timers.setState timer .cancelled := by
    simp [timersGivenUp, h.held, Timers.cancel, Timers.isArmed_of_fuse h.armed]
  refine ⟨⟨hmarked.running, hmarked.valid, hmarked.state⟩, ?_, ?_, ?_, ?_, ?_, ?_, ?_⟩
  · exact congrArg (·.rollbackTimer) hvalidation
  · change w₁.device.timers[timer]?.map (·.state) = some .cancelled
    rw [htimers, hgivenUp, Timers.getElem?_setState, if_pos rfl]
    obtain ⟨t, ht, -⟩ := (Option.any_eq_true _ _).mp h.armed
    simp [ht]
  · change w₁.device.slots.image = _
    rw [hslots, hcalled]
    exact h.image
  · change w₁.device.slots.markValidCalls = _
    rw [hslots, hcalled, ← h.marks]
  · exact (w₁.device.store.raw_erase .jobId .jobId).trans (if_pos rfl)
  · change (w₁.device.store.erase .jobId).eraseCount .jobId = _
    rw [hinward.store, ← h.erasures]
    simp [Store.eraseCount, Store.erase]
  · change w₁.device.network.posts = _
    rw [hinward.network, h.posts]

end

end World

/-! ## Attempts in a row -/

def Surroundings.acknowledge (s : Surroundings) : Bool := !s.failReads && acknowledged s.postReplies

namespace Boot

/-- One attempt with nothing in between, as the task of the given number. Then the time for the next one
has come. -/
def attempting (task : Nat) (s : Surroundings) : List (Move A) :=
  [.disturb s, .attempt] ++ List.replicate 8 (.go task obliging) ++ [.wake]

def attempts : (task : Nat) → List Surroundings → List (Move A)
  | _, [] => []
  | task, s :: rest => attempting task s ++ attempts (task + 1) rest

theorem attempts_append (task : Nat) (before after : List Surroundings) :
    (attempts task (before ++ after) : List (Move A)) =
      attempts task before ++ attempts (task + before.length) after := by
  induction before generalizing task with
  | nil => rfl
  | cons s before ih =>
    rw [List.cons_append, attempts, attempts, ih, List.append_assoc, List.length_cons, Nat.add_right_comm,
      Nat.add_assoc]

theorem world_wake (b : Boot A) : ∃ c, b.wake.world = b.world.withConfirmation c := by
  unfold wake
  dsimp only
  split
  · split
    · exact ⟨_, rfl⟩
    · exact ⟨b.world.engine.validation.confirmation, rfl⟩
  · exact ⟨b.world.engine.validation.confirmation, rfl⟩

structure Poised (d : Device) (id : String) (timer : TimerId) (sent : Nat) (b : Boot A) : Prop where
  trying : b.world.Trying d id timer sent
  confirmation : ∃ interval made, b.world.engine.validation.confirmation = some ⟨interval, made, .poised⟩
  idle : b.tasks.any Task.attempting = false

variable {d : Device} {id : String} {timer : TimerId} {sent : Nat} {b : Boot A}

/-- An attempt is one task more; the world learns how it ended. -/
theorem run_attempting {interval made : Nat}
    (hc : b.world.engine.validation.confirmation = some ⟨interval, made, .poised⟩)
    (hidle : b.tasks.any Task.attempting = false) (s : Surroundings) {t : List (Deed A)} {r : Activity.Attempt}
    {w : World A} (hdoes : Does (undergoing obliging) (Activity.confirmAttempt (made + 1) interval)
      (b.world.surround s) t (some r) w) (hlen : t.length ≤ 8) :
    b.run (attempting b.tasks.length s) = (⟨w.afterAttempt (.done r), b.tasks ++ [.attempt (.done r)],
      (t.map (Happening.did b.tasks.length)).reverse ++ b.history⟩ : Boot A).wake := by
  have hbegun : b.run [.disturb s, .attempt] = ⟨b.world.surround s,
      b.tasks ++ [.attempt (Activity.confirmAttempt (made + 1) interval)], b.history⟩ := by
    change (b.step (.disturb s)).beginAttempt = _
    simp [beginAttempt, step, hc, hidle, World.surround]
  have halone := Task.alone_attempt obliging (Activity.confirmAttempt (made + 1) interval) (b.world.surround s)
  rw [hdoes.trace_eq, hdoes.run_eq] at halone
  rw [attempting, run_append, run_append, hbegun, run_task List.getElem?_concat_length halone hlen]
  simp [run, step, ended]

/-- After an attempt that is to be made again the next one is due. -/
theorem run_attempting_retry {interval made : Nat}
    (hc : b.world.engine.validation.confirmation = some ⟨interval, made, .poised⟩)
    (hidle : b.tasks.any Task.attempting = false) (s : Surroundings) {t : List (Deed A)} {w : World A}
    (hdoes : Does (undergoing obliging) (Activity.confirmAttempt (made + 1) interval) (b.world.surround s) t
      (some .retry) w) (hlen : t.length ≤ 8) (he : w.engine = b.world.engine)
    (hu : w.engine.validation.confirmCancelled = false) :
    b.run (attempting b.tasks.length s) = ⟨w.withConfirmation (some ⟨interval, made + 1, .poised⟩),
      b.tasks ++ [.attempt (.done .retry)], (t.map (Happening.did b.tasks.length)).reverse ++ b.history⟩ := by
  have hresting : w.afterAttempt (.done .retry) = w.withConfirmation (some ⟨interval, made + 1, .resting⟩) := by
    simp [afterAttempt, attempted, withConfirmation, he, hc]
  rw [run_attempting hc hidle s hdoes hlen, hresting]
  simp [wake, withConfirmation, withValidation, hu]

theorem Poised.attempting_failed (h : b.Poised d id timer sent) (hne : id ≠ "") {s : Surroundings}
    (hs : s.acknowledge = false) : (b.run (attempting b.tasks.length s)).Poised d id timer
      (sent + (!s.failReads).toNat) ∧ (b.run (attempting b.tasks.length s)).tasks.length = b.tasks.length + 1 := by
  obtain ⟨interval, made, hc⟩ := h.confirmation
  have htrying := h.trying.surround s
  obtain ⟨t, w, hdoes, hlen, hpassive, hposts⟩ :=
    Activity.does_confirmAttempt_failed (made + 1) interval htrying.onRecord hne hs htrying.uncancelled
  have hafter := htrying.of_passive hpassive hposts
  rw [run_attempting_retry hc h.idle s hdoes hlen hpassive.engine hafter.uncancelled]
  refine ⟨⟨hafter.withConfirmation _, ⟨interval, made + 1, rfl⟩, ?_⟩, by simp⟩
  simp [h.idle, Task.attempting]

/-- Failed attempts change nothing but the count of what has been sent. -/
theorem Poised.attempts_failed (h : b.Poised d id timer sent) (hne : id ≠ "") {setbacks : List Surroundings}
    (hs : ∀ s ∈ setbacks, s.acknowledge = false) :
    (b.run (attempts b.tasks.length setbacks)).Poised d id timer (sent + setbacks.countP (!·.failReads)) ∧
      (b.run (attempts b.tasks.length setbacks)).tasks.length = b.tasks.length + setbacks.length := by
  induction setbacks generalizing b sent with
  | nil => exact ⟨h, rfl⟩
  | cons s rest ih =>
    rw [List.forall_mem_cons] at hs
    obtain ⟨hpoised, hlen⟩ := h.attempting_failed hne hs.1
    have hrest := ih hpoised hs.2
    rw [hlen] at hrest
    rw [attempts, run_append, countP_cons_toNat, List.length_cons, Nat.add_comm (rest.countP _),
      Nat.add_comm rest.length, ← Nat.add_assoc, ← Nat.add_assoc]
    exact hrest

theorem Poised.attempting_acknowledged (h : b.Poised d id timer sent) (hne : id ≠ "") {s : Surroundings}
    (hs : s.acknowledge = true) (hf : s.faults.markValid = false) (he : s.faults.erase = false) :
    (b.run (attempting b.tasks.length s)).world.Confirmed d id timer (sent + (!s.failReads).toNat) := by
  obtain ⟨interval, made, hc⟩ := h.confirmation
  have htrying := h.trying.surround s
  have hi : (b.world.surround s).engine.validation.state ≠ .invalid := by simp [htrying.onTrial.1]
  obtain ⟨t, w, hdoes, hlen, hpassive, hposts⟩ :=
    Activity.does_confirmAttempt_acknowledged (made + 1) interval htrying.onRecord hne hs hi he
  have hafter := (htrying.of_passive hpassive hposts).concluded (by rwa [hpassive.faults])
    (by rwa [hpassive.faults])
  rw [run_attempting hc h.idle s hdoes hlen]
  -- what is left to do is to write down that the attempts are over
  obtain ⟨c, hover⟩ := Turn.afterAttempt w.concluded (.done .confirmed)
  obtain ⟨c', hwoken⟩ := world_wake ⟨w.concluded.afterAttempt (.done .confirmed),
    b.tasks ++ [.attempt (.done .confirmed)], (t.map (Happening.did b.tasks.length)).reverse ++ b.history⟩
  rw [hwoken, hover]
  exact (hafter.withConfirmation c).withConfirmation c'

/-- However many attempts fail, one that is acknowledged confirms the image. -/
theorem Poised.attempts_acknowledged (h : b.Poised d id timer sent) (hne : id ≠ "")
    {setbacks : List Surroundings} (hs : ∀ s ∈ setbacks, s.acknowledge = false) {last : Surroundings}
    (hlast : last.acknowledge = true) (hf : last.faults.markValid = false) (he : last.faults.erase = false) :
    (b.run (attempts b.tasks.length (setbacks ++ [last]))).world.Confirmed d id timer
      (sent + (setbacks ++ [last]).countP (!·.failReads)) := by
  obtain ⟨hpoised, hlen⟩ := h.attempts_failed hne hs
  have hconfirmed := hpoised.attempting_acknowledged hne hlast hf he
  rw [hlen] at hconfirmed
  rw [attempts_append, run_append, attempts, attempts, List.append_nil, List.countP_append, ← Nat.add_assoc,
    countP_cons_toNat, List.countP_nil, Nat.zero_add]
  exact hconfirmed

/-! ## In between -/

/-- A rollback timer that is pending later on has been pending all along. -/
theorem pending_of_later (hw : b.world.Timed) (hp : b.world.rollbackPending = true) {ms rest : List (Move A)}
    (hlater : (b.run (ms ++ rest)).world.rollbackPending = true) :
    (b.run ms).world.rollbackPending = true := by
  obtain ⟨since, hsince, hiff⟩ := pending_run hw hp ms
  obtain ⟨all, hall, hiff'⟩ := pending_run hw hp (ms ++ rest)
  obtain ⟨later, hhistory⟩ := (b.run ms).history_run rest
  rw [← run_append, hall, hsince, ← List.append_assoc] at hhistory
  obtain rfl := List.append_cancel_right hhistory
  exact hiff.mpr fun x hx => hiff'.mp hlater x (List.mem_append_right _ hx)

theorem Poised.onTrial_of_prefix (h : b.Poised d id timer sent) (hw : b.world.Timed) (hne : id ≠ "")
    {setbacks : List Surroundings} (hs : ∀ s ∈ setbacks, s.acknowledge = false) {ms : List (Move A)}
    (hm : ms <+: attempts b.tasks.length setbacks) :
    (b.run ms).world.OnTrial ∧ (b.run ms).world.rollbackPending = true := by
  obtain ⟨rest, hrest⟩ := hm
  have hend := (h.attempts_failed hne hs).1.trying.pending
  rw [← hrest] at hend
  have hpending := pending_of_later hw h.trying.pending hend
  have htimed : (b.run ms).world.Timed :=
    run_turns (P := fun w _ => w.Timed) (fun ht hw => (ht.net hw).1) hw ms
  obtain ⟨id, hfuse⟩ := htimed.pending_iff.mp hpending
  exact ⟨htimed.onTrial id hfuse, hpending⟩

end Boot

end FirmwareUpdate
