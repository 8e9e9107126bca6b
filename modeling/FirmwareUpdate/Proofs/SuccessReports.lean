import FirmwareUpdate.Proofs.Commits
import FirmwareUpdate.Proofs.FetchConduct

/-!
# Whom a report of success names

Only the confirmation task reports success, and every attempt of it reads the stored job id anew. So
a report names the job whose id was saved last before that read, whether its image runs or not.
-/

namespace FirmwareUpdate

open Routine

variable {A : Application}

/-! ## What is not a report of success -/

def Effect.Unclaiming (e : Effect A) : Prop :=
  ∀ id info, e ≠ .post Report.path (Report.body id .success info)

namespace Activity

abbrev Modest {α : Type} (p : Activity A α) : Prop := p.Only Effect.Unclaiming

theorem modest_perform {e : Effect A} (h : ∀ path body, e ≠ .post path body) : (perform e).Modest :=
  .request fun _ _ => h _ _

theorem modest_note (e : Event) : (note e : Activity A Unit).Modest := modest_perform nofun

theorem modest_reportFor {status : JobStatus} (h : status ≠ .success) (id info : String) :
    (reportFor id status info : Activity A _).Modest := by
  have hrequest : Effect.Unclaiming (.post (A := A) Report.path (Report.body id status info)) := by
    intro id' info' he
    injection he with _ hb
    exact h (Report.body_inj hb).2
  have hpost : (post Report.path (Report.body id status info) : Activity A _).Modest :=
    (Only.request hrequest).bind fun r => by cases r <;> trivial
  apply hpost.bind
  intro r
  split
  · trivial
  · split
    · exact (modest_note _).bind fun _ => trivial
    · trivial

theorem modest_reportLogged {status : JobStatus} (h : status ≠ .success) (id info : String) :
    (reportLogged id status info : Activity A _).Modest :=
  (modest_reportFor h id info).bind fun r => by
    split
    · trivial
    · exact modest_note _

theorem Fetches.modest {α : Type} {p : Activity A α} (h : p.Fetches) : p.Modest :=
  (h []).only fun _ _ hs => hs.modest

theorem modest_forgetJobId : (forgetJobId : Activity A _).Modest := by
  apply (modest_perform (e := .eraseJobId) nofun).bind
  intro r
  split
  · trivial
  · exact modest_note _

theorem modest_reconcile : (reconcile : Activity A _).Modest := by
  apply (modest_perform (e := .loadJobId) nofun).bind
  intro r
  split
  · exact modest_note _
  · trivial
  · exact (modest_note _).bind fun _ => modest_forgetJobId.bind fun _ =>
      modest_reportLogged (by decide) _ _

theorem modest_concludeTrial : (concludeTrial : Activity A _).Modest := by
  apply (modest_perform (e := .settleTrial) nofun).bind
  intro r
  split
  · exact modest_forgetJobId.bind fun _ => modest_note _
  · trivial

theorem modest_confirmTrial (interval : Nat) : (confirmTrial interval : Activity A _).Modest := by
  have hstate : (perform .validationState : Activity A _).Modest := modest_perform nofun
  have hstart : (perform (.startConfirmation interval) : Activity A _).Modest := modest_perform nofun
  apply (modest_perform (e := .loadJobId) nofun).bind
  intro r
  split
  · exact (modest_note _).bind fun _ => modest_concludeTrial.bind fun _ => hstate.bind fun _ => trivial
  · exact hstart.bind fun _ => hstate.bind fun _ => trivial
  · exact (modest_note _).bind fun _ => hstart.bind fun _ => hstate.bind fun _ => trivial

theorem modest_testTrial (test : Option A.SelfTest) (interval : Nat) : (testTrial test interval).Modest := by
  unfold testTrial
  split
  · exact modest_confirmTrial interval
  · apply (modest_perform (e := .diagnose _) nofun).bind
    intro r
    split
    · trivial
    · exact (modest_note _).bind fun _ => modest_confirmTrial interval
    · apply (modest_note _).bind
      intro _
      apply (modest_perform (e := .markInvalid) nofun).bind
      intro r
      split <;> trivial

theorem modest_enable (config : Config) (handler : Option A.Handler) (test : Option A.SelfTest) :
    (enable config handler test).Modest := by
  have hvalidate : (validate test config).Modest := by
    apply (modest_perform (e := .beginValidation _) nofun).bind
    intro r
    split
    · trivial
    · trivial
    · exact (modest_testTrial test _).bind fun _ => trivial
    · exact modest_reconcile.bind fun _ => trivial
    · trivial
  apply (modest_perform (e := .install config handler) nofun).bind
  intro r
  split
  · trivial
  · apply hvalidate.bind
    intro r
    split
    · trivial
    · exact (modest_note _).bind fun _ => trivial
    · exact (modest_note _).bind fun _ => trivial

/-! ## What an activity has read -/

def readAfter : (e : Effect A) → e.Reply → Option String → Option String
  | .loadJobId, .ok (some id), _ => some id
  | _, _, read => read

/-- Whatever the replies are, a report of success names the id that was read last, or one of the
application's own. -/
def Names {α : Type} (own : String → Prop) : Activity A α → Option String → Prop
  | .done _, _ => True
  | .died, _ => True
  | .step e next, read =>
    (∀ id info, e = .post Report.path (Report.body id .success info) → own id ∨ read = some id) ∧
    ∀ r, Names own (next r) (readAfter e r read)

section
variable {α β : Type} {own : String → Prop}

theorem Modest.names {p : Activity A α} (h : p.Modest) (read : Option String) : Names own p read := by
  induction p generalizing read with
  | done a => trivial
  | died => trivial
  | step e next ih => exact ⟨fun id info he => absurd he (h.1 id info), fun r => ih r (h.2 r) _⟩

theorem Names.bind {p : Activity A α} {f : α → Activity A β} {read : Option String}
    (hp : Names own p read) (hf : ∀ a read, Names own (f a) read) : Names own (p >>= f) read := by
  induction p generalizing read with
  | done a => exact hf a read
  | died => trivial
  | step e next ih => exact ⟨hp.1, fun r => ih r (hp.2 r)⟩

theorem names_reportFor {id : String} {status : JobStatus} {read : Option String}
    (h : status = .success → own id ∨ read = some id) (info : String) :
    Names own (reportFor id status info : Activity A _) read := by
  have hpost : Names own (post Report.path (Report.body id status info) : Activity A _) read := by
    refine ⟨?_, fun r => by cases r <;> trivial⟩
    intro id' info' he
    injection he with _ hb
    obtain ⟨rfl, hs⟩ := Report.body_inj hb
    exact h hs
  apply hpost.bind
  intro r read
  apply Modest.names
  split
  · trivial
  · split
    · exact (modest_note _).bind fun _ => trivial
    · trivial

theorem names_confirmAttempt (attempt interval : Nat) (read : Option String) :
    Names own (confirmAttempt attempt interval : Activity A _) read := by
  have hreport : Names own (reportPersisted .success confirmationInfo : Activity A _) read := by
    refine ⟨(fun id info he => nomatch he), ?_⟩
    intro r
    match r with
    | .error c => trivial
    | .ok none => trivial
    | .ok (some id) => exact names_reportFor (fun _ => .inr rfl) _
  have hsuccess : Names own (reportSuccess attempt interval : Activity A _) read := by
    apply hreport.bind
    intro r read
    apply Modest.names
    split
    · exact (modest_note _).bind fun _ => trivial
    · exact (modest_note _).bind fun _ => trivial
  apply hsuccess.bind
  intro acknowledged read
  apply Modest.names
  split
  · exact modest_concludeTrial.bind fun _ => trivial
  · apply (modest_perform (e := .confirmCancelled) nofun).bind
    intro r
    split <;> trivial

end

end Activity

open Activity

/-! ## Calls and attempts -/

def Call.Claims (c : Call A) (id : String) : Prop := ∃ info, c = .report id .success info

theorem names_call {own : String → Prop} {c : Call A} (h : ∀ id, c.Claims id → own id)
    (read : Option String) : Names own c.activity read := by
  cases c with
  | report id status info =>
    have hreport : Names own (reportFor id status info : Activity A _) read :=
      names_reportFor (fun hs => .inl (h id ⟨info, hs ▸ rfl⟩)) info
    exact hreport.bind fun _ _ => trivial
  | enable config handler test =>
    exact ((modest_enable config handler test).names read).bind fun _ _ => trivial
  | fetch => exact (fetches_fetch.modest.names read).bind fun _ _ => trivial
  | autofetch => exact fetches_autofetchRound.modest.names read
  | download job chunkSize =>
    exact ((fetches_downloadAndFlash job chunkSize).modest.names read).bind fun _ _ => trivial
  | disable => exact ((modest_perform (e := .uninstall) nofun).names read).bind fun _ _ => trivial
  | markValid => exact ((modest_perform (e := .markValid) nofun).names read).bind fun _ _ => trivial
  | markInvalid => exact ((modest_perform (e := .markInvalid) nofun).names read).bind fun _ _ => trivial
  | joinConfirmation =>
    exact ((modest_perform (e := .joinConfirmation) nofun).names read).bind fun _ _ => trivial

def Task.Names (own : String → Prop) : Task A → Option String → Prop
  | .call rest, read => Activity.Names own rest read
  | .attempt rest, read => Activity.Names own rest read

def lastRead (task : Nat) : List (Happening A) → Option String
  | [] => none
  | .did i d :: earlier =>
    if i = task then readAfter d.request d.reply (lastRead task earlier) else lastRead task earlier
  | .fired .. :: earlier => lastRead task earlier

theorem lastRead_eq_some {task : Nat} {history : List (Happening A)} {id : String}
    (h : lastRead task history = some id) :
    ∃ between s before, history = between ++ .did task ⟨s, .loadJobId, .ok (some id)⟩ :: before := by
  induction history with
  | nil => cases h
  | cons x earlier ih =>
    have hearlier : ∀ x, lastRead task earlier = some id →
        ∃ between s before, x :: earlier = between ++ .did task ⟨s, .loadJobId, .ok (some id)⟩ :: before :=
      fun x h => by
        obtain ⟨between, s, before, rfl⟩ := ih h
        exact ⟨x :: between, s, before, rfl⟩
    cases x with
    | fired w t => exact hearlier _ h
    | did i d =>
      unfold lastRead at h
      split at h
      · rename_i hi
        subst hi
        obtain ⟨s, e, r⟩ := d
        cases e with
        | loadJobId =>
          match r, h with
          | .ok (some id'), h => cases h; exact ⟨[], s, earlier, rfl⟩
          | .ok none, h => exact hearlier _ h
          | .error c, h => exact hearlier _ h
        | _ => exact hearlier _ h
      · exact hearlier _ h

theorem Task.names_advance {own : String → Prop} {t t' : Task A} {read : Option String} {s : Saying}
    {w w' : World A} {d : Deed A} (h : t.Names own read) (ha : t.advance s w = some (d, t', w')) :
    (∀ id info, d.request = .post Report.path (Report.body id .success info) → own id ∨ read = some id) ∧
      t'.Names own (readAfter d.request d.reply read) := by
  unfold advance at ha
  split at ha
  · cases ha
    exact ⟨h.1, h.2 _⟩
  · cases ha
    exact ⟨h.1, h.2 _⟩
  · cases ha

/-- A report of success in the history is the application's own, or names what its task has read. -/
def Happening.Backed (own : String → Prop) (x : Happening A) (earlier : List (Happening A)) : Prop :=
  ∀ task s id info r, x = .did task ⟨s, .post Report.path (Report.body id .success info), r⟩ →
    own id ∨ lastRead task earlier = some id

structure Boot.Honest (own : String → Prop) (b : Boot A) : Prop where
  tasks : ∀ i (t : Task A), b.tasks[i]? = some t → t.Names own (lastRead i b.history)
  history : Throughout (Happening.Backed own) b.history

namespace Boot

variable {own : String → Prop} {b : Boot A}

theorem Honest.add (h : b.Honest own) {t : Task A} (ht : ∀ read, t.Names own read) :
    Honest own { b with tasks := b.tasks ++ [t] } where
  tasks i t' hi := by
    rw [List.getElem?_append] at hi
    split at hi
    · exact h.tasks i t' hi
    · obtain rfl : t = t' := List.mem_singleton.mp (List.mem_of_getElem? hi) |>.symm
      exact ht _
  history := h.history

theorem Honest.step (h : b.Honest own) {m : Move A} (hm : ∀ c id, m = .call c → c.Claims id → own id) :
    (b.step m).Honest own := by
  cases m with
  | call c => exact h.add (t := .call c.activity) fun read => names_call (fun id => hm c id rfl) read
  | attempt =>
    change b.beginAttempt.Honest own
    unfold beginAttempt
    split
    · split
      · exact h.add (t := .attempt _) fun read => names_confirmAttempt _ _ read
      · exact h
    · exact h
  | wake =>
    change b.wake.Honest own
    unfold wake
    dsimp only
    split
    · split
      · exact ⟨h.tasks, h.history⟩
      · exact h
    · exact h
  | go task s =>
    change (b.advance task s).Honest own
    unfold advance
    split
    · rename_i d t' w' hb
      obtain ⟨t, ht, ha⟩ := Option.bind_eq_some_iff.mp hb
      obtain ⟨hbacked, hnext⟩ := Task.names_advance (h.tasks task t ht) ha
      refine ⟨?_, ?_, h.history⟩
      · intro i t₁ hi
        unfold lastRead
        by_cases hj : task = i
        · subst hj
          rw [if_pos rfl]
          rw [List.getElem?_set_self (List.getElem?_eq_some_iff.mp ht).1] at hi
          cases hi
          exact hnext
        · rw [if_neg hj]
          rw [List.getElem?_set_ne hj] at hi
          exact h.tasks i t₁ hi
      · intro j s' id info r he
        cases he
        exact hbacked id info rfl
    · exact h
  | fire id =>
    change (b.fire id).Honest own
    unfold fire
    split
    · exact ⟨h.tasks, (fun _ _ _ _ _ he => nomatch he), h.history⟩
    · exact h
  | disturb s => exact ⟨h.tasks, h.history⟩

theorem honest_run (d : Device) (version : String) {ms : List (Move A)}
    (hm : ∀ m ∈ ms, ∀ c id, m = .call c → c.Claims id → own id) :
    ((start A d version).run ms).Honest own :=
  run_induction (b := start A d version) ⟨nofun, trivial⟩ ms fun _ m hmem h => h.step (hm m hmem)

end Boot

/-! ## What has been saved -/

theorem Store.raw_of_loadJobId {s : Store} {id : String} (h : s.loadJobId = .ok (some id)) :
    s.raw .jobId = some (Bytes.ofText id) := by
  unfold loadJobId at h
  cases hf : s.failReads with
  | true =>
    rw [read_refused _ hf] at h
    cases h
  | false =>
    rw [read_raw _ hf] at h
    dsimp only at h
    unfold jobIdOf at h
    split at h
    · cases h
    · cases h
    · rename_i bs _ hraw
      split at h
      · rename_i id' ht
        cases h
        rw [hraw, Bytes.ofText_of_text? ht]
      · cases h

def Happening.saved? : Happening A → Option String
  | did _ ⟨_, .saveJobId id, .ok ()⟩ => some id
  | _ => none

/-- An id on record was saved last, or was there from the beginning. -/
theorem id_of_since {n : NextBoot} {first id : String} {history : List (Happening A)}
    (hn : n.jobId = some (Bytes.ofText first)) (h : (n.since history).jobId = some (Bytes.ofText id)) :
    id = (history.findSome? Happening.saved?).getD first := by
  induction history with
  | nil => exact Bytes.ofText_inj (Option.some.inj (h.symm.trans hn))
  | cons x earlier ih =>
    cases x with
    | fired w t => exact ih h
    | did i d =>
      obtain ⟨s, e, r⟩ := d
      cases e with
      | saveJobId saved =>
        match r, h with
        | .ok (), h => exact (Bytes.ofText_inj (Option.some.inj h)).symm
        | .error c, h => exact ih h
      | eraseJobId =>
        match r, h with
        | .ok (), h => cases h
        | .error c, h => exact ih h
      | _ => exact ih h

namespace Boot

/-- A report of success names the id that was saved last before its task read it, and the id of the
image that booted only if no other was saved by then. -/
theorem success_names_last_saved {d : Device} {booted : String}
    (hd : d.nextBoot.jobId = some (Bytes.ofText booted)) (version : String) (ms : List (Move A))
    {later earlier : List (Happening A)} {task : Nat} {s : World A} {id info : String}
    {r : Option (Except Cause Response)}
    (h : ((start A d version).run ms).history =
      later ++ .did task ⟨s, .post Report.path (Report.body id .success info), r⟩ :: earlier) :
    (∃ c, .call c ∈ ms ∧ c.Claims id) ∨
    ∃ between s' before, earlier = between ++ .did task ⟨s', .loadJobId, .ok (some id)⟩ :: before ∧
      id = (before.findSome? Happening.saved?).getD booted ∧
      (id = booted ↔ ∀ saved, before.findSome? Happening.saved? = some saved → saved = booted) := by
  have hhonest : ((start A d version).run ms).Honest fun id => ∃ c, .call c ∈ ms ∧ c.Claims id :=
    honest_run d version fun m hm c id hc hclaims => ⟨c, hc ▸ hm, hclaims⟩
  apply (Throughout.split (h ▸ hhonest.history) task s id info r rfl).imp_right
  intro hread
  obtain ⟨between, s', before, rfl⟩ := lastRead_eq_some hread
  have hgenuine := (genuine_run d version ms).2
  rw [h, ← List.cons_append, ← List.append_assoc] at hgenuine
  obtain ⟨hfound, saying, hreply⟩ := hgenuine.split
  have hraw : s'.nextBoot.jobId = some (Bytes.ofText id) := Store.raw_of_loadJobId hreply.symm
  have hid := id_of_since hd (hfound ▸ hraw)
  refine ⟨between, s', before, rfl, hid, ?_⟩
  rw [hid]
  cases before.findSome? Happening.saved? with
  | none => simp
  | some saved => simp

def reportsSuccess (id : String) : Happening A → Bool
  | .did _ ⟨_, .post path body, _⟩ =>
    path == Report.path && body == Report.body id .success confirmationInfo
  | _ => false

theorem exists_of_reportsSuccess {history : List (Happening A)} {id : String}
    (h : history.any (reportsSuccess id) = true) :
    ∃ later task s r earlier, history = later ++
      .did task ⟨s, .post Report.path (Report.body id .success confirmationInfo), r⟩ :: earlier := by
  obtain ⟨x, hx, hp⟩ := List.any_eq_true.mp h
  obtain ⟨later, earlier, rfl⟩ := List.append_of_mem hx
  unfold reportsSuccess at hp
  split at hp
  · rename_i task s path body r
    simp only [Bool.and_eq_true, beq_iff_eq] at hp
    obtain ⟨rfl, rfl⟩ := hp
    exact ⟨later, task, s, r, earlier, rfl⟩
  · cases hp

/-- After a first attempt in vain the engine fetches and applies job B, and then tries again. -/
def applyingBetween : List (Move Agent.application) :=
  [.disturb ⟨[.answer offeredJob], [.answer ⟨503, []⟩], [("u", .plain [1, 2, 3, 4])], .none, false, false,
    false⟩, .attempt] ++ List.replicate 6 (.go 1 obliging) ++ [.call .fetch] ++
  List.replicate 40 (.go 2 obliging) ++ [.wake, .attempt] ++ List.replicate 12 (.go 3 obliging)

theorem applyingBetween_no_claim (c : Call Agent.application) (id : String)
    (h : .call c ∈ enabling ++ applyingBetween) : ¬ c.Claims id := by
  have hc : c = .enable Config.default none none ∨ c = .fetch := by
    simpa [enabling, applyingBetween, List.mem_replicate] using h
  rintro ⟨info, rfl⟩
  rcases hc with hc | hc <;> cases hc

theorem success_names_last_saved_applyingBetween :
    trialDevice.nextBoot.jobId = some (Bytes.ofText "A") ∧
    ∃ later task s r earlier,
      ((start Agent.application trialDevice "1.0.0").run (enabling ++ applyingBetween)).history = later ++
        .did task ⟨s, .post Report.path (Report.body "B" .success Activity.confirmationInfo), r⟩ :: earlier ∧
      ((∃ c, .call c ∈ enabling ++ applyingBetween ∧ c.Claims "B") ∨
        ∃ between s' before, earlier = between ++ .did task ⟨s', .loadJobId, .ok (some "B")⟩ :: before ∧
          "B" = (before.findSome? Happening.saved?).getD "A" ∧
          ("B" = "A" ↔ ∀ saved, before.findSome? Happening.saved? = some saved → saved = "A")) := by
  have hd : trialDevice.nextBoot.jobId = some (Bytes.ofText "A") := rfl
  have hb : ((start Agent.application trialDevice "1.0.0").run
      (enabling ++ applyingBetween)).history.any (reportsSuccess "B") = true := by decide +kernel
  obtain ⟨later, task, s, r, earlier, h⟩ := exists_of_reportsSuccess hb
  exact ⟨hd, later, task, s, r, earlier, h, success_names_last_saved hd "1.0.0" _ h⟩

/-- On the first boot of the image of job A the engine reports success for job B. -/
theorem success_for_image_not_booted :
    trialDevice.slots.running = .pendingVerify ∧ trialDevice.nextBoot.jobId = some (Bytes.ofText "A") ∧
    (∀ c id, .call c ∈ enabling ++ applyingBetween → ¬ Call.Claims c id) ∧
    ∃ later task s r earlier,
      ((start Agent.application trialDevice "1.0.0").run (enabling ++ applyingBetween)).history = later ++
        .did task ⟨s, .post Report.path (Report.body "B" .success Activity.confirmationInfo), r⟩ :: earlier :=
  ⟨rfl, rfl, applyingBetween_no_claim, exists_of_reportsSuccess (by decide +kernel)⟩

end Boot

end FirmwareUpdate
