import FirmwareUpdate.Proofs.SuccessReports

/-!
# Erasing the job id

Two activities erase the id on record. The one that confirms a new image does so when the service has
acknowledged the success, or when there is no job to report for. The one that finds an id left over
on a normal boot erases it and then, in its very next step, reports the job as rolled back.
-/

namespace FirmwareUpdate

open Routine

variable {A : Application}

/-! ## What leads to it -/

/-- What a task has done, the newest first, that may accept the image on trial. -/
inductive Acknowledged : List (Deed A) → Prop
  | reported (s s₁ s₂ s₃ : World A) (id : String) (attempt : Nat) (response : Response)
      (past : List (Deed A)) (h : response.ok = true) : Acknowledged
        (⟨s₃, .note (.successConfirmed attempt), ()⟩ ::
          ⟨s₂, .note (.reported id .success Activity.confirmationInfo), ()⟩ ::
          ⟨s₁, .post Report.path (Report.body id .success Activity.confirmationInfo), some (.ok response)⟩ ::
          ⟨s, .loadJobId, .ok (some id)⟩ :: past)
  | unreported (s s₁ : World A) (past : List (Deed A)) :
      Acknowledged (⟨s₁, .note .nothingToReport, ()⟩ :: ⟨s, .loadJobId, .ok none⟩ :: past)

inductive Concluding : List (Deed A) → Prop
  | mk (s : World A) {past : List (Deed A)} (h : Acknowledged past) :
      Concluding (⟨s, .settleTrial, true⟩ :: past)

inductive Reconciling (id : String) : List (Deed A) → Prop
  | mk (s s₁ s₂ : World A) (seconds : Nat) (past : List (Deed A)) : Reconciling id
      (⟨s₂, .note (.jobRolledBack id), ()⟩ :: ⟨s₁, .loadJobId, .ok (some id)⟩ ::
        ⟨s, .beginValidation seconds, some (.ok .settled)⟩ :: past)

/-- The task has tried to erase the id that was left over, and owes the service the news. -/
inductive Retracting (id : String) : List (Deed A) → Prop
  | erased (s : World A) {past : List (Deed A)} (h : Reconciling id past) :
      Retracting id (⟨s, .eraseJobId, .ok ()⟩ :: past)
  | kept (s s₁ : World A) (c c' : Cause) {past : List (Deed A)} (h : Reconciling id past) :
      Retracting id (⟨s₁, .note (.jobIdNotErased c'), ()⟩ :: ⟨s, .eraseJobId, .error c⟩ :: past)

theorem Retracting.unique {id id' : String} {past : List (Deed A)} (h : Retracting id past)
    (h' : Retracting id' past) : id = id' := by
  cases h with
  | erased s h =>
    cases h
    cases h' with
    | erased s h' =>
      cases h'
      rfl
  | kept s s₁ c c' h =>
    cases h
    cases h' with
    | kept s s₁ c c' h' =>
      cases h'
      rfl

/-- How a task deals with the job id on record. `own` holds of the jobs that the application itself
reports as rolled back. -/
structure Orderly (own : String → Prop) (past : List (Deed A)) (e : Effect A) : Prop where
  erases : e = .eraseJobId → Concluding past ∨ ∃ id, Reconciling id past
  retracts : ∀ id, e = retraction id → own id ∨ Dictated id past ∨ Retracting id past
  owes : ∀ id, Retracting id past → e = retraction id

def Quits (past : List (Deed A)) : Prop := ∀ id, ¬ Retracting id past

def Effect.Apart : Effect A → Prop
  | .eraseJobId | .note (.jobIdNotErased _) => False
  | _ => True

structure Aside (own : String → Prop) (past : List (Deed A)) (e : Effect A) : Prop where
  apart : e.Apart
  retracts : ∀ id, e = retraction id → own id ∨ Dictated id past

variable {own : String → Prop} {past : List (Deed A)}

theorem Quits.nil : Quits ([] : List (Deed A)) := fun _ h => nomatch h

theorem Quits.cons {d : Deed A} (h : d.request.Apart) : Quits (d :: past) := by
  intro id hr
  cases hr with
  | erased => exact h
  | kept => exact h

theorem Aside.orderly {e : Effect A} (h : Aside own past e) (hq : Quits past) : Orderly own past e where
  erases he := by
    have ha := h.apart
    rw [he] at ha
    exact ha.elim
  retracts id he := (h.retracts id he).imp_right .inl
  owes id hr := absurd hr (hq id)

theorem Aside.silent {e : Effect A} (h : e.Apart) (hp : ∀ path body, e ≠ .post path body) :
    Aside own past e := ⟨h, fun _ he => absurd he (hp _ _)⟩

theorem FetchStep.aside {e : Effect A} (h : FetchStep past e) : Aside own past e := by
  refine ⟨?_, fun id he => .inr (h.dictated id he)⟩
  have hk := h.kind
  unfold Effect.Apart
  split
  · exact hk
  · exact hk
  · trivial

/-- An activity that leaves the record alone is orderly, and quits the task if it was quits before. -/
theorem heeds_of_aside {α : Type} {p : Activity A α} {ends : Option α → List (Deed A) → Prop}
    (h : p.Heeds (Aside own) ends past) (hq : Quits past) :
    p.Heeds (Orderly own) (fun o past => ends o past ∧ Quits past) past :=
  (h.keeps hq fun _ _ ha _ => .cons ha.apart).mono (fun _ _ h => h.1.orderly h.2) fun _ _ h => h

namespace Activity

/-! ## Confirming -/

def Answered (id : String) (before past : List (Deed A)) : Prop :=
  ∃ s s₁ response, response.ok = true ∧ past = ⟨s₁, .note (.reported id .success confirmationInfo), ()⟩ ::
    ⟨s, .post Report.path (Report.body id .success confirmationInfo), some (.ok response)⟩ :: before

theorem heeds_reportFor_success (id : String) :
    (reportFor id .success confirmationInfo : Activity A _).Heeds (Aside own)
      (fun o past' => o = some (.ok ()) → Answered id past past') past := by
  have hpost : Aside own past (.post Report.path (Report.body id .success confirmationInfo)) :=
    ⟨trivial, fun id' he => absurd (Report.body_inj (Effect.post.inj he).2).2 (by decide)⟩
  have hsent : (post Report.path (Report.body id .success confirmationInfo) : Activity A _).Heeds (Aside own)
      (fun o past' => ∀ response, o = some (.ok response) → ∃ s, past' =
        ⟨s, .post Report.path (Report.body id .success confirmationInfo), some (.ok response)⟩ :: past)
      past := by
    refine ⟨hpost, fun s r => ?_⟩
    cases r with
    | none => exact nofun
    | some r =>
      intro response h
      cases h
      exact ⟨s, rfl⟩
  refine hsent.bind (fun r past' hr => ?_) fun _ _ => nofun
  split
  · exact nofun
  · rename_i response
    obtain ⟨s, rfl⟩ := hr response rfl
    split
    · rename_i hok
      exact ⟨.silent trivial nofun, fun s₁ _ _ => ⟨s, s₁, response, hok, rfl⟩⟩
    · exact nofun

theorem heeds_reportSuccess (attempt interval : Nat) : (reportSuccess attempt interval : Activity A _).Heeds
    (Aside own) (fun o past' => o = some true → Acknowledged past') past := by
  have hreport : (reportPersisted .success confirmationInfo : Activity A _).Heeds (Aside own)
      (fun o past' => o = some (.ok ()) → ∃ s id, Answered id (⟨s, .loadJobId, .ok (some id)⟩ :: past) past')
      past := by
    refine ⟨.silent trivial nofun, fun s r => ?_⟩
    match r with
    | .error c => exact nofun
    | .ok none => exact nofun
    | .ok (some id) => exact (heeds_reportFor_success id).mono (fun _ _ h => h) fun _ _ h ho => ⟨s, id, h ho⟩
  refine hreport.bind (fun r past' hr => ?_) fun _ _ => nofun
  split
  · obtain ⟨s, id, s₁, s₂, response, hok, rfl⟩ := hr rfl
    exact ⟨.silent trivial nofun, fun s₃ _ _ => .reported s s₁ s₂ s₃ id attempt response past hok⟩
  · exact ⟨.silent trivial nofun, fun s _ => nofun⟩

theorem heeds_concludeTrial (h : Acknowledged past) (hq : Quits past) :
    (concludeTrial : Activity A _).Heeds (Orderly own) (fun _ => Quits) past := by
  have hsettle : Aside own past (.settleTrial : Effect A) := .silent trivial nofun
  have hvalidated (past : List (Deed A)) : Aside own past (.note .validated) := .silent trivial nofun
  refine ⟨hsettle.orderly hq, fun s r => ?_⟩
  have hq₁ : Quits (⟨s, .settleTrial, r⟩ :: past) := .cons trivial
  cases r with
  | false => exact hq₁
  | true =>
    refine ⟨⟨fun _ => .inl (.mk s h), nofun, fun id hr => absurd hr (hq₁ id)⟩, fun s₁ r => ?_⟩
    -- the erasure came after the trial was settled, not after an id was found left over
    have hq₂ : Quits (⟨s₁, .eraseJobId, r⟩ :: ⟨s, .settleTrial, true⟩ :: past) := by
      intro id hr
      cases hr with
      | erased _ hr => cases hr
    match r with
    | .ok () => exact ⟨(hvalidated _).orderly hq₂, fun _ _ => .cons trivial⟩
    | .error c =>
      refine ⟨⟨nofun, nofun, fun id hr => absurd hr (hq₂ id)⟩, fun s₂ _ => ?_⟩
      have hq₃ : Quits (⟨s₂, .note (.jobIdNotErased c), ()⟩ :: ⟨s₁, .eraseJobId, .error c⟩ ::
          ⟨s, .settleTrial, true⟩ :: past) := by
        intro id hr
        cases hr with
        | kept _ _ _ _ hr => cases hr
      exact ⟨(hvalidated _).orderly hq₃, fun _ _ => .cons trivial⟩

theorem heeds_confirmAttempt (attempt interval : Nat) :
    (confirmAttempt attempt interval : Activity A _).Heeds (Orderly own) (fun _ => Quits) [] := by
  refine (heeds_of_aside (heeds_reportSuccess attempt interval) .nil).bind (fun acknowledged past h => ?_)
    fun _ h => h.2
  split
  · rename_i ha
    exact (heeds_concludeTrial (h.1 (congrArg some ha)) h.2).andThen fun _ _ hq => hq
  · have hcancelled : (perform .confirmCancelled : Activity A _).Heeds (Aside own) (fun _ _ => True) past :=
      ⟨.silent trivial nofun, fun _ _ => trivial⟩
    refine (heeds_of_aside hcancelled h.2).bind (fun r past h => ?_) fun _ h => h.2
    split <;> exact h.2

/-! ## Enabling -/

theorem heeds_perform {e : Effect A} (h : Aside own past e) (hq : Quits past) :
    (perform e).Heeds (Orderly own) (fun _ => Quits) past :=
  .request (h.orderly hq) fun _ _ => .cons h.apart

theorem heeds_note {e : Event} (h : (Effect.note e : Effect A).Apart) (hq : Quits past) :
    (note e : Activity A _).Heeds (Orderly own) (fun _ => Quits) past := heeds_perform (.silent h nofun) hq

theorem orderly_reportFor {id : String} {status : JobStatus} {info : String}
    (h : Orderly own past (.post Report.path (Report.body id status info))) :
    (reportFor id status info : Activity A _).Heeds (Orderly own) (fun _ => Quits) past := by
  have hpost : (post Report.path (Report.body id status info) : Activity A _).Heeds (Orderly own)
      (fun _ => Quits) past := ⟨h, fun s r => by cases r <;> exact .cons trivial⟩
  refine hpost.andThen fun r past hq => ?_
  split
  · exact hq
  · split
    · exact (heeds_note (by trivial) hq).andThen fun _ _ hq => hq
    · exact hq

theorem heeds_retract {id : String} (h : Retracting id past) :
    (reportLogged id .rejected rollbackInfo : Activity A _).Heeds (Orderly own) (fun _ => Quits) past := by
  have hrule : Orderly own past (.post Report.path (Report.body id .rejected rollbackInfo)) := by
    refine ⟨nofun, fun id' he => ?_, fun id' h' => ?_⟩
    · rw [← (Report.body_inj (Effect.post.inj he).2).1]
      exact .inr (.inr h)
    · rw [h.unique h']
      rfl
  refine (orderly_reportFor hrule).andThen fun r past hq => ?_
  split
  · exact hq
  · exact heeds_note (by trivial) hq

theorem heeds_reconcile (s : World A) (seconds : Nat) : (reconcile : Activity A _).Heeds (Orderly own)
    (fun _ => Quits) (⟨s, .beginValidation seconds, some (.ok .settled)⟩ :: past) := by
  have hload : Aside own (⟨s, .beginValidation seconds, some (.ok .settled)⟩ :: past) .loadJobId :=
    .silent trivial nofun
  refine ⟨hload.orderly (.cons trivial), fun s₁ r => ?_⟩
  match r with
  | .error c => exact heeds_note (by trivial) (.cons trivial)
  | .ok none => exact Quits.cons trivial
  | .ok (some id) =>
    have hrolled (past : List (Deed A)) : Aside own past (.note (.jobRolledBack id)) := .silent trivial nofun
    refine ⟨(hrolled _).orderly (.cons trivial), fun s₂ _ => ?_⟩
    have hleft : Reconciling id _ := .mk s s₁ s₂ seconds past
    refine ⟨⟨fun _ => .inr ⟨id, hleft⟩, nofun, fun id' hr => nomatch hr⟩, fun s₃ r => ?_⟩
    -- whether the id could be erased or not, the report is the next step
    match r with
    | .ok () => exact heeds_retract (.erased s₃ hleft)
    | .error c =>
      have hkept : Quits (⟨s₃, .eraseJobId, .error c⟩ ::
          ⟨s₂, .note (.jobRolledBack id), ()⟩ :: ⟨s₁, .loadJobId, .ok (some id)⟩ ::
          ⟨s, .beginValidation seconds, some (.ok .settled)⟩ :: past) := fun _ hr => nomatch hr
      refine ⟨⟨nofun, nofun, fun id' hr => absurd hr (hkept id')⟩, fun s₄ _ => ?_⟩
      exact heeds_retract (.kept s₃ s₄ c c hleft)

theorem heeds_confirmTrial (interval : Nat) (hq : Quits past) : (confirmTrial interval : Activity A _).Heeds
    (Orderly own) (fun _ => Quits) past := by
  have hload : Aside own past (.loadJobId : Effect A) := .silent trivial nofun
  have hstate {past : List (Deed A)} (hq : Quits past) : (do
      return .ok (← perform .validationState) : Activity A (Except UpdateError ValidationState)).Heeds
        (Orderly own) (fun _ => Quits) past :=
    (heeds_perform (e := .validationState) (.silent trivial nofun) hq).andThen fun _ _ hq => hq
  have hstart {past : List (Deed A)} (hq : Quits past) :
      (perform (.startConfirmation interval) : Activity A _).Heeds (Orderly own) (fun _ => Quits) past :=
    heeds_perform (.silent trivial nofun) hq
  refine ⟨hload.orderly hq, fun s r => ?_⟩
  match r with
  | .error c =>
    refine (heeds_note (by trivial) (.cons (by trivial))).andThen fun _ _ hq => ?_
    exact (hstart hq).andThen fun _ _ hq => hstate hq
  | .ok (some id) => exact (hstart (.cons (by trivial))).andThen fun _ _ hq => hstate hq
  | .ok none =>
    have hnote (past : List (Deed A)) : Aside own past (.note .nothingToReport) := .silent trivial nofun
    refine ⟨(hnote _).orderly (.cons trivial), fun s₁ _ => ?_⟩
    refine (heeds_concludeTrial (.unreported s s₁ past) (.cons (by trivial))).andThen fun _ _ hq => hstate hq

theorem heeds_testTrial (test : Option A.SelfTest) (interval : Nat) (hq : Quits past) :
    (testTrial test interval).Heeds (Orderly own) (fun _ => Quits) past := by
  unfold testTrial
  split
  · exact heeds_confirmTrial interval hq
  · refine (heeds_perform (e := .diagnose _) (.silent trivial nofun) hq).andThen fun r _ hq => ?_
    split
    · exact hq
    · exact (heeds_note (by trivial) hq).andThen fun _ _ hq => heeds_confirmTrial interval hq
    · refine (heeds_note (by trivial) hq).andThen fun _ _ hq => ?_
      refine (heeds_perform (e := .markInvalid) (.silent trivial nofun) hq).andThen fun r _ hq => ?_
      split <;> exact hq

theorem heeds_validate (test : Option A.SelfTest) (config : Config) (hq : Quits past) :
    (validate test config).Heeds (Orderly own) (fun _ => Quits) past := by
  have hbegin : Aside own past (.beginValidation config.rollbackTimeoutSecs.toNat : Effect A) :=
    .silent trivial nofun
  refine ⟨hbegin.orderly hq, fun s r => ?_⟩
  match r with
  | none => exact Quits.cons trivial
  | some (.error e) => exact Quits.cons trivial
  | some (.ok .trial) =>
    exact (heeds_testTrial test _ (.cons (by trivial))).andThen fun _ _ hq => hq
  | some (.ok .settled) => exact (heeds_reconcile s _).andThen fun _ _ hq => hq
  | some (.ok .foreign) => exact Quits.cons trivial

theorem heeds_enable (config : Config) (handler : Option A.Handler) (test : Option A.SelfTest) :
    (enable config handler test).Heeds (Orderly own) (fun _ => Quits) [] := by
  refine (heeds_perform (e := .install config handler) (.silent trivial nofun) .nil).andThen fun r _ hq => ?_
  split
  · exact hq
  · refine (heeds_validate test config hq).andThen fun r _ hq => ?_
    split
    · exact hq
    · exact (heeds_note (by trivial) hq).andThen fun _ _ hq => hq
    · exact (heeds_note (by trivial) hq).andThen fun _ _ hq => hq

end Activity

open Activity

/-! ## Every task -/

def Call.Retracts (c : Call A) (id : String) : Prop :=
  ∃ info, c = .report id .rejected info ∧
    Report.body id .rejected info = Report.body id .rejected rollbackInfo

theorem heeds_call {c : Call A} (h : ∀ id, c.Retracts id → own id) :
    (Task.call c.activity).Heeds (Orderly own) Quits [] := by
  have hfetches {α : Type} {p : Activity A α} (hp : p.Fetches) : p.Heeds (Orderly own) (fun _ => Quits) [] :=
    (heeds_of_aside ((hp []).mono (fun _ _ hs => hs.aside) fun _ _ h => h) .nil).mono (fun _ _ h => h)
      fun _ _ h => h.2
  have hsingle {e : Effect A} (ha : e.Apart) (hp : ∀ path body, e ≠ .post path body) :
      (do let _ ← perform e : Activity A Unit).Heeds (Orderly own) (fun _ => Quits) [] :=
    (heeds_perform (.silent ha hp) .nil).andThen fun _ _ hq => hq
  cases c with
  | enable config handler test => exact (heeds_enable config handler test).andThen fun _ _ hq => hq
  | fetch => exact (hfetches fetches_fetch).andThen fun _ _ hq => hq
  | autofetch => exact hfetches fetches_autofetchRound
  | download job chunkSize =>
    exact (hfetches (fetches_downloadAndFlash job chunkSize)).andThen fun _ _ hq => hq
  | disable => exact hsingle (e := .uninstall) trivial nofun
  | markValid => exact hsingle (e := .markValid) trivial nofun
  | markInvalid => exact hsingle (e := .markInvalid) trivial nofun
  | joinConfirmation => exact hsingle (e := .joinConfirmation) trivial nofun
  | report id status info =>
    have hpost : Aside own [] (.post Report.path (Report.body id status info) : Effect A) := by
      refine ⟨trivial, fun id' he => .inl ?_⟩
      have hb := (Effect.post.inj he).2
      obtain ⟨rfl, rfl, -⟩ := Report.body_inj_sent hb
      exact h _ ⟨info, rfl, hb⟩
    exact (orderly_reportFor (hpost.orderly .nil)).andThen fun _ _ hq => hq

theorem Boot.orderly_run (d : Device) (version : String) (ms : List (Move A)) :
    ((start A d version).run ms).Heeding (Orderly fun id => ∃ c, .call c ∈ ms ∧ c.Retracts id) Quits :=
  heeding_run d version (fun c hc => heeds_call fun _ hr => ⟨c, hc, hr⟩)
    fun attempt interval => heeds_confirmAttempt attempt interval

/-! ## The id on record -/

theorem Store.raw_of_loadJobId_none {s : Store} (h : s.loadJobId = .ok none) :
    s.raw .jobId = none ∨ s.raw .jobId = some [] := by
  unfold loadJobId at h
  cases hf : s.failReads with
  | true =>
    rw [read_refused _ hf] at h
    cases h
  | false =>
    rw [read_raw _ hf] at h
    dsimp only at h
    unfold jobIdOf at h
    split at h
    · rename_i hraw
      exact .inl hraw
    · rename_i hraw
      exact .inr hraw
    · split at h <;> cases h

theorem World.of_settled {w : World A} {seconds : Nat}
    (h : (w.beginValidation seconds).1 = some (.ok .settled)) :
    w.engine.validation.state = .init ∧ w.device.slots.running = .valid := by
  have hb := w.beginning seconds
  rw [h] at hb
  generalize (w.beginValidation seconds).2 = w' at hb
  cases hb with
  | settled hi hr => exact ⟨hi, hr⟩

namespace Happening

def erases : Happening A → Bool
  | did _ ⟨_, .eraseJobId, .ok ()⟩ => true
  | _ => false

end Happening

theorem jobId_since_cons (n : NextBoot) (x : Happening A) (earlier : List (Happening A)) :
    (n.since (x :: earlier)).jobId =
      match x.saved? with
      | some id => some (Bytes.ofText id)
      | none => if x.erases then none else (n.since earlier).jobId := by
  cases x with
  | fired w t => rfl
  | did i d =>
    obtain ⟨s, e, r⟩ := d
    cases e with
    | saveJobId id | eraseJobId =>
      match r with
      | .ok () => rfl
      | .error c => rfl
    | _ => rfl

theorem jobId_since_kept {n : NextBoot} {history : List (Happening A)}
    (h : ∀ x ∈ history, x.saved? = none ∧ x.erases = false) : (n.since history).jobId = n.jobId := by
  induction history with
  | nil => rfl
  | cons x earlier ih =>
    rw [List.forall_mem_cons] at h
    obtain ⟨⟨hs, he⟩, h⟩ := h
    rw [jobId_since_cons, hs, he]
    exact ih h

/-- An id stays on record until the next one is saved exactly if nothing erases it. -/
theorem jobId_since_append {n : NextBoot} {later earlier : List (Happening A)} {bytes : Bytes}
    (hs : ∀ x ∈ later, x.saved? = none) : (n.since (later ++ earlier)).jobId = some bytes ↔
      (n.since earlier).jobId = some bytes ∧ ∀ x ∈ later, x.erases = false := by
  induction later with
  | nil => simp
  | cons x later ih =>
    rw [List.forall_mem_cons] at hs
    rw [List.cons_append, jobId_since_cons, hs.1]
    cases hx : x.erases with
    | true => simp [hx]
    | false => simpa [hx] using ih hs.2

/-- Unless an id has been saved since, what a task has read is what it finds on record. -/
theorem read_of_unsaved {n : NextBoot} {between before : List (Happening A)} {i j : Nat} {s s₁ : World A}
    {e : Effect A} {r : e.Reply} {o : Option String} {id : String}
    (hg : Throughout (Happening.Genuine n)
      (.did i ⟨s, e, r⟩ :: (between ++ .did j ⟨s₁, .loadJobId, .ok o⟩ :: before)))
    (hs : ∀ x ∈ between, x.saved? = none) (hid : s.nextBoot.jobId = some (Bytes.ofText id)) (hne : id ≠ "") :
    o = some id := by
  obtain ⟨⟨hfound, -⟩, hg⟩ := hg
  obtain ⟨hread, _, hreply⟩ := hg.split
  rw [hfound] at hid
  have hraw : s₁.device.store.raw .jobId = some (Bytes.ofText id) := by
    have h := ((jobId_since_append hs).mp hid).1
    exact (congrArg NextBoot.jobId hread).trans h
  cases o with
  | none =>
    rcases Store.raw_of_loadJobId_none hreply.symm with hnone | hempty
    · exact absurd (hraw.symm.trans hnone) nofun
    · have hbytes : Bytes.ofText id = Bytes.ofText "" := Option.some.inj (hraw.symm.trans hempty)
      exact absurd (Bytes.ofText_inj hbytes) hne
  | some id' =>
    have hread := Store.raw_of_loadJobId hreply.symm
    rw [Bytes.ofText_inj (Option.some.inj (hraw.symm.trans hread))]

/-- What a task has read was on record when the boot began, unless it has been saved since. -/
theorem recorded_of_read {n : NextBoot} {before : List (Happening A)} {j : Nat} {s₁ : World A} {id : String}
    (hg : Throughout (Happening.Genuine n) (.did j ⟨s₁, .loadJobId, .ok (some id)⟩ :: before))
    (hs : ∀ x ∈ before, x.saved? = none) : n.jobId = some (Bytes.ofText id) := by
  obtain ⟨⟨hfound, _, hreply⟩, -⟩ := hg
  have hraw : s₁.nextBoot.jobId = some (Bytes.ofText id) := Store.raw_of_loadJobId hreply.symm
  rw [hfound, ← List.append_nil before] at hraw
  exact ((jobId_since_append hs).mp hraw).1

theorem valid_of_begun {n : NextBoot} {history : List (Happening A)} {task seconds : Nat} {s : World A}
    (hg : Throughout (Happening.Genuine n) history)
    (h : .did task ⟨s, .beginValidation seconds, some (.ok .settled)⟩ ∈ history) :
    s.engine.validation.state = .init ∧ s.device.slots.running = .valid := by
  obtain ⟨later, earlier, rfl⟩ := List.append_of_mem h
  obtain ⟨-, _, hreply⟩ := hg.split
  exact World.of_settled hreply.symm

namespace Boot

theorem retraction_of_erased (d : Device) (version : String) (ms : List (Move A))
    {later earlier : List (Happening A)} {task : Nat} {s : World A} {id : String}
    (h : ((start A d version).run ms).history = later ++ .did task ⟨s, .eraseJobId, .ok ()⟩ :: earlier)
    (hleft : Reconciling id (deedsBy task earlier)) :
    ((start A d version).run ms).nextOf task later = some (retraction id) := by
  have hretracting : Retracting id (deedsBy task (.did task ⟨s, .eraseJobId, .ok ()⟩ :: earlier)) := by
    rw [deedsBy_did]
    exact .erased s hleft
  have hdone : deedsBy task (.did task ⟨s, .eraseJobId, .ok ()⟩ :: earlier) ≠ [] := by simp [deedsBy_did]
  rcases (orderly_run d version ms).next h hdone with ⟨-, hquits⟩ | ⟨e, he, hrule⟩
  · exact absurd hretracting (hquits id)
  · rw [he, hrule.owes id hretracting]

/-- The id of a job that a task erases, none having been saved since it read the record, is that of a
job whose success the service has acknowledged to it in between. Or the boot is a normal one on which the task
has started the validation, and the report that the job was rolled back is the very next thing that it does; the
id was left over from an earlier boot then, unless one was saved on this boot before the task read the record. -/
theorem erased_once_settled (d : Device) (version : String) (ms : List (Move A))
    {later earlier : List (Happening A)} {task : Nat} {s : World A} {id : String}
    (h : ((start A d version).run ms).history = later ++ .did task ⟨s, .eraseJobId, .ok ()⟩ :: earlier)
    (hid : s.nextBoot.jobId = some (Bytes.ofText id)) (hne : id ≠ "") :
    ∃ between s₁ o before, earlier = between ++ .did task ⟨s₁, .loadJobId, .ok o⟩ :: before ∧
      (∀ d ∈ deedsBy task between, d.request ≠ .loadJobId) ∧
      ((∀ x ∈ between, x.saved? = none) → o = some id ∧
        ((∃ s₂ response, .did task ⟨s₂, .post Report.path (Report.body id .success Activity.confirmationInfo),
            some (.ok response)⟩ ∈ between ∧ response.status = 200) ∨
          ((∃ s₀ seconds, .did task ⟨s₀, .beginValidation seconds, some (.ok .settled)⟩ ∈ before ∧
              s₀.device.slots.running = .valid) ∧
            ((∀ x ∈ before, x.saved? = none) → d.nextBoot.jobId = some (Bytes.ofText id)) ∧
            ((start A d version).run ms).nextOf task later = some (retraction id)))) := by
  have hrule := (orderly_run d version ms).history
  have hgenuine := (genuine_run d version ms).2
  rw [h] at hrule hgenuine
  -- what the task has read is what it erases
  have hread {between before : List (Happening A)} {s₁ : World A} {o : Option String}
      (he : earlier = between ++ .did task ⟨s₁, .loadJobId, .ok o⟩ :: before)
      (hs : ∀ x ∈ between, x.saved? = none) : o = some id :=
    read_of_unsaved (he ▸ hgenuine.drop) hs hid hne
  rcases (hrule.split task _ rfl).erases rfl with hconcluding | ⟨id', hleft⟩
  · generalize hp : deedsBy task earlier = past at hconcluding
    obtain ⟨_, hacknowledged⟩ := hconcluding
    cases hacknowledged with
    | reported s₀ s₁ s₂ s₃ id' attempt response past hok =>
      obtain ⟨between, before, rfl, hb, -⟩ := split_of_deedsBy [_, _, _, _] hp
      refine ⟨between, s₀, some id', before, rfl, by simp [hb], fun hs => ?_⟩
      cases hread rfl hs
      exact ⟨rfl, .inl ⟨s₁, response, mem_deedsBy.mp (by simp [hb]), by simpa [Response.ok] using hok⟩⟩
    | unreported s₀ s₁ past =>
      obtain ⟨between, before, rfl, hb, -⟩ := split_of_deedsBy [_, _] hp
      refine ⟨between, s₀, none, before, rfl, by simp [hb], fun hs => ?_⟩
      exact nomatch hread rfl hs
  · have hnext := retraction_of_erased d version ms h hleft
    generalize hp : deedsBy task earlier = past at hleft
    obtain ⟨s₀, s₁, s₂, seconds, past⟩ := hleft
    obtain ⟨between, before, rfl, hb, hbefore⟩ := split_of_deedsBy [_] hp
    refine ⟨between, s₁, some id', before, rfl, by simp [hb], fun hs => ?_⟩
    cases hread rfl hs
    have hbegun : .did task ⟨s₀, .beginValidation seconds, some (.ok .settled)⟩ ∈ before :=
      mem_deedsBy.mp (hbefore ▸ List.mem_cons_self)
    have hvalid := valid_of_begun hgenuine.drop
      (List.mem_cons_of_mem _ (List.mem_append_right _ (List.mem_cons_of_mem _ hbegun)))
    exact ⟨rfl, .inr ⟨⟨s₀, seconds, hbegun, hvalid.2⟩, recorded_of_read hgenuine.drop.2.drop, hnext⟩⟩

def leftoverDevice : Device := ((Device.fresh .valid).saveJobId "A").2

def erasing (id : String) : Happening A → Bool
  | .did _ ⟨s, .eraseJobId, .ok ()⟩ => s.nextBoot.jobId == some (Bytes.ofText id)
  | _ => false

theorem exists_of_erasing {history : List (Happening A)} {id : String} (h : history.any (erasing id) = true) :
    ∃ later task s earlier, history = later ++ .did task ⟨s, .eraseJobId, .ok ()⟩ :: earlier ∧
      s.nextBoot.jobId = some (Bytes.ofText id) := by
  obtain ⟨x, hx, hp⟩ := List.any_eq_true.mp h
  obtain ⟨later, earlier, rfl⟩ := List.append_of_mem hx
  unfold erasing at hp
  split at hp
  · rename_i task s
    exact ⟨later, task, s, earlier, rfl, by simpa using hp⟩
  · cases hp

theorem erased_once_settled_leftover : "A" ≠ "" ∧
    ∃ later task s earlier,
      ((start Agent.application leftoverDevice "1.0.0").run enabling).history =
        later ++ .did task ⟨s, .eraseJobId, .ok ()⟩ :: earlier ∧
      s.nextBoot.jobId = some (Bytes.ofText "A") ∧
      ∃ between s₁ o before, earlier = between ++ .did task ⟨s₁, .loadJobId, .ok o⟩ :: before ∧
        (∀ d ∈ deedsBy task between, d.request ≠ .loadJobId) ∧
        ((∀ x ∈ between, x.saved? = none) → o = some "A" ∧
          ((∃ s₂ response, .did task ⟨s₂, .post Report.path
              (Report.body "A" .success Activity.confirmationInfo), some (.ok response)⟩ ∈ between ∧
              response.status = 200) ∨
            ((∃ s₀ seconds, .did task ⟨s₀, .beginValidation seconds, some (.ok .settled)⟩ ∈ before ∧
                s₀.device.slots.running = .valid) ∧
              ((∀ x ∈ before, x.saved? = none) → leftoverDevice.nextBoot.jobId = some (Bytes.ofText "A")) ∧
              ((start Agent.application leftoverDevice "1.0.0").run enabling).nextOf task later =
                some (retraction "A")))) := by
  have hne : "A" ≠ "" := by decide
  have herased : ((start Agent.application leftoverDevice "1.0.0").run enabling).history.any
      (erasing "A") = true := by decide +kernel
  obtain ⟨later, task, s, earlier, h, hid⟩ := exists_of_erasing herased
  exact ⟨hne, later, task, s, earlier, h, hid, erased_once_settled leftoverDevice "1.0.0" enabling h hid hne⟩

/-- On a normal boot the id of a job is erased before anything has been reported. -/
theorem erased_before_report :
    leftoverDevice.network.posts = [] ∧
    ((start Agent.application leftoverDevice "1.0.0").run (enabling.take 5)).world.device.network.posts = [] ∧
    ((start Agent.application leftoverDevice "1.0.0").run (enabling.take 5)).world.nextBoot.jobId =
      some (Bytes.ofText "A") ∧
    (((start Agent.application leftoverDevice "1.0.0").run (enabling.take 6)).history.head?.any
      (erasing "A")) = true := by
  decide +kernel

end Boot

end FirmwareUpdate
