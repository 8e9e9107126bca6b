import FirmwareUpdate.Proofs.Conduct
import FirmwareUpdate.Proofs.ReportBodies

/-!
# What a fetch may do

A fetch keeps to its own job. It never touches the trial or erases a job id, it reports no success,
and that a job was rolled back it reports only where a handler says so in these words. When it ends
with a job applied, it has saved the id of that job.
-/

namespace FirmwareUpdate

open Routine

variable {A : Application}

instance : Nonempty (World A) := ⟨.boot (.fresh .valid) ""⟩

/-! ## Words -/

def rollbackInfo : String := "Firmware rolled back"

def retraction (id : String) : Effect A := .post Report.path (Report.body id .rejected rollbackInfo)

/-- A handler has rejected a job in words that read like a rollback of the job with this id. -/
def Dictated (id : String) (past : List (Deed A)) : Prop :=
  ∃ s handler job chunkSize reason,
    (⟨s, .decide handler job chunkSize, some (.rejected reason)⟩ : Deed A) ∈ past ∧
    Report.body job.id .rejected reason = Report.body id .rejected rollbackInfo

def Unlike (reason : String) : Prop :=
  Text.takeBytes Report.infoLimit reason ≠ Text.takeBytes Report.infoLimit rollbackInfo

theorem unlike_applyFailed (why : String) : Unlike ("Firmware apply failed: " ++ why) := by
  have hs : ("Firmware apply failed: " ++ why).toList =
      "Firmware a".toList ++ ("pply failed: ".toList ++ why.toList) := by simp
  have ht : rollbackInfo.toList = "Firmware r".toList ++ "olled back".toList := by decide
  exact Text.takeBytes_ne hs ht (by decide) (by decide) (by decide) (by decide)

theorem unlike_notPersisted (why : String) : Unlike ("Failed to persist job id: " ++ why) := by
  have hs : ("Failed to persist job id: " ++ why).toList =
      "Fa".toList ++ ("iled to persist job id: ".toList ++ why.toList) := by simp
  have ht : rollbackInfo.toList = "Fi".toList ++ "rmware rolled back".toList := by decide
  exact Text.takeBytes_ne hs ht (by decide) (by decide) (by decide) (by decide)

theorem Rejection.unlike_reason (r : Rejection) : Unlike r.reason := by
  cases r <;> unfold Unlike <;> decide

/-! ## Steps -/

def Effect.OfFetch : Effect A → Prop
  | .note (.jobIdNotErased _) => False
  | .get _ | .post .. | .openImage _ | .saveJobId _ | .openUpdate | .stage _ | .restart | .startApplyTask _
  | .note _ | .decide .. | .inProgress | .admission | .claim | .takeUp _ | .putDown | .release => True
  | _ => False

structure FetchStep (past : List (Deed A)) (e : Effect A) : Prop where
  kind : e.OfFetch
  modest : ∀ id info, e ≠ .post Report.path (Report.body id .success info)
  dictated : ∀ id, e = retraction id → Dictated id past

theorem FetchStep.silent {past : List (Deed A)} {e : Effect A} (h : e.OfFetch)
    (hp : ∀ path body, e ≠ .post path body) : FetchStep past e :=
  ⟨h, fun _ _ => hp _ _, fun _ he => absurd he (hp _ _)⟩

/-- A rejection in words that are not the engine's for a rollback, or that the handler has chosen. -/
def Told (id reason : String) (past : List (Deed A)) : Prop :=
  ∀ id', Report.body id .rejected reason = Report.body id' .rejected rollbackInfo → Dictated id' past

theorem Unlike.told {reason : String} (h : Unlike reason) (id : String) (past : List (Deed A)) :
    Told id reason past := fun _ he => absurd (Report.body_inj_sent he).2.2 h

theorem FetchStep.report {past : List (Deed A)} {id : String} {status : JobStatus} {info : String}
    (hs : status ≠ .success) (ht : status = .rejected → Told id info past) :
    FetchStep past (.post Report.path (Report.body id status info)) where
  kind := trivial
  modest _ _ he := hs (Report.body_inj (Effect.post.inj he).2).2
  dictated id' he := by
    have hb := (Effect.post.inj he).2
    obtain rfl : status = .rejected := (Report.body_inj hb).2
    exact ht rfl id' hb

namespace Activity

variable {α β : Type} {past : List (Deed A)}

abbrev Fetches (p : Activity A α) : Prop := ∀ past, p.Heeds FetchStep (fun _ _ => True) past

theorem Fetches.bind {p : Activity A α} {f : α → Activity A β} (hp : p.Fetches) (hf : ∀ a, (f a).Fetches) :
    (p >>= f).Fetches := fun past => (hp past).bind (fun a past _ => hf a past) fun _ _ => trivial

theorem Fetches.followed {p : Activity A α} {f : α → Activity A β} {ends : Option β → List (Deed A) → Prop}
    (hp : p.Fetches) (hf : ∀ a past, (f a).Heeds FetchStep ends past) (hd : ∀ past, ends none past) :
    (p >>= f).Heeds FetchStep ends past := (hp past).bind (fun a past _ => hf a past) fun past _ => hd past

theorem Fetches.done (a : α) : Fetches (.done a : Activity A α) := fun _ => trivial

theorem fetches_perform {e : Effect A} (h : e.OfFetch) (hp : ∀ path body, e ≠ .post path body) :
    (perform e).Fetches := fun _ => .request (.silent h hp) fun _ _ => trivial

theorem fetches_note {e : Event} (h : (Effect.note e : Effect A).OfFetch) :
    (note e : Activity A Unit).Fetches := fetches_perform (e := .note e) h nofun

theorem fetches_get (path : String) : (get path : Activity A _).Fetches :=
  (fetches_perform (e := .get path) trivial nofun).bind fun r => by cases r <;> exact fun _ => trivial

/-! ## Reports on the way -/

theorem heeds_reportFor {id : String} {status : JobStatus} {info : String} (hs : status ≠ .success)
    (ht : status = .rejected → Told id info past) :
    (reportFor id status info : Activity A _).Heeds FetchStep (fun _ _ => True) past := by
  have hpost : (post Report.path (Report.body id status info) : Activity A _).Heeds FetchStep
      (fun _ _ => True) past := ⟨.report hs ht, fun s r => by cases r <;> trivial⟩
  refine hpost.bind (fun r past _ => ?_) fun _ _ => trivial
  split
  · trivial
  · split
    · exact (fetches_note (by trivial)).bind (fun _ => .done _) past
    · trivial

theorem heeds_reportLogged {id : String} {status : JobStatus} {info : String} (hs : status ≠ .success)
    (ht : status = .rejected → Told id info past) :
    (reportLogged id status info : Activity A _).Heeds FetchStep (fun _ _ => True) past := by
  refine (heeds_reportFor hs ht).bind (fun r past _ => ?_) fun _ _ => trivial
  split
  · trivial
  · exact fetches_note (by trivial) past

theorem fetches_reportLogged {status : JobStatus} (hs : status ≠ .success) (hr : status ≠ .rejected)
    (id info : String) : (reportLogged id status info : Activity A _).Fetches :=
  fun _ => heeds_reportLogged hs fun h => absurd h hr

/-! ## Applying -/

theorem fetches_noteProgress (told : List Progress) : (noteProgress told : Activity A _).Fetches := by
  induction told with
  | nil => exact .done ()
  | cons p rest ih => exact (fetches_note (by trivial)).bind fun _ => ih

theorem fetches_downloadAndFlash (job : Job) (chunkSize : Nat) :
    (downloadAndFlash job chunkSize : Activity A _).Fetches := by
  apply (fetches_perform (e := .openImage job.url) trivial nofun).bind
  intro r
  split
  · exact .done _
  · dsimp only
    split
    · exact fun _ => trivial
    · apply (fetches_perform (e := .openUpdate) trivial nofun).bind
      intro r
      split
      · exact .done _
      · apply (fetches_noteProgress _).bind
        intro _
        split
        · exact .done _
        · exact (fetches_perform (e := .stage _) trivial nofun).bind fun _ => .done _

def RejectionTold (id : String) (o : Option ApplyOutcome) (past : List (Deed A)) : Prop :=
  ∀ reason, o = some (.rejected reason) → Told id reason past

theorem RejectionTold.died {id : String} (past : List (Deed A)) : RejectionTold id none past :=
  fun _ h => nomatch h

theorem heeds_flashImage (job : Job) (chunkSize : Nat) :
    (flashImage job chunkSize : Activity A _).Heeds FetchStep (RejectionTold job.id) past := by
  have hprogress (info : String) : (reportProgress job info : Activity A _).Fetches :=
    fetches_reportLogged (by decide) (by decide) _ _
  refine (fetches_note (by trivial)).followed (fun _ past => ?_) .died
  refine (hprogress _).followed (fun _ past => ?_) .died
  refine (fetches_downloadAndFlash job chunkSize).followed (fun r past => ?_) .died
  split
  · refine (fetches_note (by trivial)).followed (fun _ past => ?_) .died
    exact (hprogress _).followed (fun _ _ _ h => nomatch h) .died
  · refine (fetches_note (by trivial)).followed (fun _ past => ?_) .died
    intro reason h
    cases h
    exact (unlike_applyFailed _).told _ _

theorem heeds_decide (handler : Option A.Handler) (job : Job) (chunkSize : Nat) :
    (Activity.decide handler job chunkSize).Heeds FetchStep (RejectionTold job.id) past := by
  unfold Activity.decide
  split
  · exact heeds_flashImage job chunkSize
  · rename_i h
    have hasked : (perform (.decide h job chunkSize)).Heeds FetchStep
        (fun r past => ∀ reason, r = some (some (.rejected reason)) → Told job.id reason past) past := by
      refine .request (.silent trivial nofun) ?_
      intro s r reason hr id' hb
      cases hr
      exact ⟨s, h, job, chunkSize, reason, List.mem_cons_self, hb⟩
    refine hasked.bind (fun r past hr => ?_) fun past _ => .died past
    cases r with
    | none => exact RejectionTold.died past
    | some outcome => exact fun reason h => hr reason (congrArg some h)

def Saved (id : String) (past : List (Deed A)) : Prop :=
  ∃ s, (⟨s, .saveJobId id, .ok ()⟩ : Deed A) ∈ past

theorem Saved.cons {id : String} {past : List (Deed A)} (h : Saved id past) (d : Deed A) :
    Saved id (d :: past) := h.imp fun _ hs => List.mem_cons_of_mem _ hs

theorem heeds_persist (job : Job) {outcome : ApplyOutcome} (h : RejectionTold job.id (some outcome) past) :
    (persist job outcome : Activity A _).Heeds FetchStep
      (fun o past => RejectionTold job.id o past ∧ (o = some .applied → Saved job.id past)) past := by
  unfold persist
  split
  · refine ⟨.silent trivial nofun, fun s r => ?_⟩
    match r with
    | .ok () => exact ⟨(fun _ h => nomatch h), fun _ => ⟨s, List.mem_cons_self⟩⟩
    | .error c =>
      refine (fetches_note (by trivial)).followed (fun _ past => ⟨?_, nofun⟩) fun past => ⟨.died past, nofun⟩
      intro reason h
      cases h
      exact (unlike_notPersisted _).told _ _
  · rename_i hne
    exact ⟨h, fun ho => absurd (Option.some.inj ho) (hne · )⟩

theorem heeds_settle (handler : Option A.Handler) (job : Job) (chunkSize : Nat) :
    (settle handler job chunkSize).Heeds FetchStep (fun o past => o = some .applied → Saved job.id past)
      past := by
  refine (heeds_decide handler job chunkSize).bind (fun o past ho => ?_) fun _ _ => nofun
  refine (heeds_persist job ho).bind (fun o past ho => ?_) fun _ _ => nofun
  cases o with
  | applied => exact fun _ => ho.2 rfl
  | deferred reason =>
    exact (fetches_reportLogged (by decide) (by decide) _ _).followed (fun _ _ => nofun) fun _ => nofun
  | rejected reason =>
    exact (heeds_reportLogged (by decide) fun _ => ho.1 reason rfl).bind (fun _ _ _ => nofun) fun _ _ => nofun

/-! ## Fetching -/

theorem heeds_carryOut (a : Admission A) (job : Job) : (carryOut a job).Heeds FetchStep
    (fun o past => o = some (.ok .applied) → Saved job.id past) past := by
  refine (fetches_note (by trivial)).followed (fun _ past => ?_) fun _ => nofun
  refine (fetches_reportLogged (by decide) (by decide) _ _).followed (fun _ past => ?_) fun _ => nofun
  refine (fetches_perform (e := .startApplyTask _) trivial nofun).followed (fun started past => ?_) fun _ => nofun
  split
  · exact nofun
  have hsettled : (settle a.handler job a.config.downloadChunkSize.toNat).attempt.Heeds FetchStep
      (fun o past => o = some (some .applied) → Saved job.id past) past :=
    .attempt ((heeds_settle a.handler job _).mono (fun _ _ h => h) fun o past h ho => h (Option.some.inj ho))
  refine hsettled.bind (fun o past ho => ?_) fun _ _ => nofun
  cases o with
  | none => exact nofun
  | some outcome => exact fun h => ho (by cases h; rfl)

theorem heeds_conclude (config : Config) (id : String) {outcome : ApplyOutcome}
    (h : outcome = .applied → Saved id past) : (conclude config id outcome : Activity A _).Heeds FetchStep
      (fun o past => ∀ id, o = some (.applied id) → Saved id past) past := by
  have hend {past : List (Deed A)} (hs : Saved id past) :
      ∀ id', some (FetchOutcome.applied id) = some (.applied id') → Saved id' past := by
    intro id' he
    cases he
    exact hs
  cases outcome with
  | applied =>
    refine ⟨.silent trivial nofun, fun s r => ?_⟩
    split
    · refine ⟨.silent trivial nofun, fun s r => ⟨.silent trivial nofun, fun s r => ?_⟩⟩
      exact hend ((((h rfl).cons _).cons _).cons _)
    · exact hend ((h rfl).cons _)
  | deferred reason =>
    exact (fetches_note (by trivial)).followed (fun _ _ _ h => nomatch h) fun _ _ h => nomatch h
  | rejected reason =>
    exact (fetches_note (by trivial)).followed (fun _ _ _ h => nomatch h) fun _ _ h => nomatch h

def AppliedSaved (o : Option (Except UpdateError FetchOutcome)) (past : List (Deed A)) : Prop :=
  ∀ id, o = some (.ok (.applied id)) → Saved id past

theorem AppliedSaved.died (past : List (Deed A)) : AppliedSaved none past := fun _ h => nomatch h

theorem AppliedSaved.failed {e : UpdateError} (past : List (Deed A)) : AppliedSaved (some (.error e)) past :=
  fun _ h => nomatch h

theorem heeds_takeOn (a : Admission A) (job : Job) : (takeOn a job).Heeds FetchStep AppliedSaved past := by
  refine (fetches_perform (e := .claim) trivial nofun).followed (fun r past => ?_) .died
  split
  · have hheld : (holdJob a job).Heeds FetchStep (fun o past => o = some (.ok .applied) → Saved job.id past)
        past := (fetches_perform (e := .takeUp job) trivial nofun).followed (fun _ _ => heeds_carryOut a job) nofun
    have hcarried : ((holdJob a job).ensuring letGo).Heeds FetchStep
        (fun o past => o = some (.ok .applied) → Saved job.id past) past := by
      refine hheld.ensuring (fun o past ho => ?_) fun _ _ _ => nofun
      refine ⟨.silent trivial nofun, fun s r => ⟨.silent trivial nofun, fun s r h => ?_⟩⟩
      exact ((ho h).cons _).cons _
    refine hcarried.bind (fun r past hr => ?_) fun past _ => .died past
    split
    · exact .failed past
    · refine (heeds_conclude _ _ fun h => hr (by rw [h])).bind (fun o past ho => ?_) fun past _ => .died past
      intro id he
      cases he
      exact ho id rfl
  · exact .failed past

theorem heeds_receive (a : Admission A) (response : Response) :
    (receive a response).Heeds FetchStep AppliedSaved past := by
  unfold receive rejectPayload
  split
  · split
    · refine (fetches_note (by trivial)).followed (fun _ past => ?_) .died
      exact (heeds_reportLogged (by decide) fun _ => Unlike.told (by unfold Unlike; decide) _ _).bind
        (fun _ past _ => .failed past) fun past _ => .died past
    · exact .failed past
  · exact (fetches_note (by trivial)).followed (fun _ => .failed) .died
  · exact (fetches_note (by trivial)).followed (fun _ _ _ h => nomatch h) .died
  · rename_i r _
    refine (fetches_note (by trivial)).followed (fun _ past => ?_) .died
    exact (heeds_reportLogged (by decide) fun _ => r.unlike_reason.told _ _).bind
      (fun _ past _ => .failed past) fun past _ => .died past
  · exact heeds_takeOn a _

theorem heeds_ask (a : Admission A) : (ask a).Heeds FetchStep AppliedSaved past := by
  refine (fetches_note (by trivial)).followed (fun _ past => ?_) .died
  refine (fetches_get _).followed (fun r past => ?_) .died
  split
  · exact .failed past
  · exact heeds_receive _ _

theorem heeds_fetch : (fetch : Activity A _).Heeds FetchStep AppliedSaved past := by
  refine (fetches_perform (e := .inProgress) trivial nofun).followed (fun r past => ?_) .died
  split
  · exact .failed past
  · refine (fetches_perform (e := .admission) trivial nofun).followed (fun r past => ?_) .died
    split
    · exact .failed past
    · exact heeds_ask _

theorem fetches_fetch : (fetch : Activity A _).Fetches :=
  fun _ => heeds_fetch.mono (fun _ _ h => h) fun _ _ _ => trivial

theorem fetches_autofetchRound : (autofetchRound : Activity A _).Fetches := by
  apply (fetches_note (by trivial)).bind
  intro _
  apply fetches_fetch.bind
  intro r
  split
  · exact .done ()
  · exact fetches_note (by trivial)
  · exact fetches_note (by trivial)

end Activity

end FirmwareUpdate
