import FirmwareUpdate.Proofs.Ledger
import FirmwareUpdate.Proofs.OneJob

/-!
# What the service is told about a job

A fetch that takes a job on accepts it before the handler sees it, and when the handler has made up its
mind it sends one more report, unless the job has been applied. All of this is read off the deeds of the
one task that fetches, whatever the other tasks do between them.
-/

namespace FirmwareUpdate

open Routine Activity

variable {A : Application}

/-! ## Reports in a run -/

def Report.post (id : String) (status : JobStatus) (info : String) : Post := ⟨path, body id status info⟩

/-- The reports that a stretch of a task has sent, whether or not they were heard. -/
def sent (t : List (Deed A)) : List Post := t.filterMap (·.request.post?)

/-- No report has taken the task down with it; each has had a reply, be it an error. -/
def Replied (t : List (Deed A)) : Prop := ∀ s path body, (⟨s, .post path body, none⟩ : Deed A) ∉ t

theorem sent_append (t u : List (Deed A)) : sent (t ++ u) = sent t ++ sent u := List.filterMap_append

theorem sent_eq_nil {t : List (Deed A)} : sent t = [] ↔ ∀ d ∈ t, d.request.post? = none :=
  List.filterMap_eq_nil_iff

theorem replied_append {t u : List (Deed A)} : Replied (t ++ u) ↔ Replied t ∧ Replied u := by
  constructor
  · intro h
    constructor
    · exact fun s path body hd => h s path body (List.mem_append_left _ hd)
    · exact fun s path body hd => h s path body (List.mem_append_right _ hd)
  · rintro ⟨ht, hu⟩ s path body hd
    rcases List.mem_append.mp hd with hd | hd
    · exact ht s path body hd
    · exact hu s path body hd

namespace Activity

variable {id info : String} {status : JobStatus} {t : List (Deed A)}

theorem ran_note {e : Event} {o : Option Unit} (h : Ran (note e : Activity A _) t o) :
    ∃ s, t = [⟨s, .note e, ()⟩] ∧ o = some () := by
  obtain _ | _ | ⟨s, _, h⟩ := h
  cases h
  exact ⟨s, rfl, rfl⟩

theorem ran_post {path : String} {body : Bytes} {o : Option (Except Cause Response)}
    (h : Ran (post path body : Activity A _) t o) : ∃ s, t = [⟨s, .post path body, o⟩] := by
  obtain _ | _ | ⟨s, r, h⟩ := h
  cases r with
  | none | some =>
    cases h
    exact ⟨s, rfl⟩

theorem ran_reportFor {o : Option (Except UpdateError Unit)}
    (h : Ran (reportFor id status info : Activity A _) t o) :
    ∃ s r notes, t = ⟨s, .post Report.path (Report.body id status info), r⟩ :: notes ∧
      (∀ d ∈ notes, ∃ e, d.request = .note e) ∧ o.isSome = r.isSome := by
  rcases h.of_bind with ⟨r, t₁, notes, hpost, hrest, rfl⟩ | ⟨hpost, rfl⟩
  · obtain ⟨s, rfl⟩ := ran_post hpost
    refine ⟨s, some r, notes, rfl, ?_⟩
    cases r with
    | error c =>
      cases hrest
      exact ⟨(fun _ hd => nomatch hd), rfl⟩
    | ok response =>
      dsimp only at hrest
      split at hrest
      · obtain _ | _ | ⟨s', _, hdone⟩ := hrest
        cases hdone
        exact ⟨List.forall_mem_singleton.mpr ⟨_, rfl⟩, rfl⟩
      · cases hrest
        exact ⟨(fun _ hd => nomatch hd), rfl⟩
  · obtain ⟨s, rfl⟩ := ran_post hpost
    exact ⟨s, none, [], rfl, (fun _ hd => nomatch hd), rfl⟩

/-- A report is one POST, and lines in the journal. -/
theorem ran_reportLogged {o : Option Unit} (h : Ran (reportLogged id status info : Activity A _) t o) :
    ∃ s r notes, t = ⟨s, .post Report.path (Report.body id status info), r⟩ :: notes ∧
      (∀ d ∈ notes, ∃ e, d.request = .note e) ∧ o.isSome = r.isSome := by
  rcases h.of_bind with ⟨result, t₁, t₂, hreport, hrest, rfl⟩ | ⟨hreport, rfl⟩
  · obtain ⟨s, r, notes, rfl, hnotes, hr⟩ := ran_reportFor hreport
    cases result with
    | ok =>
      cases hrest
      exact ⟨s, r, notes, by simp, hnotes, hr⟩
    | error e =>
      obtain ⟨s', rfl, rfl⟩ := ran_note hrest
      refine ⟨s, r, notes ++ [_], rfl, ?_, hr⟩
      exact List.forall_mem_append.mpr ⟨hnotes, List.forall_mem_singleton.mpr ⟨_, rfl⟩⟩
  · exact ran_reportFor hreport

theorem sent_notes {notes : List (Deed A)} (h : ∀ d ∈ notes, ∃ e, d.request = .note e) : sent notes = [] := by
  rw [sent_eq_nil]
  intro d hd
  obtain ⟨e, he⟩ := h d hd
  rw [he]
  rfl

theorem sent_reportLogged {o : Option Unit} (h : Ran (reportLogged id status info : Activity A _) t o) :
    sent t = [Report.post id status info] ∧ (Replied t → o = some ()) := by
  obtain ⟨s, r, notes, rfl, hnotes, ho⟩ := ran_reportLogged h
  refine ⟨congrArg (List.cons _) (sent_notes hnotes), fun hr => ?_⟩
  cases r with
  | none => exact absurd List.mem_cons_self (hr s _ _)
  | some => exact Option.isSome_iff_exists.mp ho |>.elim fun _ ho => ho

end Activity

/-! ## The handler -/

def Effect.OfHandling : Effect A → Prop
  | .openImage _ | .openUpdate | .stage _ | .decide .. => True
  | _ => False

def Effect.question? : Effect A → Option (A.Handler × Job × Nat)
  | .decide handler job chunkSize => some (handler, job, chunkSize)
  | _ => none

/-- What becomes of a handler's outcome. A job whose id cannot be saved is not applied after all. -/
inductive Settled (job : Job) (t : List (Deed A)) : ApplyOutcome → ApplyOutcome → Prop
  | saved (s : World A) (h : ⟨s, .saveJobId job.id, .ok ()⟩ ∈ t) : Settled job t .applied .applied
  | unsaved (s : World A) (c : Cause) (h : ⟨s, .saveJobId job.id, .error c⟩ ∈ t) :
      Settled job t .applied (.rejected ("Failed to persist job id: " ++ c.top))
  | deferred (reason : String) : Settled job t (.deferred reason) (.deferred reason)
  | rejected (reason : String) : Settled job t (.rejected reason) (.rejected reason)

/-- The report that ends a job. An applied one is reported by the boots to come. -/
def terminal (id : String) : ApplyOutcome → List Post
  | .applied => []
  | .deferred reason => [Report.post id .delayed reason]
  | .rejected reason => [Report.post id .rejected reason]

theorem Settled.mono {job : Job} {t u : List (Deed A)} {outcome final : ApplyOutcome}
    (h : Settled job t outcome final) (htu : ∀ d ∈ t, d ∈ u) : Settled job u outcome final := by
  cases h with
  | saved s hs => exact .saved s (htu _ hs)
  | unsaved s c hs => exact .unsaved s c (htu _ hs)
  | deferred reason => exact .deferred reason
  | rejected reason => exact .rejected reason

namespace Activity

variable {handler : Option A.Handler} {job : Job} {chunkSize : Nat} {t : List (Deed A)}

/-- A handler is asked once. An engine without one reports its progress, and nothing else. -/
theorem ran_decide {o : Option ApplyOutcome} (h : Ran (Activity.decide handler job chunkSize) t o) :
    t.filterMap (·.request.question?) = handler.toList.map (fun h => (h, job, chunkSize)) ∧
      ∀ p ∈ sent t, ∃ info, p = Report.post job.id .inProgress info := by
  cases handler with
  | some handler =>
    obtain _ | _ | ⟨s, r, hrest⟩ := h
    cases r with
    | none | some =>
      cases hrest
      exact ⟨rfl, fun _ hp => nomatch hp⟩
  | none =>
    have hunasked : ∀ d ∈ t, d.request.question? = none := by
      refine h.only (P := fun e => e.question? = none) (only_flashImage (fun e he => ?_) (fun _ => rfl) _)
      cases e <;> first | rfl | exact he.elim
    have hprogress : ∀ d ∈ t, ∀ p, d.request.post? = some p → ∃ info, p = Report.post job.id .inProgress info := by
      refine h.only (P := fun e => ∀ p, e.post? = some p → ∃ info, p = Report.post job.id .inProgress info)
        (only_flashImage (fun e he => ?_) (fun info => ?_) _)
      · intro p hp
        cases e <;> first | exact he.elim | cases hp
      · intro p hp
        exact ⟨info, (Option.some.inj hp).symm⟩
    refine ⟨List.filterMap_eq_nil_iff.mpr hunasked, fun p hp => ?_⟩
    obtain ⟨d, hd, hp⟩ := List.mem_filterMap.mp hp
    exact hprogress d hd p hp

theorem ran_persist {outcome : ApplyOutcome} {o : Option ApplyOutcome}
    (h : Ran (persist job outcome : Activity A _) t o) :
    ∃ final, o = some final ∧ Settled job t outcome final ∧ sent t = [] ∧ ∀ d ∈ t, ¬ d.request.OfHandling := by
  cases outcome with
  | deferred reason =>
    cases h
    exact ⟨_, rfl, .deferred reason, rfl, fun _ hd => nomatch hd⟩
  | rejected reason =>
    cases h
    exact ⟨_, rfl, .rejected reason, rfl, fun _ hd => nomatch hd⟩
  | applied =>
    obtain _ | _ | ⟨s, r, hrest⟩ := h
    match r, hrest with
    | .ok (), hrest =>
      cases hrest
      exact ⟨_, rfl, .saved s List.mem_cons_self, rfl, List.forall_mem_singleton.mpr id⟩
    | .error c, hrest =>
      obtain _ | _ | ⟨s', _, hdone⟩ := hrest
      cases hdone
      refine ⟨_, rfl, .unsaved s c List.mem_cons_self, rfl, ?_⟩
      exact List.forall_mem_cons.mpr ⟨id, List.forall_mem_singleton.mpr id⟩

theorem unhandled_reportLogged {id info : String} {status : JobStatus} {o : Option Unit}
    (h : Ran (reportLogged id status info : Activity A _) t o) : ∀ d ∈ t, ¬ d.request.OfHandling :=
  h.only (only_reportLogged (P := fun e => ¬ e.OfHandling) nofun fun _ => nofun)

theorem ran_reportOutcome {outcome : ApplyOutcome} {o : Option Unit}
    (h : Ran (reportOutcome job outcome : Activity A _) t o) :
    sent t = terminal job.id outcome ∧ (Replied t → o = some ()) ∧ ∀ d ∈ t, ¬ d.request.OfHandling := by
  cases outcome with
  | applied =>
    cases h
    exact ⟨rfl, fun _ => rfl, fun _ hd => nomatch hd⟩
  | deferred reason | rejected reason =>
    obtain ⟨hsent, hended⟩ := sent_reportLogged h
    exact ⟨hsent, hended, unhandled_reportLogged h⟩

/-- What a task for a job does: the job is handled, and then its outcome is settled. Without an outcome there
is nothing to settle. -/
theorem ran_settle {o : Option ApplyOutcome} (h : Ran (settle handler job chunkSize) t o) :
    ∃ u handled settled, t = handled ++ settled ∧ Ran (Activity.decide handler job chunkSize) handled u ∧
      (∀ d ∈ settled, ¬ d.request.OfHandling) ∧ (u = none → settled = [] ∧ o = none) ∧
      ∀ outcome, u = some outcome → ∃ final, Settled job settled outcome final ∧
        sent settled = terminal job.id final ∧ (Replied settled → o = some final) := by
  rcases h.of_bind with ⟨outcome, handled, rest, hdecide, hrest, rfl⟩ | ⟨hdecide, rfl⟩
  · refine ⟨some outcome, handled, rest, rfl, hdecide, ?_⟩
    rcases hrest.of_bind with ⟨final, saved, told, hpersist, htell, rfl⟩ | ⟨hpersist, -⟩
    · obtain ⟨_, ho, hsettled, hsaved, hsilent⟩ := ran_persist hpersist
      cases ho
      obtain ⟨ended, hreport, rfl⟩ := Ran.of_bind_done (f := fun _ => final) htell
      obtain ⟨htold, hended, hunhandled⟩ := ran_reportOutcome hreport
      refine ⟨List.forall_mem_append.mpr ⟨hsilent, hunhandled⟩, (fun hu => nomatch hu), ?_⟩
      rintro _ ⟨⟩
      refine ⟨final, hsettled.mono fun _ hd => List.mem_append_left _ hd, ?_, fun hr => ?_⟩
      · rw [sent_append, hsaved, htold]
        rfl
      · rw [hended (replied_append.mp hr).2]
        rfl
    · obtain ⟨_, ho, -⟩ := ran_persist hpersist
      cases ho
  · exact ⟨none, t, [], (List.append_nil _).symm, hdecide, (fun _ hd => nomatch hd), fun _ => ⟨rfl, rfl⟩,
      fun _ ho => nomatch ho⟩

/-- A task for a job is started or not. That it cannot be started, or is gone without an outcome, is an error,
and nothing else is done about it. -/
theorem ran_applyJob {stack : Nat} {o : Option (Except UpdateError ApplyOutcome)}
    (h : Ran (applyJob handler job chunkSize stack) t o) :
    ∃ s r rest, t = ⟨s, .startApplyTask stack, r⟩ :: rest ∧
      (∀ c, r = .error c →
        rest = [] ∧ o = some (.error (.apply ("failed to spawn apply task: " ++ c.top)))) ∧
      (r = .ok () → ∃ u, Ran (settle handler job chunkSize) rest u ∧
        o = some (u.elim (.error (.apply "apply task ended without an outcome")) .ok)) := by
  obtain _ | _ | ⟨s, r, h⟩ := h
  cases r with
  | error c =>
    cases h
    exact ⟨s, _, [], rfl, fun _ hc => by cases hc; exact ⟨rfl, rfl⟩, nofun⟩
  | ok =>
    refine ⟨s, _, _, rfl, nofun, fun _ => ?_⟩
    rcases Ran.of_bind (p := (settle handler job chunkSize).attempt) h with
      ⟨u, t₁, t₂, hattempt, hdone, rfl⟩ | ⟨hattempt, -⟩
    · obtain ⟨_, hu, hsettle⟩ := hattempt.of_attempt
      cases hu
      cases u with
      | none | some outcome =>
        cases hdone
        exact ⟨_, by simpa using hsettle, rfl⟩
    · obtain ⟨_, hu, -⟩ := hattempt.of_attempt
      cases hu

theorem ran_applyJob_applied {stack : Nat} (h : Ran (applyJob handler job chunkSize stack) t (some (.ok .applied))) :
    ∃ s rest, t = ⟨s, .startApplyTask stack, .ok ()⟩ :: rest ∧
      Ran (settle handler job chunkSize) rest (some .applied) := by
  obtain ⟨s, r, rest, rfl, hunstarted, hstarted⟩ := ran_applyJob h
  cases r with
  | error c => cases (hunstarted c rfl).2
  | ok =>
    obtain ⟨u, hsettle, ho⟩ := hstarted rfl
    refine ⟨s, rest, rfl, ?_⟩
    cases u with
    | none => cases ho
    | some outcome =>
      cases ho
      exact hsettle

/-- A job is accepted before anything else is done about it. If that report takes the fetch down with it,
nothing else is done. -/
theorem ran_carryOut {a : Admission A} {o : Option (Except UpdateError ApplyOutcome)}
    (h : Ran (carryOut a job) t o) :
    ∃ s s' r notes rest, t = (⟨s, .note (.jobAccepted job.id job.url job.size), ()⟩ ::
        ⟨s', .post Report.path (Report.body job.id .accepted "Job accepted"), r⟩ :: notes) ++ rest ∧
      (∀ d ∈ notes, ∃ e, d.request = .note e) ∧
      (r.isSome → Ran (applyJob a.handler job a.config.downloadChunkSize.toNat a.config.applyTaskStackSize.toNat)
        rest o) ∧ (r = none → rest = []) := by
  obtain _ | _ | ⟨s, _, hnoted⟩ := h
  rcases Ran.of_bind (p := reportLogged job.id .accepted "Job accepted") hnoted with
    ⟨_, told, rest, hreport, happly, rfl⟩ | ⟨hreport, rfl⟩
  · obtain ⟨s', r, notes, rfl, hnotes, hr⟩ := ran_reportLogged hreport
    refine ⟨s, s', r, notes, rest, rfl, hnotes, fun _ => happly, ?_⟩
    rintro rfl
    cases hr
  · obtain ⟨s', r, notes, rfl, hnotes, hr⟩ := ran_reportLogged hreport
    refine ⟨s, s', r, notes, [], (List.append_nil _).symm, hnotes, fun hsome => ?_, fun _ => rfl⟩
    rw [hsome] at hr
    cases hr

def Heard (t : List (Deed A)) : Prop := ∃ s path body reply, (⟨s, .post path body, some reply⟩ : Deed A) ∈ t

theorem heard_of_replied {a : Admission A} {o : Option (Except UpdateError ApplyOutcome)}
    (h : Ran (carryOut a job) t o) (hr : Replied t) : Heard t := by
  obtain ⟨s, s', r, notes, rest, rfl, -⟩ := ran_carryOut h
  cases r with
  | none => exact absurd (by simp) (hr s' Report.path (Report.body job.id .accepted "Job accepted"))
  | some reply => exact ⟨s', Report.path, Report.body job.id .accepted "Job accepted", reply, by simp⟩

end Activity

/-- What the task for a job comes to: it cannot be started, or it handles the job. If it has no outcome, that is
put down to the reason given last. -/
inductive Handled (a : Admission A) (job : Job) : List (Deed A) → Option ApplyOutcome → String → Prop
  | unstarted (s : World A) (c : Cause) :
    Handled a job [⟨s, .startApplyTask a.config.applyTaskStackSize.toNat, .error c⟩] none
      ("failed to spawn apply task: " ++ c.top)
  | started (s : World A) {t : List (Deed A)} {u : Option ApplyOutcome}
    (h : Ran (Activity.decide a.handler job a.config.downloadChunkSize.toNat) t u) :
    Handled a job (⟨s, .startApplyTask a.config.applyTaskStackSize.toNat, .ok ()⟩ :: t) u
      "apply task ended without an outcome"

/-- Whoever is asked about a job is asked about it once, by the task that handles it. -/
theorem Handled.questions {a : Admission A} {job : Job} {t : List (Deed A)} {u : Option ApplyOutcome} {why : String}
    (h : Handled a job t u why) : (∀ p ∈ sent t, ∃ info, p = Report.post job.id .inProgress info) ∧
      ((∃ s, ⟨s, .startApplyTask a.config.applyTaskStackSize.toNat, .ok ()⟩ ∈ t) ∧
        t.filterMap (·.request.question?) =
          a.handler.toList.map (fun h => (h, job, a.config.downloadChunkSize.toNat)) ∨
      ∃ s c, t = [⟨s, .startApplyTask a.config.applyTaskStackSize.toNat, .error c⟩] ∧ u = none ∧
        why = "failed to spawn apply task: " ++ c.top) := by
  cases h with
  | unstarted s c => exact ⟨(fun _ hp => nomatch hp), .inr ⟨s, c, rfl, rfl, rfl⟩⟩
  | started s h =>
    obtain ⟨hquestions, hprogress⟩ := Activity.ran_decide h
    exact ⟨hprogress, .inl ⟨⟨s, List.mem_cons_self⟩, hquestions⟩⟩

namespace Activity

variable {handler : Option A.Handler} {job : Job} {chunkSize : Nat} {t : List (Deed A)}

/-- A job whose acceptance has had a reply is handled, if a task can be had for it, and settled if the handler
has an outcome. -/
theorem ran_carryOut_heard {a : Admission A} {o : Option (Except UpdateError ApplyOutcome)}
    (h : Ran (carryOut a job) t o) (hh : Heard t) :
    ∃ u why accepting handling settling, t = accepting ++ handling ++ settling ∧
      sent accepting = [Report.post job.id .accepted "Job accepted"] ∧
      Handled a job handling u why ∧
      (∀ d ∈ accepting ++ settling, ¬ d.request.OfHandling) ∧
      (u = none → settling = [] ∧ o = some (.error (.apply why))) ∧
      ∀ outcome, u = some outcome → ∃ final, Settled job settling outcome final ∧
        sent settling = terminal job.id final ∧ (Replied settling → o = some (.ok final)) := by
  obtain ⟨s, s', r, notes, rest, rfl, hnotes, happly, hlast⟩ := ran_carryOut h
  have hsilent : ∀ s path body reply, (⟨s, .post path body, some reply⟩ : Deed A) ∉ notes := by
    intro s path body reply hd
    obtain ⟨e, he⟩ := hnotes _ hd
    cases he
  have hr : r.isSome := by
    obtain ⟨s₁, path, body, reply, hd⟩ := hh
    cases r with
    | some => rfl
    | none =>
      rw [hlast rfl] at hd
      simp [hsilent] at hd
  have haccepting : ∀ d ∈ (⟨s, .note (.jobAccepted job.id job.url job.size), ()⟩ ::
      ⟨s', .post Report.path (Report.body job.id .accepted "Job accepted"), r⟩ :: notes : List (Deed A)),
      ¬ d.request.OfHandling := by
    refine List.forall_mem_cons.mpr ⟨id, List.forall_mem_cons.mpr ⟨id, fun d hd => ?_⟩⟩
    obtain ⟨e, he⟩ := hnotes d hd
    exact he ▸ id
  have haccepted : sent (⟨s, .note (.jobAccepted job.id job.url job.size), ()⟩ ::
      ⟨s', .post Report.path (Report.body job.id .accepted "Job accepted"), r⟩ :: notes : List (Deed A)) =
      [Report.post job.id .accepted "Job accepted"] := congrArg (List.cons _) (sent_notes hnotes)
  obtain ⟨s₂, started, rest, rfl, hunstarted, hstarted⟩ := ran_applyJob (happly hr)
  cases started with
  | error c =>
    obtain ⟨rfl, rfl⟩ := hunstarted c rfl
    refine ⟨none, _, _, _, [], (List.append_nil _).symm, haccepted, .unstarted s₂ c, ?_, fun _ => ⟨rfl, rfl⟩, nofun⟩
    rwa [List.append_nil]
  | ok =>
    obtain ⟨r, hsettle, rfl⟩ := hstarted rfl
    obtain ⟨u, handling, settling, rfl, hdecide, hsettling, hlost, houtcome⟩ := ran_settle hsettle
    refine ⟨u, _, _, _ :: handling, settling, by simp, haccepted, .started s₂ hdecide,
      List.forall_mem_append.mpr ⟨haccepting, hsettling⟩, fun hu => ?_, fun outcome hu => ?_⟩
    · obtain ⟨hnone, rfl⟩ := hlost hu
      exact ⟨hnone, rfl⟩
    · obtain ⟨final, hsettled, htold, hfinal⟩ := houtcome outcome hu
      refine ⟨final, hsettled, htold, fun hreplied => ?_⟩
      rw [hfinal hreplied]
      rfl

/-! ## The fetch -/

/-- A fetch that is answered receives the answer; any other asks for a job at the most. -/
theorem ran_fetch {o : Option (Except UpdateError FetchOutcome)} (h : Ran fetch t o) :
    ((∀ s r, (⟨s, .claim, r⟩ : Deed A) ∉ t) ∧
      ∀ s path response, (⟨s, .get path, some (.ok response)⟩ : Deed A) ∉ t) ∨
    ∃ s₀ s₁ s₂ s₃ a response rest, t = ⟨s₀, .inProgress, false⟩ :: ⟨s₁, .admission, .ok a⟩ ::
      ⟨s₂, .note .fetching, ()⟩ :: ⟨s₃, .get (fetchPath a.version), some (.ok response)⟩ :: rest ∧
      Ran (receive a response) rest o := by
  obtain _ | _ | ⟨s₀, busy, h⟩ := h
  cases busy with
  | true =>
    cases h
    exact .inl (by simp)
  | false =>
    obtain _ | _ | ⟨s₁, admitted, h⟩ := h
    match admitted, h with
    | .error e, h =>
      cases h
      exact .inl (by simp)
    | .ok a, h =>
      obtain _ | _ | ⟨s₂, _, h⟩ := h
      obtain _ | _ | ⟨s₃, r, h⟩ := h
      match r, h with
      | none, h =>
        cases h
        exact .inl (by simp)
      | some (.error c), h =>
        cases h
        exact .inl (by simp)
      | some (.ok response), h => exact .inr ⟨s₀, s₁, s₂, s₃, a, response, _, rfl, h⟩

end Activity

/-- A fetch that takes a job on asks the service for it and accepts it, and when the job is let go it has no more
to say about it. -/
structure JobTaken (a : Admission A) (job : Job) (asking accepting after : List (Deed A)) : Prop where
  admitted : ∃ s, ⟨s, .admission, .ok a⟩ ∈ asking
  offered : ∃ s response, ⟨s, .get (fetchPath a.version), some (.ok response)⟩ ∈ asking ∧
    Payload.ofBytes response.body = .ok (.job job)
  unasked : sent asking = []
  accepted : sent accepting = [Report.post job.id .accepted "Job accepted"]
  silent : sent after = []
  unhandled : ∀ d ∈ asking ++ accepting ++ after, ¬ d.request.OfHandling

/-- The course of a job whose task has been started: it is handled, and its outcome is settled. -/
structure JobCourse (a : Admission A) (job : Job) (u : Option ApplyOutcome)
    (o : Option (Except UpdateError FetchOutcome)) (handling settling : List (Deed A)) : Prop where
  handled : Ran (Activity.decide a.handler job a.config.downloadChunkSize.toNat) handling u
  questions : handling.filterMap (·.request.question?) =
    a.handler.toList.map fun h => (h, job, a.config.downloadChunkSize.toNat)
  progress : ∀ p ∈ sent handling, ∃ info, p = Report.post job.id .inProgress info
  unhandled : ∀ d ∈ settling, ¬ d.request.OfHandling
  lost : u = none → settling = [] ∧ o = some (.error (.apply "apply task ended without an outcome"))
  settled : ∀ outcome, u = some outcome → ∃ final, Settled job settling outcome final ∧
    sent settling = terminal job.id final ∧ o = some (.ok (fetched job.id final))

theorem Effect.OfConclude.not_ofHandling {e : Effect A} (h : e.OfConclude) : ¬ e.OfHandling := by
  cases e <;> first | exact id | exact h.elim

theorem Effect.OfConclude.post? {e : Effect A} (h : e.OfConclude) : e.post? = none := by
  cases e <;> first | rfl | exact h.elim

namespace Activity

variable {job : Job} {t : List (Deed A)}

/-- A fetch that claims the engine takes up the job it was sent, carries it out, and lets it go. -/
theorem ran_claiming {o : Option (Except UpdateError FetchOutcome)} (h : Ran fetch t o) {s : World A}
    (hc : ⟨s, .claim, true⟩ ∈ t) :
    ∃ a job s before during after r, t = (before ++ [⟨s, .takeUp job, ()⟩]) ++ during ++ after ∧
      Ran (carryOut a job) during r ∧ o = r.map (Except.map (fetched job.id)) ∧
      (∃ s, ⟨s, .admission, .ok a⟩ ∈ before) ∧
      (∃ s response, ⟨s, .get (fetchPath a.version), some (.ok response)⟩ ∈ before ∧
        Payload.ofBytes response.body = .ok (.job job)) ∧
      (∀ d ∈ before ++ [⟨s, .takeUp job, ()⟩], d.request.post? = none ∧ ¬ d.request.OfHandling) ∧
      ∀ d ∈ after, d.request.post? = none ∧ ¬ d.request.OfHandling := by
  rcases ran_fetch h with ⟨hnone, -⟩ | ⟨s₀, s₁, s₂, s₃, a, response, rest, rfl, hreceive⟩
  · exact absurd hc (hnone s true)
  · have hc : ⟨s, .claim, true⟩ ∈ rest := by simpa using hc
    by_cases hp : ∃ job, Payload.ofBytes response.body = .ok (.job job)
    · obtain ⟨job, hp⟩ := hp
      unfold receive at hreceive
      rw [hp] at hreceive
      rcases ran_takeOn hreceive with ⟨s₄, rfl, -⟩ | ⟨s₄, s₅, s₆, s₇, during, left, r, hcarry, hleft, ho, rfl⟩
      · simp at hc
      · refine ⟨a, job, s₅, [⟨s₀, .inProgress, false⟩, ⟨s₁, .admission, .ok a⟩, ⟨s₂, .note .fetching, ()⟩,
          ⟨s₃, .get (fetchPath a.version), some (.ok response)⟩, ⟨s₄, .claim, true⟩], during,
          ⟨s₆, .putDown, ()⟩ :: ⟨s₇, .release, ()⟩ :: left, r, by simp, hcarry, ho, ⟨s₁, by simp⟩,
          ⟨s₃, response, by simp, hp⟩, ?_, ?_⟩
        · simp [Effect.OfHandling, Effect.post?]
        · rw [List.forall_mem_cons, List.forall_mem_cons]
          exact ⟨⟨rfl, id⟩, ⟨rfl, id⟩, fun d hd => ⟨(hleft d hd).post?, (hleft d hd).not_ofHandling⟩⟩
    · have hclaims := hreceive.only (P := fun e => ¬ e.OfClaim)
        (only_receive (fun _ _ => id) (fun _ => id) a (not_exists.mp hp))
      exact absurd trivial (hclaims _ hc)

/-- A fetch that claims the engine accepts a job, and then a task for the job is started or cannot be. All that is
done about the job is done with the job in its hand. -/
theorem ran_claimed {o : Option (Except UpdateError FetchOutcome)} (h : Ran fetch t o) {s : World A}
    (hc : ⟨s, .claim, true⟩ ∈ t) (hr : Replied t) :
    ∃ a job s s' before accepting r held after,
      t = (before ++ [⟨s, .takeUp job, ()⟩]) ++
        (accepting ++ ⟨s', .startApplyTask a.config.applyTaskStackSize.toNat, r⟩ :: held) ++ after ∧
      JobTaken a job (before ++ [⟨s, .takeUp job, ()⟩]) accepting after ∧
      (r = .ok () → ∃ u handling settling, held = handling ++ settling ∧ JobCourse a job u o handling settling) ∧
      (∀ c, r = .error c →
        held = [] ∧ o = some (.error (.apply ("failed to spawn apply task: " ++ c.top)))) ∧
      ∀ d ∈ accepting ++ ⟨s', .startApplyTask a.config.applyTaskStackSize.toNat, r⟩ :: held,
        ¬ d.request.OfClaim := by
  obtain ⟨a, job, s, before, during, after, r, rfl, hcarry, rfl, ⟨s₁, hadmitted⟩, ⟨s₂, response, hoffered, hp⟩,
    hbefore, hafter⟩ := ran_claiming h hc
  have hduring : Replied during := (replied_append.mp (replied_append.mp hr).1).2
  have hheld : ∀ d ∈ during, ¬ d.request.OfClaim :=
    fun d hd => (hcarry.only (only_carryOut a job) d hd).not_ofClaim
  obtain ⟨u, why, accepting, handling, settling, rfl, haccepted, hhandled, hunhandled, hlost, houtcome⟩ :=
    ran_carryOut_heard hcarry (heard_of_replied hcarry hduring)
  have htaken : JobTaken a job (before ++ [⟨s, .takeUp job, ()⟩]) accepting after := by
    refine ⟨⟨s₁, List.mem_append_left _ hadmitted⟩, ⟨s₂, response, List.mem_append_left _ hoffered, hp⟩,
      sent_eq_nil.mpr fun d hd => (hbefore d hd).1, haccepted, sent_eq_nil.mpr fun d hd => (hafter d hd).1, ?_⟩
    refine List.forall_mem_append.mpr ⟨List.forall_mem_append.mpr ⟨?_, ?_⟩, ?_⟩
    · exact fun d hd => (hbefore d hd).2
    · exact fun d hd => hunhandled d (List.mem_append_left _ hd)
    · exact fun d hd => (hafter d hd).2
  cases hhandled with
  | unstarted s' c =>
    obtain ⟨rfl, rfl⟩ := hlost rfl
    refine ⟨a, job, s, s', before, accepting, .error c, [], after, by simp, htaken, nofun, ?_, by simpa using hheld⟩
    rintro _ ⟨⟩
    exact ⟨rfl, rfl⟩
  | @started s' handling _ hdecide =>
    obtain ⟨hquestions, hprogress⟩ := ran_decide hdecide
    refine ⟨a, job, s, s', before, accepting, .ok (), handling ++ settling, after, by simp, htaken, fun _ => ?_, nofun,
      by simpa using hheld⟩
    refine ⟨u, handling, settling, rfl, hdecide, hquestions, hprogress,
      fun d hd => hunhandled d (List.mem_append_right _ hd), fun hu => ?_, fun outcome hu => ?_⟩
    · obtain ⟨hnone, rfl⟩ := hlost hu
      exact ⟨hnone, rfl⟩
    · obtain ⟨final, hsettled, htold, hfinal⟩ := houtcome outcome hu
      refine ⟨final, hsettled, htold, ?_⟩
      rw [hfinal (replied_append.mp hduring).2]
      rfl

end Activity

/-! ## In a boot -/

namespace Boot

/-- What a task does with a job in its hand finds the engine in progress with that job. -/
theorem status_of_carrying (device : Device) (version : String) (ms : List (Move A)) {i : Nat} {s : World A}
    {job : Job} {recent mid past : List (Deed A)} {d : Deed A}
    (h : deedsBy i ((start A device version).run ms).history =
      recent ++ d :: (mid ++ ⟨s, .takeUp job, ()⟩ :: past))
    (hp : ∀ d ∈ mid, d.request ≠ .putDown) :
    d.found.status.inProgress = true ∧ d.found.status.jobId = some job.id := by
  have hclaimed := (claimed_run device version ms).2
  have hguarded := (guarded_run device version ms).history
  obtain ⟨between, before, hhistory, -, hbefore⟩ := split_of_deedsBy recent h
  obtain ⟨later, earlier, rfl, hmid, -⟩ := split_of_deedsBy mid hbefore
  rw [hhistory] at hclaimed hguarded
  obtain ⟨hholds, hhand⟩ := carrying_since hguarded.drop.2 (hmid ▸ hp)
  have hfound := hclaimed.split
  refine ⟨hfound.flag.mpr ⟨i, hholds⟩, ?_⟩
  exact congrArg (Option.map (·.id)) ((hfound.job i hholds).trans hhand)

/-- What a task has done was answered by the world that it found. -/
theorem reply_of_deed (device : Device) (version : String) (ms : List (Move A)) {i : Nat} {d : Deed A}
    (h : d ∈ deedsBy i ((start A device version).run ms).history) :
    ∃ saying, d.reply = (d.found.undergo saying d.request).1 := by
  obtain ⟨later, earlier, hsplit⟩ := List.append_of_mem (mem_deedsBy.mp h)
  have hgenuine := (genuine_run device version ms).2
  rw [hsplit] at hgenuine
  exact hgenuine.split.2

/-- A fetch that claims a job reports it as accepted, once and before anything else is done about the job. If a
task with the configured stack can be had then the handler is asked once, about just the job that was offered,
and unless the job is applied and its id saved, one more report ends it, which gives the reason that the fetch
returns. If it cannot, the handler is not asked, the fetch returns an error, and that the job was accepted is all
that is reported. Meanwhile the status shows the job. -/
theorem claimed_job_reported (device : Device) (version : String) (ms : List (Move A)) {i : Nat}
    {t : List (Deed A)} {o : Option (Except UpdateError FetchOutcome)} (h : Ran Activity.fetch t o)
    (ht : t <:+: (deedsBy i ((start A device version).run ms).history).reverse) {s : World A}
    (hc : ⟨s, .claim, true⟩ ∈ t) (hr : Replied t) :
    ∃ (a : Admission A) (stack : Nat) (job : Job) (asking accepting : List (Deed A)) (s : World A)
      (held after : List (Deed A)), stack = a.config.applyTaskStackSize.toNat ∧
      t = asking ++ (accepting ++ ⟨s, .startApplyTask stack, s.device.startApplyTask stack⟩ :: held) ++ after ∧
      JobTaken a job asking accepting after ∧
      (s.device.startApplyTask stack = .ok () →
        ∃ u handling settling, held = handling ++ settling ∧ JobCourse a job u o handling settling) ∧
      (∀ c, s.device.startApplyTask stack = .error c →
        held = [] ∧ o = some (.error (.apply ("failed to spawn apply task: " ++ c.top)))) ∧
      ∀ d ∈ accepting ++ ⟨s, .startApplyTask stack, s.device.startApplyTask stack⟩ :: held,
        d.found.status.inProgress = true ∧ d.found.status.jobId = some job.id := by
  obtain ⟨a, job, s', s, before, accepting, r, held, after, rfl, htaken, hstarted, hunstarted, hheld⟩ :=
    Activity.ran_claimed h hc hr
  have hreply : r = s.device.startApplyTask a.config.applyTaskStackSize.toNat := by
    obtain ⟨saying, hsaying⟩ := reply_of_deed device version ms
      (d := ⟨s, .startApplyTask a.config.applyTaskStackSize.toNat, r⟩) (List.mem_reverse.mp (ht.subset (by simp)))
    exact hsaying
  subst hreply
  refine ⟨a, _, job, _, accepting, s, held, after, rfl, rfl, htaken, hstarted, hunstarted, fun d hd => ?_⟩
  obtain ⟨prior, later, hsplit⟩ := ht
  obtain ⟨mid, rest, hd⟩ := List.append_of_mem hd
  rw [hd] at hsplit hheld
  -- the task's deeds are kept with the newest first
  have hdeeds : deedsBy i ((start A device version).run ms).history =
      (later.reverse ++ after.reverse ++ rest.reverse) ++
        d :: (mid.reverse ++ ⟨s', .takeUp job, ()⟩ :: (before.reverse ++ prior.reverse)) := by
    rw [← List.reverse_reverse (deedsBy i _), ← hsplit]
    simp
  apply status_of_carrying device version ms hdeeds
  intro d hd hput
  exact hheld d (List.mem_append_left _ (List.mem_reverse.mp hd)) (hput ▸ trivial)

abbrev attended : Application := ⟨Unit, Empty⟩

def applying : Saying := ⟨some .applied, .passed, false⟩

/-- The store refuses to write, and the service does not want to hear of the job. -/
def unsaving : List (Move attended) :=
  .call (.enable Config.default (some ()) none) :: List.replicate 8 (.go 0 applying) ++
    [.disturb ⟨[.answer offeredJob], [.answer ⟨503, []⟩, .lost "no route"], [], .none, false, true, false⟩]

def unheard : Deed A → Bool
  | ⟨_, .post .., none⟩ => true
  | _ => false

theorem replied_of_heard {t : List (Deed A)} (h : t.any unheard = false) : Replied t := by
  intro s path body hd
  rw [List.any_eq_false] at h
  exact h _ hd rfl

theorem exists_claim {t : List (Deed A)} (h : t.any claims = true) : ∃ s, ⟨s, .claim, true⟩ ∈ t := by
  obtain ⟨d, hd, hc⟩ := List.any_eq_true.mp h
  unfold claims at hc
  split at hc
  · subst hc
    exact ⟨_, hd⟩
  · cases hc

theorem claimed_job_reported_unsaved :
    ∃ t o, Ran Activity.fetch t o ∧
      t <:+: (deedsBy 1 ((start attended (.fresh .valid) "1.0.0").run
        (unsaving ++ .call .fetch :: List.replicate 40 (.go 1 applying))).history).reverse ∧
      (∃ s, ⟨s, .claim, true⟩ ∈ t) ∧ Replied t ∧
      ∃ (a : Admission attended) (stack : Nat) (job : Job) (asking accepting : List (Deed attended))
        (s : World attended) (held after : List (Deed attended)), stack = a.config.applyTaskStackSize.toNat ∧
        t = asking ++ (accepting ++ ⟨s, .startApplyTask stack, s.device.startApplyTask stack⟩ :: held) ++ after ∧
        JobTaken a job asking accepting after ∧
        (s.device.startApplyTask stack = .ok () →
          ∃ u handling settling, held = handling ++ settling ∧ JobCourse a job u o handling settling) ∧
        (∀ c, s.device.startApplyTask stack = .error c →
          held = [] ∧ o = some (.error (.apply ("failed to spawn apply task: " ++ c.top)))) ∧
        ∀ d ∈ accepting ++ ⟨s, .startApplyTask stack, s.device.startApplyTask stack⟩ :: held,
          d.found.status.inProgress = true ∧ d.found.status.jobId = some job.id := by
  let b : Boot attended := (start attended (.fresh .valid) "1.0.0").run unsaving
  have htasks : b.tasks.length = 1 := by decide +kernel
  have hturns : (Activity.fetch.trace (undergoing applying) b.world).length ≤ 40 := by decide +kernel
  have hclaims : (Activity.fetch.trace (undergoing applying) b.world).any claims = true := by decide +kernel
  have hheard : (Activity.fetch.trace (undergoing applying) b.world).any unheard = false := by decide +kernel
  have hran := ran_trace (undergoing applying) Activity.fetch b.world
  have hinfix := infix_fetch b applying hturns []
  rw [htasks, List.append_nil, ← run_append] at hinfix
  obtain ⟨s, hc⟩ := exists_claim hclaims
  have hr := replied_of_heard hheard
  exact ⟨_, _, hran, hinfix, ⟨s, hc⟩, hr, claimed_job_reported _ _ _ hran hinfix hc hr⟩

def overgrown : Config := { Config.default with applyTaskStackSize := 4611686018427387904 }

def deferring : Saying := ⟨some (.deferred "later"), .passed, false⟩

/-- A job is offered to an engine that can have no task for it. -/
def overstretched : Boot attended :=
  (start attended (.fresh .valid) "1.0.0").run (.call (.enable overgrown (some ()) none) ::
    List.replicate 8 (.go 0 deferring) ++ [.disturb ⟨[.answer offeredJob], [], [], .none, false, false, false⟩])

def overstretching : List (Deed attended) := Activity.fetch.trace (undergoing deferring) overstretched.world

def failsWith {α : Type} (e : UpdateError) : Option (Except UpdateError α) → Bool
  | some (.error e') => e' == e
  | _ => false

theorem eq_of_failsWith {α : Type} {e : UpdateError} {o : Option (Except UpdateError α)}
    (h : failsWith e o = true) : o = some (.error e) := by
  match o, h with
  | some (.error e'), h => rw [eq_of_beq h]

/-- The configuration is a valid one and the handler would have deferred the job. The job is accepted, the handler
is not asked, and nothing else is reported about the job. -/
theorem accepted_job_unhandled :
    overgrown.fault? = none ∧ (∃ s, ⟨s, .claim, true⟩ ∈ overstretching) ∧ Replied overstretching ∧
    Ran Activity.fetch overstretching (some (.error (.apply
      "failed to spawn apply task: Resource temporarily unavailable (os error 11)"))) ∧
    overstretching.filterMap (·.request.question?) = [] ∧
    sent overstretching = [Report.post "B" .accepted "Job accepted"] := by
  have hran := ran_trace (undergoing deferring) Activity.fetch overstretched.world
  have hfails : failsWith (.apply "failed to spawn apply task: Resource temporarily unavailable (os error 11)")
      (Routine.run (undergoing deferring) Activity.fetch overstretched.world).1 = true := by decide +kernel
  have hquestions : overstretching.all (·.request.question?.isNone) = true := by decide +kernel
  refine ⟨by decide, exists_claim (by decide +kernel), replied_of_heard (by decide +kernel),
    eq_of_failsWith hfails ▸ hran, List.filterMap_eq_nil_iff.mpr fun d hd => ?_, by decide +kernel⟩
  exact Option.isNone_iff_eq_none.mp (List.all_eq_true.mp hquestions d hd)

end Boot

end FirmwareUpdate
