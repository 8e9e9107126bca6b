import FirmwareUpdate.Proofs.JobReports
import FirmwareUpdate.Proofs.ReportBodies

/-!
# Jobs whose handler never comes back

The report that ends a job is made by the task that handles it. When the handler ends without an outcome it
takes that task down, and whoever waits for the task returns an error and reports nothing. The service was
told that the job is accepted, and perhaps how far it had got, and hears no more of it.
-/

namespace FirmwareUpdate

open Routine Activity Boot

variable {A : Application}

/-- The course of a fetch whose job has been accepted: what its handler came back with, what that was settled
as, and what the service has been told. -/
structure AcceptedCourse (a : Admission A) (job : Job) (u final : Option ApplyOutcome)
    (o : Option (Except UpdateError FetchOutcome)) (before handling settling t : List (Deed A)) : Prop where
  course : before ++ handling ++ settling <+: t
  offered : ∃ s response, ⟨s, .get (fetchPath a.version), some (.ok response)⟩ ∈ before ∧
    Payload.ofBytes response.body = .ok (.job job)
  handled : ∃ why, Handled a job handling u why ∧ (u = none → final = none ∧ o = some (.error (.apply why)))
  settled : ∀ outcome, u = some outcome → ∃ f, final = some f ∧ Settled job settling outcome f
  progress : ∀ p ∈ sent handling, ∃ info, p = Report.post job.id .inProgress info
  told : sent t = Report.post job.id .accepted "Job accepted" :: (sent handling ++ final.elim [] (terminal job.id))

/-- A fetch that claims a job and has its acceptance answered reports the acceptance, how far the job has
got, and what it was settled as, if it was. -/
theorem Activity.ran_accepted {t : List (Deed A)} {o : Option (Except UpdateError FetchOutcome)}
    (h : Ran fetch t o) {s : World A} (hc : ⟨s, .claim, true⟩ ∈ t) (hh : Heard t) :
    ∃ a job u final before handling settling, AcceptedCourse a job u final o before handling settling t := by
  obtain ⟨a, job, s, before, during, after, r, rfl, hcarry, rfl, -, ⟨s₂, response, hoffered, hp⟩,
    hbefore, hafter⟩ := ran_claiming h hc
  have hasked : sent (before ++ [⟨s, .takeUp job, ()⟩]) = [] := sent_eq_nil.mpr fun d hd => (hbefore d hd).1
  have hleft : sent after = [] := sent_eq_nil.mpr fun d hd => (hafter d hd).1
  -- only what carries the job out reports anything
  have hduring : Heard during := by
    obtain ⟨s₁, path, body, reply, hd⟩ := hh
    refine ⟨s₁, path, body, reply, ?_⟩
    rcases List.mem_append.mp hd with hd | hd
    · rcases List.mem_append.mp hd with hd | hd
      · cases (hbefore _ hd).1
      · exact hd
    · cases (hafter _ hd).1
  obtain ⟨u, why, accepting, handling, settling, rfl, haccepted, hhandled, -, hlost, hsettled⟩ :=
    ran_carryOut_heard hcarry hduring
  have htold : sent ((before ++ [⟨s, .takeUp job, ()⟩]) ++ (accepting ++ handling ++ settling) ++ after) =
      Report.post job.id .accepted "Job accepted" :: (sent handling ++ sent settling) := by
    rw [sent_append, sent_append, hasked, hleft, sent_append, sent_append, haccepted]
    simp
  have hending : ∃ final : Option ApplyOutcome, sent settling = final.elim [] (terminal job.id) ∧
      (u = none → final = none ∧ r.map (Except.map (fetched job.id)) = some (.error (.apply why))) ∧
      ∀ outcome, u = some outcome → ∃ f, final = some f ∧ Settled job settling outcome f := by
    cases u with
    | none =>
      obtain ⟨rfl, rfl⟩ := hlost rfl
      exact ⟨none, rfl, fun _ => ⟨rfl, rfl⟩, fun _ hu => nomatch hu⟩
    | some outcome =>
      obtain ⟨final, hfinal, hterminal, -⟩ := hsettled outcome rfl
      refine ⟨some final, hterminal, (fun hu => nomatch hu), ?_⟩
      rintro _ ⟨⟩
      exact ⟨final, rfl, hfinal⟩
  obtain ⟨final, hterminal, hlost, hsettled⟩ := hending
  refine ⟨a, job, u, final, before ++ [⟨s, .takeUp job, ()⟩] ++ accepting, handling, settling, ?_⟩
  exact {
    course := ⟨after, by simp⟩
    offered := ⟨s₂, response, by simp [hoffered], hp⟩
    handled := ⟨why, hhandled, hlost⟩
    settled := hsettled
    progress := hhandled.questions.1
    told := by rw [htold, hterminal] }

theorem Report.post_inj {id id' info info' : String} {status status' : JobStatus}
    (h : post id status info = post id' status' info') : id = id' ∧ status = status' :=
  body_inj (congrArg Post.body h)

namespace AcceptedCourse

variable {a : Admission A} {job : Job} {u final : Option ApplyOutcome}
  {o : Option (Except UpdateError FetchOutcome)} {before handling settling t : List (Deed A)}

/-- The reports of a fetch name its job, and the only one that rejects it is the one that ends it. -/
theorem named (h : AcceptedCourse a job u final o before handling settling t) {p : Post} (hp : p ∈ sent t) :
    ∃ status info, p = Report.post job.id status info ∧
      (status = .rejected → ∃ reason, final = some (.rejected reason)) := by
  rw [h.told] at hp
  rcases List.mem_cons.mp hp with rfl | hp
  · exact ⟨_, _, rfl, nofun⟩
  · rcases List.mem_append.mp hp with hp | hp
    · obtain ⟨info, rfl⟩ := h.progress p hp
      exact ⟨_, _, rfl, nofun⟩
    · match final, hp with
      | some (.deferred reason), hp => exact ⟨_, _, List.mem_singleton.mp hp, nofun⟩
      | some (.rejected reason), hp => exact ⟨_, _, List.mem_singleton.mp hp, fun _ => ⟨reason, rfl⟩⟩

theorem rejection_mem_iff (h : AcceptedCourse a job u final o before handling settling t) {id : String} :
    (∃ info, Report.post id .rejected info ∈ sent t) ↔ id = job.id ∧ ∃ reason, final = some (.rejected reason) := by
  constructor
  · rintro ⟨info, hmem⟩
    obtain ⟨status, _, hpost, hrejected⟩ := h.named hmem
    obtain ⟨hid, hstatus⟩ := Report.post_inj hpost
    exact ⟨hid, hrejected hstatus.symm⟩
  · rintro ⟨rfl, reason, rfl⟩
    exact ⟨reason, by simp [h.told, terminal]⟩

end AcceptedCourse

/-- A fetch that has told the service that it accepts a job tells it later that the job is rejected if, and
only if, the handler came back with an outcome and that was settled as a rejection. When there is no task for the
job, or the handler ends without an outcome, the fetch returns an error, and what it told the service is that the
job is accepted and in progress, and nothing after that. -/
theorem rejection_told_iff {t : List (Deed A)} {o : Option (Except UpdateError FetchOutcome)}
    (h : Ran Activity.fetch t o) {s s' : World A} {id : String} {reply : Except Cause Response}
    (hc : ⟨s, .claim, true⟩ ∈ t)
    (ha : ⟨s', .post Report.path (Report.body id .accepted "Job accepted"), some reply⟩ ∈ t) :
    ∃ a job u final before handling settling,
      AcceptedCourse a job u final o before handling settling t ∧ job.id = id ∧
      ((∃ info, Report.post id .rejected info ∈ sent t) ↔ ∃ reason, final = some (.rejected reason)) := by
  obtain ⟨a, job, u, final, before, handling, settling, hcourse⟩ :=
    Activity.ran_accepted h hc ⟨s', _, _, reply, ha⟩
  have hmem : Report.post id .accepted "Job accepted" ∈ sent t := List.mem_filterMap.mpr ⟨_, ha, rfl⟩
  obtain ⟨status, info, hpost, -⟩ := hcourse.named hmem
  obtain ⟨rfl, -⟩ := Report.post_inj hpost
  refine ⟨a, job, u, final, before, handling, settling, hcourse, rfl, ?_⟩
  rw [hcourse.rejection_mem_iff]
  exact and_iff_right rfl

namespace Boot

/-- The job is offered to an engine whose handler does not come back. -/
def deserted : Boot attended :=
  (start attended (.fresh .valid) "1.0.0").run (.call (.enable Config.default (some ()) none) ::
    List.replicate 8 (.go 0 obliging) ++ [.disturb ⟨[.answer offeredJob], [], [], .none, false, false, false⟩])

def desertion : List (Deed attended) := Activity.fetch.trace (undergoing obliging) deserted.world

def abandoned : Boot attended := deserted.run (.call .fetch :: List.replicate 16 (.go 1 obliging))

def acceptsFor (id : String) : Deed A → Bool
  | ⟨_, .post path body, some _⟩ => path == Report.path && body == Report.body id .accepted "Job accepted"
  | _ => false

theorem exists_acceptance {t : List (Deed A)} {id : String} (h : t.any (acceptsFor id) = true) :
    ∃ s reply, ⟨s, .post Report.path (Report.body id .accepted "Job accepted"), some reply⟩ ∈ t := by
  obtain ⟨d, hd, ha⟩ := List.any_eq_true.mp h
  unfold acceptsFor at ha
  split at ha
  · rename_i s path body reply
    simp only [Bool.and_eq_true, beq_iff_eq] at ha
    obtain ⟨rfl, rfl⟩ := ha
    exact ⟨s, reply, hd⟩
  · cases ha

theorem desertion_accepts : (∃ s, ⟨s, .claim, true⟩ ∈ desertion) ∧
    ∃ s reply, ⟨s, .post Report.path (Report.body "B" .accepted "Job accepted"), some reply⟩ ∈ desertion :=
  ⟨exists_claim (by decide +kernel), exists_acceptance (by decide +kernel)⟩

end Boot

theorem rejection_told_iff_desertion :
    ∃ o, Ran Activity.fetch desertion o ∧ ∃ s s' reply, ⟨s, .claim, true⟩ ∈ desertion ∧
      ⟨s', .post Report.path (Report.body "B" .accepted "Job accepted"), some reply⟩ ∈ desertion ∧
      ∃ a job u final before handling settling,
        AcceptedCourse a job u final o before handling settling desertion ∧ job.id = "B" ∧
        ((∃ info, Report.post "B" .rejected info ∈ sent desertion) ↔ ∃ reason, final = some (.rejected reason)) := by
  obtain ⟨⟨s, hc⟩, s', reply, ha⟩ := desertion_accepts
  have hran := ran_trace (undergoing obliging) Activity.fetch deserted.world
  exact ⟨_, hran, s, s', reply, hc, ha, rejection_told_iff hran hc ha⟩

/-- The handler ends without an outcome, the fetch returns its error, and all that the service has been told is
that the job is accepted. -/
theorem accepted_job_left_hanging :
    (∃ s, ⟨s, .claim, true⟩ ∈ desertion) ∧
    (∃ s reply, ⟨s, .post Report.path (Report.body "B" .accepted "Job accepted"), some reply⟩ ∈ desertion) ∧
    Ran Activity.fetch desertion (some (.error (.apply "apply task ended without an outcome"))) ∧
    abandoned.tasks.all (·.next?.isNone) = true ∧
    abandoned.world.device.network.posts = [Report.post "B" .accepted "Job accepted"] ∧
    ∀ info, Report.post "B" .rejected info ∉ abandoned.world.device.network.posts := by
  obtain ⟨hclaims, haccepts⟩ := desertion_accepts
  have hran := ran_trace (undergoing obliging) Activity.fetch deserted.world
  have hfails : failsWith (.apply "apply task ended without an outcome")
      (Routine.run (undergoing obliging) Activity.fetch deserted.world).1 = true := by decide +kernel
  have hposts : abandoned.world.device.network.posts = [Report.post "B" .accepted "Job accepted"] := by
    decide +kernel
  refine ⟨hclaims, haccepts, eq_of_failsWith hfails ▸ hran, by decide +kernel, hposts, fun info hmem => ?_⟩
  rw [hposts] at hmem
  cases (Report.post_inj (List.mem_singleton.mp hmem)).2

end FirmwareUpdate
