import FirmwareUpdate.Proofs.Attempts
import FirmwareUpdate.Proofs.JobReports

/-!
# Answers without a job

Most answers to a fetch offer no job: there is none, the service reports an error, or the answer makes no
sense. A fetch that is answered like this ends at once. It has told the service what it found wrong with
the answer, at most, and has changed nothing.
-/

namespace FirmwareUpdate

open Routine Activity

variable {A : Application}

/-! ## What an answer says -/

def dismissal (code : Int) (description : Option String) : Except UpdateError FetchOutcome :=
  if code = noUpdateCode then .ok .noUpdate else .error (.cloud code (description.getD "unknown error"))

def noAnswer : UpdateError := .parse "the body is no fetch answer"

namespace FetchAnswer

open Json (Tree)

theorem optional_eq_none_iff {α : Type} {read : Tree → Option α} {field : Option Tree} {x : Option α}
    (h : Tree.optional read field = some x) : x = none ↔ field = none ∨ field = some .null := by
  unfold Tree.optional at h
  cases field with
  | none =>
    cases h
    exact iff_of_true rfl (.inl rfl)
  | some t =>
    unfold Tree.nullable at h
    dsimp only at h
    split at h
    · cases h
      exact iff_of_true rfl (.inr rfl)
    · rename_i hnull
      obtain ⟨y, -, rfl⟩ := Option.map_eq_some_iff.mp h
      refine iff_of_false nofun ?_
      rintro (h | h)
      · cases h
      · exact hnull (Option.some.inj h)

/-- What a decoded answer is without was missing in the record, or null. -/
theorem absent_iff {t : Tree} {a : FetchAnswer} (h : ofTree? t = some a) :
    ∃ jobId url size version metadata code description,
      t.fields? fieldNames = some [jobId, url, size, version, metadata, code, description] ∧
      (a.jobId = none ↔ jobId = none ∨ jobId = some .null) ∧ (a.url = none ↔ url = none ∨ url = some .null) ∧
      (a.size = none ↔ size = none ∨ size = some .null) ∧
      (a.errorCode = none ↔ code = none ∨ code = some .null) := by
  obtain ⟨fields, hfields, h⟩ := Option.bind_eq_some_iff.mp h
  split at h
  · rename_i jobId url size version metadata code description
    obtain ⟨id, hid, h⟩ := Option.bind_eq_some_iff.mp h
    obtain ⟨place, hurl, h⟩ := Option.bind_eq_some_iff.mp h
    obtain ⟨length, hsize, h⟩ := Option.bind_eq_some_iff.mp h
    obtain ⟨_, -, h⟩ := Option.bind_eq_some_iff.mp h
    obtain ⟨_, -, h⟩ := Option.bind_eq_some_iff.mp h
    obtain ⟨_, hcode, h⟩ := Option.bind_eq_some_iff.mp h
    obtain ⟨_, -, h⟩ := Option.bind_eq_some_iff.mp h
    cases h
    exact ⟨jobId, url, size, version, metadata, code, description, hfields, optional_eq_none_iff hid,
      optional_eq_none_iff hurl, optional_eq_none_iff hsize, optional_eq_none_iff hcode⟩
  · cases h

/-- What an answer lacks to be a job, in the order in which it is looked for. -/
def faults (a : FetchAnswer) : List Rejection :=
  (if present a.jobId = none then [.missingId] else []) ++
    (if present a.url = none then [.missingUrl] else []) ++ (if a.size = none then [.missingSize] else [])

variable {a : FetchAnswer}

theorem payload_faulty (hc : a.errorCode = none) {r : Rejection} (hr : a.faults.head? = some r) :
    a.payload = .ok (.rejected (present a.jobId) r) := by
  unfold faults at hr
  unfold payload
  rw [hc]
  cases hid : present a.jobId with
  | none =>
    rw [if_pos hid] at hr
    cases hr
    rfl
  | some id =>
    rw [if_neg (by simp [hid])] at hr
    cases hurl : present a.url with
    | none =>
      rw [if_pos hurl] at hr
      cases hr
      rfl
    | some url =>
      rw [if_neg (by simp [hurl])] at hr
      cases hsize : a.size with
      | none =>
        rw [if_pos hsize] at hr
        cases hr
        rfl
      | some size =>
        rw [if_neg (by simp [hsize])] at hr
        cases hr

theorem payload_sound (hc : a.errorCode = none) (hf : a.faults = []) : ∃ job, a.payload = .ok (.job job) := by
  unfold faults at hf
  obtain ⟨id, hid⟩ : ∃ id, present a.jobId = some id := Option.ne_none_iff_exists'.mp fun h => by simp [h] at hf
  obtain ⟨url, hurl⟩ : ∃ url, present a.url = some url := Option.ne_none_iff_exists'.mp fun h => by simp [h] at hf
  obtain ⟨size, hsize⟩ : ∃ size, a.size = some size := Option.ne_none_iff_exists'.mp fun h => by simp [h] at hf
  unfold payload
  rw [hc, hid, hurl, hsize]
  exact ⟨_, rfl⟩

end FetchAnswer

theorem Payload.ofBytes_none {body : Bytes} (h : FetchAnswer.ofBytes? body = none) :
    ofBytes body = .error noAnswer := by
  unfold ofBytes
  rw [h]
  rfl

theorem Payload.ofBytes_some {body : Bytes} {a : FetchAnswer} (h : FetchAnswer.ofBytes? body = some a) :
    ofBytes body = a.payload := by
  unfold ofBytes
  rw [h]

/-- What is reported about a body that is sent with a 200, and what the fetch comes to, unless the body is a
job. -/
inductive Refused (body : Bytes) : List Post → Except UpdateError FetchOutcome → Prop
  | undecoded (h : FetchAnswer.ofBytes? body = none) :
      Refused body [Report.post ((salvageJobId body).getD "") .rejected payloadErrorReason] (.error noAnswer)
  | incomplete {a : FetchAnswer} {r : Rejection} (h : FetchAnswer.ofBytes? body = some a)
      (hc : a.errorCode = none) (hr : a.faults.head? = some r) :
      Refused body [Report.post ((FetchAnswer.present a.jobId).getD "") .rejected r.reason]
        (.error (.invalidJob r.reason))
  | dismissed {a : FetchAnswer} {code : Int} (h : FetchAnswer.ofBytes? body = some a)
      (hc : a.errorCode = some code) : Refused body [] (dismissal code a.description)

theorem refused_or_offered (body : Bytes) :
    (∃ posts r, Refused body posts r) ∨ ∃ job, Payload.ofBytes body = .ok (.job job) := by
  cases h : FetchAnswer.ofBytes? body with
  | none => exact .inl ⟨_, _, .undecoded h⟩
  | some a =>
    cases hc : a.errorCode with
    | some code => exact .inl ⟨_, _, .dismissed h hc⟩
    | none =>
      cases hr : a.faults.head? with
      | some r => exact .inl ⟨_, _, .incomplete h hc hr⟩
      | none =>
        obtain ⟨job, hjob⟩ := FetchAnswer.payload_sound hc (List.head?_eq_none_iff.mp hr)
        exact .inr ⟨job, (Payload.ofBytes_some h).trans hjob⟩

/-- What an answer says that is sent without a 200: an error code counts, a job does not. -/
def verdict (response : Response) : Except UpdateError FetchOutcome :=
  match FetchAnswer.ofBytes? response.body with
  | none => .error (.http response.status)
  | some a =>
    match a.errorCode with
    | none => .error (.http response.status)
    | some code => dismissal code a.description

/-! ## What a fetch does about it -/

def Effect.OfInquiry : Effect A → Prop
  | .inProgress | .admission | .get _ | .post .. | .note _ => True
  | _ => False

theorem World.passive_inquiry (w : World A) (s : Saying) {e : Effect A} (h : e.OfInquiry) :
    Passive w (w.undergo s e).2 := by
  cases e <;> first | exact h.elim | exact ⟨rfl, rfl, rfl, rfl, rfl⟩

/-- The fetch has made these reports and done nothing else: no image was opened, no handler asked, and
nothing of the engine, the record and the slots was changed by it. -/
structure Declines (posts : List Post) (t : List (Deed A)) : Prop where
  reports : sent t = posts
  unopened : ∀ d ∈ t, ∀ url, d.request ≠ .openImage url
  unasked : ∀ d ∈ t, ∀ handler job chunkSize, d.request ≠ .decide handler job chunkSize
  passive : ∀ d ∈ t, ∀ s, d.found.Passive (d.found.undergo s d.request).2

theorem Declines.of_inquiry {posts : List Post} {t : List (Deed A)} (hs : sent t = posts)
    (h : ∀ d ∈ t, d.request.OfInquiry) : Declines posts t where
  reports := hs
  unopened d hd url he := by
    have hi := h d hd
    rw [he] at hi
    exact hi
  unasked d hd handler job chunkSize he := by
    have hi := h d hd
    rw [he] at hi
    exact hi
  passive d hd s := d.found.passive_inquiry s (h d hd)

namespace Activity

variable {a : Admission A} {response : Response} {t : List (Deed A)}
  {o : Option (Except UpdateError FetchOutcome)}

theorem ran_rejection {e : Event} {id info : String} {r : Except UpdateError FetchOutcome}
    (h : Ran (do
      note e
      reportLogged id .rejected info
      return r : Activity A _) t o) :
    sent t = [Report.post id .rejected info] ∧ (Replied t → o = some r) := by
  obtain _ | _ | ⟨s, _, htold⟩ := h
  obtain ⟨ended, hreport, rfl⟩ := Ran.of_bind_done (f := fun _ => r) htold
  obtain ⟨hsent, hended⟩ := sent_reportLogged hreport
  refine ⟨hsent, fun hr => ?_⟩
  rw [hended ((replied_append (t := [_])).mp hr).2]
  rfl

theorem ran_dismissed {answer : FetchAnswer} {code : Int}
    (hbody : FetchAnswer.ofBytes? response.body = some answer) (hc : answer.errorCode = some code)
    (h : Ran (receive a response) t o) : sent t = [] ∧ o = some (dismissal code answer.description) := by
  have hpayload : Payload.ofBytes response.body =
      if code = noUpdateCode then .ok .noUpdate
      else .error (.cloud code (answer.description.getD "unknown error")) := by
    rw [Payload.ofBytes_some hbody, FetchAnswer.payload, hc]
  unfold receive at h
  unfold dismissal
  rw [hpayload] at h
  by_cases hcode : code = noUpdateCode
  · rw [if_pos hcode] at h ⊢
    obtain _ | _ | ⟨s, _, hdone⟩ := h
    cases hdone
    exact ⟨rfl, rfl⟩
  · rw [if_neg hcode] at h ⊢
    obtain _ | _ | ⟨s, _, hdone⟩ := h
    cases hdone
    exact ⟨rfl, rfl⟩

theorem ran_incomplete {answer : FetchAnswer} {r : Rejection}
    (hbody : FetchAnswer.ofBytes? response.body = some answer) (hc : answer.errorCode = none)
    (hr : answer.faults.head? = some r) (h : Ran (receive a response) t o) :
    sent t = [Report.post ((FetchAnswer.present answer.jobId).getD "") .rejected r.reason] ∧
      (Replied t → o = some (.error (.invalidJob r.reason))) := by
  unfold receive at h
  rw [Payload.ofBytes_some hbody, FetchAnswer.payload_faulty hc hr] at h
  exact ran_rejection h

theorem ran_undecoded (hbody : FetchAnswer.ofBytes? response.body = none) (h : Ran (receive a response) t o) :
    Ran (rejectPayload response noAnswer) t o := by
  unfold receive at h
  rw [Payload.ofBytes_none hbody] at h
  exact h

theorem ran_refused {posts : List Post} {r : Except UpdateError FetchOutcome} (hok : response.ok = true)
    (hr : Refused response.body posts r) (h : Ran (receive a response) t o) :
    sent t = posts ∧ (Replied t → o = some r) := by
  cases hr with
  | undecoded hbody =>
    have hreject := ran_undecoded hbody h
    unfold rejectPayload at hreject
    rw [if_pos hok] at hreject
    exact ran_rejection hreject
  | incomplete hbody hc hr => exact ran_incomplete hbody hc hr h
  | dismissed hbody hc =>
    obtain ⟨hsent, ho⟩ := ran_dismissed hbody hc h
    exact ⟨hsent, fun _ => ho⟩

theorem ran_unserved (hok : response.ok = false)
    (hcoded : ∀ answer, FetchAnswer.ofBytes? response.body = some answer → answer.errorCode ≠ none)
    (h : Ran (receive a response) t o) : sent t = [] ∧ o = some (verdict response) := by
  unfold verdict
  cases hbody : FetchAnswer.ofBytes? response.body with
  | none =>
    have hreject := ran_undecoded hbody h
    unfold rejectPayload at hreject
    rw [if_neg (by simp [hok])] at hreject
    cases hreject
    exact ⟨rfl, rfl⟩
  | some answer =>
    obtain ⟨code, hc⟩ := Option.ne_none_iff_exists'.mp (hcoded answer hbody)
    dsimp only
    rw [hc]
    exact ran_dismissed hbody hc h

/-- An answer without an error code is taken for a job, or for an attempt at one, whatever its status. -/
theorem ran_uncoded {answer : FetchAnswer} (hbody : FetchAnswer.ofBytes? response.body = some answer)
    (hc : answer.errorCode = none) (h : Ran (receive a response) t o) :
    sent t ≠ [] ∨ o = some (.error World.busy) := by
  cases hr : answer.faults.head? with
  | some r =>
    left
    rw [(ran_incomplete hbody hc hr h).1]
    exact List.cons_ne_nil _ _
  | none =>
    obtain ⟨job, hjob⟩ := FetchAnswer.payload_sound hc (List.head?_eq_none_iff.mp hr)
    unfold receive at h
    rw [Payload.ofBytes_some hbody, hjob] at h
    rcases ran_takeOn h with ⟨s, rfl, rfl⟩ | ⟨s₁, s₂, s₃, s₄, during, after, r, hcarry, -, -, rfl⟩
    · exact .inr rfl
    · left
      obtain ⟨s, s', r, notes, rest, rfl, -⟩ := ran_carryOut hcarry
      intro hnone
      have hsilent := sent_eq_nil.mp hnone
        ⟨s', .post Report.path (Report.body job.id .accepted "Job accepted"), r⟩ (by simp)
      cases hsilent

/-- Once answered, a fetch does not ask again. -/
theorem not_get_of_ran_receive (h : Ran (receive a response) t o) :
    ∀ d ∈ t, ∀ path, d.request ≠ .get path := by
  by_cases hp : ∃ job, Payload.ofBytes response.body = .ok (.job job)
  · obtain ⟨job, hp⟩ := hp
    unfold receive at h
    rw [hp] at h
    have happly {e : Effect A} (he : e.OfApply) (path : String) : e ≠ .get path := by
      rintro rfl
      exact he
    have hconclude {e : Effect A} (he : e.OfConclude) (path : String) : e ≠ .get path := by
      rintro rfl
      exact he
    rcases ran_takeOn h with ⟨s, rfl, -⟩ | ⟨s₁, s₂, s₃, s₄, during, after, r, hcarry, hafter, -, rfl⟩
    · simp
    · have hduring := hcarry.only (only_carryOut a job)
      simp only [List.cons_append, List.forall_mem_cons, List.forall_mem_append]
      exact ⟨nofun, nofun, fun d hd => happly (hduring d hd), nofun, nofun, fun d hd => hconclude (hafter d hd)⟩
  · exact h.only (P := fun e => ∀ path, e ≠ .get path)
      (only_receive (fun _ _ => nofun) (fun _ => nofun) a (not_exists.mp hp))

/-- What a fetch does that is answered: it asks for a job, and receives the answer. -/
theorem ran_answered (h : Ran fetch t o) {s : World A} {path : String}
    (hget : ⟨s, .get path, some (.ok response)⟩ ∈ t) :
    ∃ s₀ s₁ s₂ a rest, t = ⟨s₀, .inProgress, false⟩ :: ⟨s₁, .admission, .ok a⟩ :: ⟨s₂, .note .fetching, ()⟩ ::
      ⟨s, .get path, some (.ok response)⟩ :: rest ∧ Ran (receive a response) rest o := by
  rcases ran_fetch h with ⟨-, hnone⟩ | ⟨s₀, s₁, s₂, s₃, a, response', rest, rfl, hreceive⟩
  · exact absurd hget (hnone s path response)
  · have hmem : (⟨s, .get path, some (.ok response)⟩ : Deed A) =
        ⟨s₃, .get (fetchPath a.version), some (.ok response')⟩ ∨
        ⟨s, .get path, some (.ok response)⟩ ∈ rest := by simpa using hget
    rcases hmem with heq | hrest
    · cases heq
      exact ⟨s₀, s₁, s₂, a, rest, rfl, hreceive⟩
    · exact absurd rfl (not_get_of_ran_receive hreceive _ hrest path)

theorem inquiry_of_ran (h : Ran fetch t o) {s : World A} {path : String}
    (hget : ⟨s, .get path, some (.ok response)⟩ ∈ t)
    (hp : ∀ job, Payload.ofBytes response.body ≠ .ok (.job job)) : ∀ d ∈ t, d.request.OfInquiry := by
  obtain ⟨s₀, s₁, s₂, a, rest, rfl, hreceive⟩ := ran_answered h hget
  have hrest := hreceive.only (P := Effect.OfInquiry)
    (only_receive (fun _ _ => trivial) (fun _ => trivial) a hp)
  simp only [List.forall_mem_cons]
  exact ⟨trivial, trivial, trivial, trivial, hrest⟩

theorem does_get (saying : Saying) (w : World A) (path : String) :
    Does (Boot.undergoing saying) (get path : Activity A _) w
      [⟨w, .get path, (Boot.undergoing saying (.get path) w).1⟩] (Boot.undergoing saying (.get path) w).1
      (Boot.undergoing saying (.get path) w).2 := by
  have hasked : Does (Boot.undergoing saying) (perform (.get path)) w _ _ _ := .request _ w
  unfold get
  cases hr : (Boot.undergoing saying (.get path) w).1 with
  | none =>
    rw [hr] at hasked
    exact hasked.bind (.died _)
  | some result =>
    rw [hr] at hasked
    exact hasked.bind (.done result _)

/-- A fetch that is let in, and whose request is answered, receives that answer. -/
theorem get_mem_trace {w : World A} {saying : Saying} (hl : saying.lost = false) (hin : w.letIn = .ok a)
    (hget : (w.device.get (fetchPath a.version)).1 = .ok response) :
    ∃ s, ⟨s, .get (fetchPath a.version), some (.ok response)⟩ ∈ fetch.trace (Boot.undergoing saying) w := by
  unfold World.letIn at hin
  split at hin
  · cases hin
  · rename_i hidle
    have hflag : Does (Boot.undergoing saying) (perform .inProgress) w
      [⟨w, .inProgress, w.engine.inProgress⟩] (some w.engine.inProgress) w := .request _ w
    have hadmission : Does (Boot.undergoing saying) (perform .admission) w [⟨w, .admission, w.admission⟩]
      (some w.admission) w := .request _ w
    have hasked := does_get saying (w.note .fetching) (fetchPath a.version)
    have hreply : (Boot.undergoing saying (.get (fetchPath a.version)) (w.note .fetching)).1 =
        some (.ok response) := by
      change (if saying.lost then none else some (w.device.get (fetchPath a.version)).1) = _
      rw [hl, hget]
      rfl
    rw [Bool.eq_false_iff.mpr hidle] at hflag
    rw [hin] at hadmission
    rw [hreply] at hasked
    have hask : Does (Boot.undergoing saying) (ask a) w _ _ _ :=
      (does_note saying .fetching w).bind (hasked.bind (Routine.does (receive a response) _))
    have hfetch : Does (Boot.undergoing saying) fetch w _ _ _ := hflag.bind (hadmission.bind hask)
    rw [hfetch.trace_eq]
    exact ⟨w.note .fetching, by simp⟩

end Activity

theorem Refused.not_job {body : Bytes} {posts : List Post} {r : Except UpdateError FetchOutcome}
    (h : Refused body posts r) (job : Job) : Payload.ofBytes body ≠ .ok (.job job) := by
  cases h with
  | undecoded hbody =>
    rw [Payload.ofBytes_none hbody]
    exact nofun
  | incomplete hbody hc hr =>
    rw [Payload.ofBytes_some hbody, FetchAnswer.payload_faulty hc hr]
    exact nofun
  | dismissed hbody hc =>
    rw [Payload.ofBytes_some hbody, FetchAnswer.payload, hc]
    dsimp only
    split <;> exact nofun

theorem not_job_of_coded {body : Bytes}
    (hcoded : ∀ answer, FetchAnswer.ofBytes? body = some answer → answer.errorCode ≠ none) (job : Job) :
    Payload.ofBytes body ≠ .ok (.job job) := by
  cases hbody : FetchAnswer.ofBytes? body with
  | none => exact (Refused.undecoded hbody).not_job job
  | some answer =>
    obtain ⟨code, hc⟩ := Option.ne_none_iff_exists'.mp (hcoded answer hbody)
    exact (Refused.dismissed hbody hc).not_job job

theorem Activity.ends_unserved_iff {response : Response} (hok : response.ok = false) {t : List (Deed A)}
    {o : Option (Except UpdateError FetchOutcome)} (h : Ran fetch t o) {s : World A} {path : String}
    (hget : ⟨s, .get path, some (.ok response)⟩ ∈ t) :
    (o = some (verdict response) ∧ Declines [] t) ↔
      ∀ answer, FetchAnswer.ofBytes? response.body = some answer → answer.errorCode ≠ none := by
  obtain ⟨s₀, s₁, s₂, a, rest, rfl, hreceive⟩ := ran_answered h hget
  constructor
  · rintro ⟨ho, hd⟩ answer hbody hc
    rcases ran_uncoded hbody hc hreceive with hsent | hbusy
    · exact hsent hd.reports
    · rw [hbusy, verdict, hbody] at ho
      dsimp only at ho
      rw [hc] at ho
      cases ho
  · intro hcoded
    obtain ⟨hsent, ho⟩ := ran_unserved hok hcoded hreceive
    exact ⟨ho, .of_inquiry hsent (inquiry_of_ran h hget (not_job_of_coded hcoded))⟩

theorem passive_of_inquiry {α : Type} {saying : Saying} {p : Activity A α} {w w' : World A} {t : List (Deed A)}
    {o : Option α} (h : Does (Boot.undergoing saying) p w t o w') (ht : ∀ d ∈ t, d.request.OfInquiry) :
    w.Passive w' :=
  h.preserves ht (fun _ w₁ he hw => hw.trans (w₁.passive_inquiry saying he)) (.refl w)

/-- A fetch with nothing in between that is offered no job ends with the given result, and leaves an idle
engine idle. -/
structure Dismissed (posts : List Post) (r : Except UpdateError FetchOutcome) (saying : Saying) (w : World A) :
    Prop where
  ended : (Routine.run (Boot.undergoing saying) fetch w).1 = some r
  declined : Declines posts (fetch.trace (Boot.undergoing saying) w)
  passive : w.Passive (Routine.run (Boot.undergoing saying) fetch w).2
  posts : (Routine.run (Boot.undergoing saying) fetch w).2.device.network.posts = w.device.network.posts ++ posts
  idle : (Routine.run (Boot.undergoing saying) fetch w).2.status.inProgress = false
  unclaimed : (Routine.run (Boot.undergoing saying) fetch w).2.engine.live = none

theorem replied_trace {saying : Saying} (hl : saying.lost = false) {α : Type} (p : Activity A α) (w : World A) :
    Replied (p.trace (Boot.undergoing saying) w) := by
  intro s path body hd
  have hreply := reply_of_mem_trace hd
  change none = if saying.lost then none else some (s.device.post path body).1 at hreply
  rw [hl] at hreply
  cases hreply

namespace Boot

section
variable {device : Device} {version : String} {ms : List (Move A)} {a : Admission A} {response : Response}
  {saying : Saying}

theorem dismissed {posts : List Post} {r : Except UpdateError FetchOutcome}
    (hp : ∀ job, Payload.ofBytes response.body ≠ .ok (.job job)) (hl : saying.lost = false)
    (hin : ((start A device version).run ms).world.letIn = .ok a)
    (hget : (((start A device version).run ms).world.device.get (fetchPath a.version)).1 = .ok response)
    (hran : ∀ {t : List (Deed A)} {o s path}, Ran Activity.fetch t o →
      ⟨s, .get path, some (.ok response)⟩ ∈ t → sent t = posts ∧ (Replied t → o = some r)) :
    Dismissed posts r saying ((start A device version).run ms).world := by
  have hidle : ((start A device version).run ms).world.engine.inProgress = false := by
    unfold World.letIn at hin
    split at hin
    · cases hin
    · exact Bool.eq_false_iff.mpr ‹_›
  have hunclaimed := (claimed_run device version ms).1.idle hidle
  generalize ((start A device version).run ms).world = w at hin hget hidle hunclaimed ⊢
  obtain ⟨s, hmem⟩ := Activity.get_mem_trace hl hin hget
  have hfetch : Does (undergoing saying) Activity.fetch w _ _ _ := Routine.does _ _
  have hrun := ran_trace (undergoing saying) Activity.fetch w
  have hreplied := replied_trace hl Activity.fetch w
  obtain ⟨hsent, hended⟩ := hran hrun hmem
  have hinquiry := Activity.inquiry_of_ran hrun hmem hp
  have hpassive := passive_of_inquiry hfetch hinquiry
  have hposts := posts_of_does hfetch
  refine ⟨hended hreplied, .of_inquiry hsent hinquiry, hpassive, ?_, ?_, ?_⟩
  · rw [hposts, ← hsent]
    rfl
  · exact (congrArg (·.inProgress) hpassive.engine).trans hidle
  · exact (congrArg (·.live) hpassive.engine).trans hunclaimed

end

/-- An answer with a 200 that is no job is reported at most once, with what is wrong with it, and the fetch
ends with that. Nothing else is done about it, and nothing is changed. -/
theorem refused_once {response : Response} {posts : List Post} {r : Except UpdateError FetchOutcome}
    (hr : Refused response.body posts r) (hs : response.status = 200) :
    (∀ {t : List (Deed A)} {o s path}, Ran Activity.fetch t o → ⟨s, .get path, some (.ok response)⟩ ∈ t →
      Declines posts t ∧ (Replied t → o = some r)) ∧
    ∀ {device version} {ms : List (Move A)} {a saying}, saying.lost = false →
      ((start A device version).run ms).world.letIn = .ok a →
      (((start A device version).run ms).world.device.get (fetchPath a.version)).1 = .ok response →
      Dismissed posts r saying ((start A device version).run ms).world := by
  have hran {t : List (Deed A)} {o s path} (h : Ran Activity.fetch t o)
      (hget : ⟨s, .get path, some (.ok response)⟩ ∈ t) : sent t = posts ∧ (Replied t → o = some r) := by
    obtain ⟨s₀, s₁, s₂, a, rest, rfl, hreceive⟩ := Activity.ran_answered h hget
    obtain ⟨hsent, hended⟩ := Activity.ran_refused (by simpa [Response.ok] using hs) hr hreceive
    refine ⟨hsent, fun hreplied => hended ?_⟩
    exact fun s path body hd => hreplied s path body (by simp [hd])
  constructor
  · intro t o s path h hget
    obtain ⟨hsent, hended⟩ := hran h hget
    exact ⟨.of_inquiry hsent (Activity.inquiry_of_ran h hget hr.not_job), hended⟩
  · intro device version ms a saying hl hin hget
    exact dismissed hr.not_job hl hin hget hran

def answering (gets postReplies : List Reply) : List (Move Agent.application) :=
  enabling ++ [.disturb ⟨gets, postReplies, [("u", .plain [1, 2, 3, 4])], .none, false, false, false⟩]

def answered (gets postReplies : List Reply) : World Agent.application :=
  ((start Agent.application (.fresh .valid) "1.0.0").run (answering gets postReplies)).world

theorem answered_get (response : Response) (gets postReplies : List Reply) (path : String) :
    ((answered (.answer response :: gets) postReplies).device.get path).1 = .ok response := by
  have hgets : (answered (.answer response :: gets) postReplies).device.network.gets =
      .answer response :: gets := by
    unfold answered answering
    rw [run_append]
    rfl
  unfold Device.get Network.get
  dsimp only
  rw [hgets]
  rfl

theorem answered_letIn (gets postReplies : List Reply) : ∃ a, (answered gets postReplies).letIn = .ok a := by
  have hin : ∃ a, ((start Agent.application (.fresh .valid) "1.0.0").run enabling).world.letIn = .ok a := by
    have hok : ((start Agent.application (.fresh .valid) "1.0.0").run enabling).world.letIn.toBool = true := by
      decide +kernel
    cases h : ((start Agent.application (.fresh .valid) "1.0.0").run enabling).world.letIn with
    | ok a => exact ⟨a, rfl⟩
    | error e =>
      rw [h] at hok
      cases hok
  -- what the service answers makes no difference to the engine
  unfold answered answering
  rw [run_append]
  exact hin

def unlocated : Response := ⟨200, Json.braces [("ota_job_id", Json.quote "B")]⟩

theorem refused_unlocated : Refused unlocated.body [Report.post "B" .rejected "URL not found"]
    (.error (.invalidJob "URL not found")) := by
  have hbody : (FetchAnswer.ofBytes? unlocated.body).map (fun a => (a.jobId, a.url, a.errorCode)) =
      some (some "B", none, none) := by decide +kernel
  obtain ⟨a, ha, hfields⟩ := Option.map_eq_some_iff.mp hbody
  obtain ⟨hid, hurl, hc⟩ : a.jobId = some "B" ∧ a.url = none ∧ a.errorCode = none := by simpa using hfields
  have hpresent : FetchAnswer.present a.jobId = some "B" := by rw [hid]; decide
  have hfault : a.faults.head? = some .missingUrl := by
    unfold FetchAnswer.faults
    rw [hpresent, hurl]
    rfl
  have hrefused := Refused.incomplete ha hc hfault
  rw [hpresent] at hrefused
  exact hrefused

theorem refused_once_unlocated :
    Refused unlocated.body [Report.post "B" .rejected "URL not found"] (.error (.invalidJob "URL not found")) ∧
    unlocated.status = 200 ∧ obliging.lost = false ∧
    (∃ a, (answered [.answer unlocated] [.lost "no route"]).letIn = .ok a ∧
      ((answered [.answer unlocated] [.lost "no route"]).device.get (fetchPath a.version)).1 = .ok unlocated) ∧
    (∃ t o s path, Ran (Activity.fetch (A := Agent.application)) t o ∧
      ⟨s, .get path, some (.ok unlocated)⟩ ∈ t ∧ Replied t ∧
      Declines [Report.post "B" .rejected "URL not found"] t ∧
      o = some (.error (.invalidJob "URL not found"))) ∧
    Dismissed [Report.post "B" .rejected "URL not found"] (.error (.invalidJob "URL not found")) obliging
      (answered [.answer unlocated] [.lost "no route"]) := by
  obtain ⟨a, hin⟩ := answered_letIn [.answer unlocated] [.lost "no route"]
  have hget := answered_get unlocated [] [.lost "no route"] (fetchPath a.version)
  obtain ⟨hran, halone⟩ := refused_once (A := Agent.application) refused_unlocated rfl
  have hl : obliging.lost = false := rfl
  have hdismissed := halone hl hin hget
  obtain ⟨s, hmem⟩ := Activity.get_mem_trace hl hin hget
  have hfetch := ran_trace (undergoing obliging) Activity.fetch (answered [.answer unlocated] [.lost "no route"])
  have hreplied := replied_trace hl Activity.fetch
    (answered [.answer unlocated] [.lost "no route"])
  obtain ⟨hdeclines, hended⟩ := hran hfetch hmem
  exact ⟨refused_unlocated, rfl, rfl, ⟨a, hin, hget⟩, ⟨_, _, s, _, hfetch, hmem, hreplied, hdeclines,
    hended hreplied⟩, hdismissed⟩

/-- An answer without a 200 is judged by its error code or else by its status, unless its body is an answer
without an error code: that is taken for a job. -/
theorem unserved_iff {response : Response} (hs : response.status ≠ 200) :
    (∀ {t : List (Deed A)} {o s path}, Ran Activity.fetch t o → ⟨s, .get path, some (.ok response)⟩ ∈ t →
      ((o = some (verdict response) ∧ Declines [] t) ↔
        ∀ answer, FetchAnswer.ofBytes? response.body = some answer → answer.errorCode ≠ none)) ∧
    ∀ {device version} {ms : List (Move A)} {a saying}, saying.lost = false →
      ((start A device version).run ms).world.letIn = .ok a →
      (((start A device version).run ms).world.device.get (fetchPath a.version)).1 = .ok response →
      (Dismissed [] (verdict response) saying ((start A device version).run ms).world ↔
        ∀ answer, FetchAnswer.ofBytes? response.body = some answer → answer.errorCode ≠ none) := by
  have hok : response.ok = false := by simpa [Response.ok] using hs
  constructor
  · exact fun h hget => Activity.ends_unserved_iff hok h hget
  · intro device version ms a saying hl hin hget
    constructor
    · intro hd
      obtain ⟨s, hmem⟩ := Activity.get_mem_trace hl hin hget
      have hran := ran_trace (undergoing saying) Activity.fetch ((start A device version).run ms).world
      exact (Activity.ends_unserved_iff hok hran hmem).mp ⟨hd.ended, hd.declined⟩
    · intro hcoded
      refine dismissed (not_job_of_coded hcoded) hl hin hget fun h hget => ?_
      obtain ⟨ho, hd⟩ := (Activity.ends_unserved_iff hok h hget).mpr hcoded
      exact ⟨hd.reports, fun _ => ho⟩

def outage : Response := ⟨503, Bytes.ofText "no upstream"⟩

theorem unserved_iff_outage :
    outage.status ≠ 200 ∧ obliging.lost = false ∧ verdict outage = .error (.http 503) ∧
    (∃ a, (answered [.answer outage] []).letIn = .ok a ∧
      ((answered [.answer outage] []).device.get (fetchPath a.version)).1 = .ok outage) ∧
    (∃ t o s path, Ran (Activity.fetch (A := Agent.application)) t o ∧ ⟨s, .get path, some (.ok outage)⟩ ∈ t ∧
      o = some (.error (.http 503)) ∧ Declines [] t) ∧
    Dismissed [] (.error (.http 503)) obliging (answered [.answer outage] []) := by
  have hbody : (FetchAnswer.ofBytes? outage.body).isNone = true := by decide +kernel
  have hbody : FetchAnswer.ofBytes? outage.body = none := Option.isNone_iff_eq_none.mp hbody
  have hverdict : verdict outage = .error (.http 503) := by
    unfold verdict
    rw [hbody]
    rfl
  have hcoded : ∀ answer, FetchAnswer.ofBytes? outage.body = some answer → answer.errorCode ≠ none := by
    rw [hbody]
    exact nofun
  obtain ⟨a, hin⟩ := answered_letIn [.answer outage] []
  have hget := answered_get outage [] [] (fetchPath a.version)
  have hs : outage.status ≠ 200 := by decide
  obtain ⟨hran, halone⟩ := unserved_iff (A := Agent.application) hs
  have hl : obliging.lost = false := rfl
  have hdismissed := (halone hl hin hget).mpr hcoded
  obtain ⟨s, hmem⟩ := Activity.get_mem_trace hl hin hget
  have hfetch := ran_trace (undergoing obliging) Activity.fetch (answered [.answer outage] [])
  obtain ⟨ho, hdeclines⟩ := (hran hfetch hmem).mpr hcoded
  rw [hverdict] at ho hdismissed
  exact ⟨hs, rfl, hverdict, ⟨a, hin, hget⟩, ⟨_, _, s, _, hfetch, hmem, ho, hdeclines⟩, hdismissed⟩

def brokenOffer : Response := ⟨500, offeredJob.body⟩

/-- The engine applies the job all the same. -/
theorem unserved_job_applied :
    brokenOffer.status ≠ 200 ∧ verdict brokenOffer = .error (.http 500) ∧
    (answered [.answer brokenOffer] []).letIn.toBool = true ∧
    (∀ path, ((answered [.answer brokenOffer] []).device.get path).1 = .ok brokenOffer) ∧
    (Routine.run (undergoing obliging) Activity.fetch (answered [.answer brokenOffer] [])).1 =
      some (.ok (.applied "B")) ∧
    Report.post "B" .accepted "Job accepted" ∈
      (Routine.run (undergoing obliging) Activity.fetch (answered [.answer brokenOffer] [])).2.device.network.posts ∧
    (Routine.run (undergoing obliging) Activity.fetch (answered [.answer brokenOffer] [])).2.nextBoot.staged =
      some [1, 2, 3, 4] ∧
    (Routine.run (undergoing obliging) Activity.fetch (answered [.answer brokenOffer] [])).2.nextBoot.jobId =
      some (Bytes.ofText "B") ∧
    (answered [.answer brokenOffer] []).nextBoot.staged = none ∧
    (answered [.answer brokenOffer] []).nextBoot.jobId = none := by
  have hcode : (FetchAnswer.ofBytes? brokenOffer.body).map (·.errorCode) = some none := by decide +kernel
  have hverdict : verdict brokenOffer = .error (.http 500) := by
    obtain ⟨answer, hbody, hc⟩ := Option.map_eq_some_iff.mp hcode
    unfold verdict
    rw [hbody]
    dsimp only
    rw [hc]
    rfl
  have happlied : applies "B" (Routine.run (undergoing obliging) Activity.fetch
      (answered [.answer brokenOffer] [])).1 = true := by decide +kernel
  refine ⟨by decide, hverdict, by decide +kernel, answered_get brokenOffer [] [], eq_of_applies happlied, ?_⟩
  decide +kernel

end Boot

end FirmwareUpdate
