import FirmwareUpdate.Proofs.JobReports
import FirmwareUpdate.Proofs.Lives
import FirmwareUpdate.Proofs.SalvagedIds
import FirmwareUpdate.Proofs.UpdateCycle

/-!
# The way of a job's id

The id of a job is spelled in an answer, kept in the record as bare bytes, and spelled again in every report. A
fetch that applies the job has read the id once; from then on it is only handed over, and no boot to come finds
another id than the one that was read, unless another one has been saved.
-/

namespace FirmwareUpdate

open Routine
open Json (Piece Tree)

variable {A : Application}

/-! ## Out of the answer -/

/-- The body offers the job of that id. However it spells the id, what it spells are the id's bytes. -/
structure Payload.Spells (body : Bytes) (id : String) : Prop where
  offered : ∃ job, Payload.ofBytes body = .ok (.job job) ∧ job.id = id
  spelled : ∃ tree ps fields, Tree.WrittenAs tree body ∧
    tree.fields? FetchAnswer.fieldNames = some (some (.text ps) :: fields) ∧ Piece.bytes? ps = some (Bytes.ofText id)

theorem Json.Tree.text_of_optional {field : Option Tree} {id : String}
    (h : Tree.optional Tree.text? field = some (some id)) :
    ∃ ps, field = some (.text ps) ∧ Piece.bytes? ps = some (Bytes.ofText id) := by
  cases field with
  | none => cases h
  | some t =>
    cases t with
    | text ps =>
      obtain ⟨x, hx, he⟩ := Option.map_eq_some_iff.mp h
      cases he
      obtain ⟨bs, hbs, htext⟩ := Option.bind_eq_some_iff.mp hx
      exact ⟨ps, rfl, by rw [hbs, Bytes.ofText_of_text? htext]⟩
    | _ => cases h

theorem FetchAnswer.jobId_of_payload {a : FetchAnswer} {job : Job} (h : a.payload = .ok (.job job)) :
    a.jobId = some job.id := by
  have hcode : a.errorCode = none := by
    cases hcode : a.errorCode with
    | none => rfl
    | some code =>
      unfold payload at h
      rw [hcode] at h
      dsimp only at h
      split at h <;> cases h
  rcases payload_uncoded hcode with ⟨r, hr⟩ | ⟨offer, hoffer, hid⟩
  · rw [h] at hr
    cases hr
  · rw [h] at hoffer
    cases hoffer
    exact (Option.filter_eq_some_iff.mp hid).1

theorem Payload.spells_of_bytes {body : Bytes} {job : Job} (h : Payload.ofBytes body = .ok (.job job)) :
    Payload.Spells body job.id := by
  refine ⟨⟨job, h, rfl⟩, ?_⟩
  unfold Payload.ofBytes at h
  split at h
  · rename_i a ha
    obtain ⟨tree, htree, ha⟩ := Option.bind_eq_some_iff.mp ha
    obtain ⟨fields, hfields, ha⟩ := Option.bind_eq_some_iff.mp ha
    split at ha
    · obtain ⟨id, hid, ha⟩ := Option.bind_eq_some_iff.mp ha
      have hjob : a.jobId = id := by
        simp only [Option.bind_eq_bind, Option.bind_eq_some_iff] at ha
        obtain ⟨_, -, _, -, _, -, _, -, _, -, _, -, ha⟩ := ha
        cases ha
        rfl
      rw [← hjob, FetchAnswer.jobId_of_payload h] at hid
      obtain ⟨ps, rfl, hps⟩ := Tree.text_of_optional hid
      exact ⟨tree, ps, _, Tree.ofBytes?_eq_some_iff.mp htree, hfields, hps⟩
    · cases ha
  · cases h

/-! ## Into the reports -/

/-- The id that a report's body is read to name. -/
def Report.named? (body : Bytes) : Option String := do
  let v ← Json.Value.ofBytes? body
  (← v.member? "ota_job_id").text?

theorem Report.named?_body (id : String) (status : JobStatus) (info : String) :
    named? (body id status info) = some id := by
  rw [named?, ofBytes?_body]
  rfl

def Underway (id : String) (posts : List Post) : Prop :=
  ∃ progress, posts = Report.post id .accepted "Job accepted" :: progress ∧
    ∀ p ∈ progress, ∃ info, p = Report.post id .inProgress info

theorem Underway.named {id : String} {posts : List Post} (h : Underway id posts) :
    ∀ p ∈ posts, Report.named? p.body = some id := by
  obtain ⟨progress, rfl, hprogress⟩ := h
  refine List.forall_mem_cons.mpr ⟨Report.named?_body _ _ _, fun p hp => ?_⟩
  obtain ⟨info, rfl⟩ := hprogress p hp
  exact Report.named?_body _ _ _

/-! ## A fetch that applies a job -/

def SavedLast (id : String) (t : List (Deed A)) : Prop :=
  ∃ before s after, t = before ++ ⟨s, .saveJobId id, .ok ()⟩ :: after ∧ ∀ d ∈ after, d.request.Quiet

theorem Effect.OfConclude.quiet {e : Effect A} (h : e.OfConclude) : e.Quiet := by
  cases e <;> trivial

namespace Activity

variable {handler : Option A.Handler} {job : Job} {chunkSize : Nat} {id : String} {t : List (Deed A)}

theorem ran_persist_applied {outcome : ApplyOutcome}
    (h : Ran (persist job outcome : Activity A _) t (some .applied)) :
    outcome = .applied ∧ ∃ s, t = [⟨s, .saveJobId job.id, .ok ()⟩] := by
  cases outcome with
  | deferred reason | rejected reason => cases h
  | applied =>
    obtain _ | _ | ⟨s, r, hrest⟩ := h
    match r, hrest with
    | .ok (), hrest =>
      cases hrest
      exact ⟨rfl, s, rfl⟩
    | .error c, hrest =>
      obtain _ | _ | ⟨s', _, hdone⟩ := hrest
      cases hdone

theorem ran_settle_applied (h : Ran (settle handler job chunkSize) t (some .applied)) :
    ∃ handled s, t = handled ++ [⟨s, .saveJobId job.id, .ok ()⟩] ∧
      Ran (Activity.decide handler job chunkSize) handled (some .applied) := by
  rcases h.of_bind with ⟨outcome, handled, rest, hdecide, hrest, rfl⟩ | ⟨-, ho⟩
  · rcases hrest.of_bind with ⟨final, saved, told, hpersist, htell, rfl⟩ | ⟨-, ho⟩
    · obtain ⟨ended, hreport, ho⟩ := Ran.of_bind_done (f := fun _ => final) htell
      obtain ⟨_, -, rfl⟩ := Option.map_eq_some_iff.mp ho.symm
      cases hreport
      obtain ⟨rfl, s, rfl⟩ := ran_persist_applied hpersist
      exact ⟨handled, s, by simp, hdecide⟩
    · cases ho
  · cases ho

/-- A job that is applied is accepted, handled, and at last saved. -/
theorem ran_carryOut_applied {a : Admission A} (h : Ran (carryOut a job) t (some (.ok .applied))) :
    Underway job.id (sent t) ∧ ∃ before s, t = before ++ [⟨s, .saveJobId job.id, .ok ()⟩] := by
  obtain _ | _ | ⟨s, _, hnoted⟩ := h
  rcases Ran.of_bind (p := reportLogged job.id .accepted "Job accepted") hnoted with
    ⟨_, told, rest, hreport, happly, rfl⟩ | ⟨-, ho⟩
  · obtain ⟨s₁, rest, rfl, hsettle⟩ := ran_applyJob_applied happly
    obtain ⟨handled, s', rfl, hdecide⟩ := ran_settle_applied hsettle
    refine ⟨⟨sent handled, ?_, (ran_decide hdecide).2⟩, _, s', (List.append_assoc (_ :: told) (_ :: handled) _).symm⟩
    have htold : sent told = [_] := (sent_reportLogged hreport).1
    have hsaved : sent (handled ++ [(⟨s', .saveJobId job.id, .ok ()⟩ : Deed A)]) = sent handled :=
      (sent_append _ _).trans (List.append_nil _)
    calc sent (told ++ ⟨s₁, .startApplyTask _, .ok ()⟩ :: (handled ++ [⟨s', .saveJobId job.id, .ok ()⟩]))
        = sent told ++ sent (handled ++ [⟨s', .saveJobId job.id, .ok ()⟩]) := by
          rw [sent_append]
          rfl
      _ = sent told ++ sent handled := by rw [hsaved]
      _ = Report.post job.id .accepted "Job accepted" :: sent handled := by
        rw [htold]
        rfl
  · cases ho

theorem applied_of_fetched {r : Option (Except UpdateError ApplyOutcome)}
    (h : some (.ok (.applied id)) = r.map (Except.map (fetched job.id))) : r = some (.ok .applied) ∧ job.id = id := by
  obtain ⟨result, rfl, hr⟩ := Option.map_eq_some_iff.mp h.symm
  cases result with
  | error e => cases hr
  | ok outcome =>
    cases outcome with
    | applied =>
      cases hr
      exact ⟨rfl, rfl⟩
    | _ => cases hr

/-- An answer from which a job has been applied offers the job. -/
theorem ran_receive_applied {a : Admission A} {response : Response}
    (h : Ran (receive a response) t (some (.ok (.applied id)))) :
    Payload.Spells response.body id ∧ Underway id (sent t) ∧ SavedLast id t := by
  by_cases hp : ∃ job, Payload.ofBytes response.body = .ok (.job job)
  · obtain ⟨job, hp⟩ := hp
    unfold receive at h
    rw [hp] at h
    rcases ran_takeOn h with ⟨_, _, ho⟩ | ⟨s₁, s₂, s₃, s₄, during, after, r, hcarried, hleft, ho, rfl⟩
    · cases ho
    · obtain ⟨rfl, rfl⟩ := applied_of_fetched ho
      obtain ⟨hreports, before, s, rfl⟩ := ran_carryOut_applied hcarried
      refine ⟨Payload.spells_of_bytes hp, ?_, ⟨s₁, .claim, true⟩ :: ⟨s₂, .takeUp job, ()⟩ :: before, s,
        ⟨s₃, .putDown, ()⟩ :: ⟨s₄, .release, ()⟩ :: after, by simp, ?_⟩
      · have hafter : sent (⟨s₃, .putDown, ()⟩ :: ⟨s₄, .release, ()⟩ :: after) = [] :=
          (sent_eq_nil (t := after)).mpr fun d hd => (hleft d hd).post?
        rw [sent_append, hafter, List.append_nil]
        exact hreports
      · refine List.forall_mem_cons.mpr ⟨trivial, List.forall_mem_cons.mpr ⟨trivial, fun d hd => ?_⟩⟩
        exact (hleft d hd).quiet
  · -- whoever applies a job saves its id, which nobody does with an answer that offers none
    have hsaved : AppliedSaved (some (.ok (.applied id))) (t.reverse ++ []) := h.ends (heeds_receive a response)
    obtain ⟨s, hs⟩ := hsaved id rfl
    have hunsaved := h.only (P := fun e => ∀ id, e ≠ .saveJobId id)
      (only_receive (fun _ _ _ => nofun) (fun _ _ => nofun) a (not_exists.mp hp))
    exact absurd rfl (hunsaved _ (by simpa using hs) id)

/-- A fetch that has applied a job has read its id off an answer, reported the job on its way, and saved the
id. -/
theorem ran_fetch_applied (h : Ran fetch t (some (.ok (.applied id)))) :
    (∃ s path response, (⟨s, .get path, some (.ok response)⟩ : Deed A) ∈ t ∧ Payload.Spells response.body id) ∧
      Underway id (sent t) ∧ SavedLast id t := by
  obtain _ | _ | ⟨s₀, busy, h⟩ := h
  cases busy with
  | true => cases h
  | false =>
    obtain _ | _ | ⟨s₁, admitted, h⟩ := h
    match admitted, h with
    | .error e, h => cases h
    | .ok a, h =>
      obtain _ | _ | ⟨s₂, _, h⟩ := h
      obtain _ | _ | ⟨s₃, r, h⟩ := h
      match r, h with
      | none, h => cases h
      | some (.error c), h => cases h
      | some (.ok response), h =>
        obtain ⟨hspells, hreports, before, s, after, rfl, hafter⟩ := ran_receive_applied h
        exact ⟨⟨s₃, fetchPath a.version, response, by simp, hspells⟩, hreports,
          ⟨_ :: _ :: _ :: _ :: before, s, after, rfl, hafter⟩⟩

end Activity

/-! ## On record -/

theorem Routine.Does.since {E α σ : Type} {R : E → Type} {answer : (e : E) → σ → R e × σ} {p : Routine R α}
    {s s' : σ} {before after : List (Routine.Deed R σ)} {d : Routine.Deed R σ} {o : Option α}
    (h : Does answer p s (before ++ d :: after) o s') :
    d.reply = (answer d.request d.found).1 ∧
      ∃ q : Routine R α, Does answer q (answer d.request d.found).2 after o s' := by
  induction p generalizing s before with
  | done a | died => exact absurd h.trace_eq.symm (by simp [trace])
  | step e next ih =>
    obtain ⟨htrace, hrun⟩ := h
    cases before with
    | nil =>
      obtain ⟨rfl, rfl⟩ := List.cons.inj htrace
      exact ⟨rfl, next (answer e s).1, rfl, hrun⟩
    | cons d' before => exact ih _ ⟨(List.cons.inj htrace).2, hrun⟩

/-- The id is on record, and is what the record is read to hold if it can be read. -/
structure Device.Recalls (d : Device) (id : String) : Prop where
  raw : d.store.raw .jobId = some (Bytes.ofText id)
  loaded : { d.store with failReads := false }.loadJobId = .ok (some id)

theorem Device.recalls_of_nextBoot {d : Device} {id : String} (h : d.nextBoot.jobId = some (Bytes.ofText id))
    (hne : id ≠ "") : d.Recalls id := ⟨h, Store.loadJobId_of_raw rfl h hne⟩

theorem nextBoot_of_savedLast {α : Type} {b : Behaviour A} {p : Activity A α} {w w' : World A} {id : String}
    {t : List (Deed A)} {o : Option α} (h : Does (World.perform b) p w t o w') (hs : SavedLast id t) :
    w'.nextBoot.jobId = some (Bytes.ofText id) := by
  obtain ⟨before, s, after, rfl, hquiet⟩ := hs
  obtain ⟨hreply, q, hrest⟩ := h.since
  have hsaved : (s.perform b (.saveJobId id)).2.nextBoot.jobId = some (Bytes.ofText id) := by
    rw [World.nextBoot_perform b s (e := .saveJobId id) fun h => h, ← hreply]
    rfl
  rw [nextBoot_of_does hrest fun d hd => (hquiet d hd).not_asks, NextBoot.through_quiet _ hquiet]
  exact hsaved

/-! ## In the boots to come -/

def Report.Concludes (body : Bytes) (id : String) : Prop :=
  (∃ info, body = Report.body id .success info) ∨ body = Report.body id .rejected rollbackInfo

theorem Report.Concludes.named {body : Bytes} {id : String} (h : Concludes body id) : named? body = some id := by
  rcases h with ⟨info, rfl⟩ | rfl
  · exact named?_body _ _ _
  · exact named?_body _ _ _

def Call.Concludes (c : Call A) (id : String) : Prop := c.Claims id ∨ c.Retracts id

/-- The task has read the id on record, which was the last one saved by then. -/
def FoundOnRecord (first id : String) (task : Nat) (before past : List (Happening A)) : Prop :=
  ∃ between s prior, before = between ++ .did task ⟨s, .loadJobId, .ok (some id)⟩ :: prior ∧
    id = ((prior ++ past).findSome? Happening.saved?).getD first

theorem FoundOnRecord.of_read {d : Device} {life : List (Session A)} {first id : String}
    (hd : d.nextBoot.jobId = some (Bytes.ofText first)) {between prior : List (Happening A)} {task : Nat}
    {s : World A} (h : ((d.after life).nextBoot.since prior).jobId = some (Bytes.ofText id)) :
    FoundOnRecord first id task (between ++ .did task ⟨s, .loadJobId, .ok (some id)⟩ :: prior) (d.past life) := by
  rw [jobId_since_life] at h
  exact ⟨between, s, prior, rfl, id_of_since hd h⟩

/-- Unless it was told otherwise, the engine reports success for what it has found on record. -/
theorem Boot.on_record_of_success (d : Device) (version : String) (ms : List (Move A))
    {later before : List (Happening A)} {task : Nat} {found : World A} {id info : String}
    {r : Option (Except Cause Response)}
    (h : ((start A d version).run ms).history =
      later ++ .did task ⟨found, .post Report.path (Report.body id .success info), r⟩ :: before) :
    (∃ c, .call c ∈ ms ∧ c.Claims id) ∨
    ∃ between s prior, before = between ++ .did task ⟨s, .loadJobId, .ok (some id)⟩ :: prior ∧
      (d.nextBoot.since prior).jobId = some (Bytes.ofText id) := by
  have hhonest : ((start A d version).run ms).Honest fun id => ∃ c, .call c ∈ ms ∧ c.Claims id :=
    honest_run d version fun m hm c id hc hclaims => ⟨c, hc ▸ hm, hclaims⟩
  have hgenuine := (genuine_run d version ms).2
  refine ((h ▸ hhonest.history).split task found id info r rfl).imp_right fun hread => ?_
  obtain ⟨between, s, prior, rfl⟩ := lastRead_eq_some hread
  rw [h, ← List.cons_append, ← List.append_assoc] at hgenuine
  obtain ⟨hfound, _, hreply⟩ := hgenuine.split
  have hraw : s.nextBoot.jobId = some (Bytes.ofText id) := Store.raw_of_loadJobId hreply.symm
  exact ⟨between, s, prior, rfl, hfound ▸ hraw⟩

theorem Device.found_of_concluded {d : Device} {life : List (Session A)} {first id : String}
    (hd : d.nextBoot.jobId = some (Bytes.ofText first)) {s : Session A} {later before : List (Happening A)}
    {task : Nat} {found : World A} {body : Bytes} {r : Option (Except Cause Response)}
    (h : (s.boot (d.after life)).history = later ++ .did task ⟨found, .post Report.path body, r⟩ :: before)
    (hb : Report.Concludes body id) :
    (∃ c, .call c ∈ s.moves ∧ c.Concludes id) ∨ Dictated id (deedsBy task before) ∨
      FoundOnRecord first id task before (d.past life) := by
  rcases hb with ⟨info, rfl⟩ | rfl
  · rcases Boot.on_record_of_success _ _ _ h with ⟨c, hc, hclaims⟩ | ⟨between, s, prior, rfl, hid⟩
    · exact .inl ⟨c, hc, .inl hclaims⟩
    · exact .inr (.inr (.of_read hd hid))
  · rcases Boot.left_over_of_retraction _ _ _ h with ⟨c, hc, hretracts⟩ | hdictated | hleft
    · exact .inl ⟨c, hc, .inr hretracts⟩
    · exact .inr (.inl hdictated)
    · obtain ⟨-, between, s, prior, rfl, hid⟩ := hleft
      exact .inr (.inr (.of_read hd hid))

theorem Device.recalls_after {d : Device} {life : List (Session A)} {id : String}
    (hd : d.nextBoot.jobId = some (Bytes.ofText id)) (hne : id ≠ "")
    (hkept : ∀ x ∈ d.past life, x.saved? = none ∧ x.erases = false) : (d.after life).Recalls id := by
  have hsince : (d.nextBoot.since (d.past life ++ [])).jobId = some (Bytes.ofText id) :=
    (jobId_since_append fun x hx => (hkept x hx).1).mpr ⟨hd, fun x hx => (hkept x hx).2⟩
  rw [List.append_nil, ← d.jobId_after life] at hsince
  exact recalls_of_nextBoot hsince hne

/-- The id of an applied job is what the answer spells. It stands in every report of the fetch, its bytes are
on record, and the record is read as the id, now and after any boots until it is saved over or erased. What
becomes of the job is reported under the id that was saved last, which is this one as long as no other is. -/
theorem applied_id_survives {b : Behaviour A} {w w' : World A} {id : String}
    (h : Activity.run b Activity.fetch w = (some (.ok (.applied id)), w')) :
    (∃ s path response, ⟨s, .get path, some (.ok response)⟩ ∈ Activity.fetch.trace (World.perform b) w ∧
      Payload.Spells response.body id) ∧
    Underway id (sent (Activity.fetch.trace (World.perform b) w)) ∧
    (∀ p ∈ sent (Activity.fetch.trace (World.perform b) w), Report.named? p.body = some id) ∧
    w'.device.Recalls id ∧
    ∀ life : List (Session A),
      ((∀ x ∈ w'.device.reboot.past life, x.saved? = none ∧ x.erases = false) →
        (w'.device.reboot.after life).Recalls id) ∧
      ∀ (s : Session A) later task found body id' r before,
        (s.boot (w'.device.reboot.after life)).history =
          later ++ .did task ⟨found, .post Report.path body, r⟩ :: before →
        Report.Concludes body id' →
        Report.named? body = some id' ∧
          ((∃ c, .call c ∈ s.moves ∧ c.Concludes id') ∨ Dictated id' (deedsBy task before) ∨
            FoundOnRecord id id' task before (w'.device.reboot.past life)) := by
  have hdoes : Does (World.perform b) Activity.fetch w _ (some (.ok (.applied id))) w' := ⟨rfl, h⟩
  have hran := ran_trace (World.perform b) Activity.fetch w
  rw [hdoes.run_eq] at hran
  obtain ⟨⟨s, path, response, hanswer, hspells⟩, hreports, hsaved⟩ := Activity.ran_fetch_applied hran
  obtain ⟨job, hjob, rfl⟩ := hspells.offered
  have hne : job.id ≠ "" := Payload.named_of_bytes hjob
  have hid : w'.nextBoot.jobId = some (Bytes.ofText job.id) := nextBoot_of_savedLast hdoes hsaved
  have hreboot : w'.device.reboot.nextBoot.jobId = some (Bytes.ofText job.id) := hid
  refine ⟨⟨s, path, response, hanswer, hspells⟩, hreports, hreports.named, Device.recalls_of_nextBoot hid hne,
    fun life => ⟨Device.recalls_after hreboot hne, ?_⟩⟩
  intro s later task found body id' r before hhistory hb
  exact ⟨hb.named, Device.found_of_concluded hreboot hhistory hb⟩

/-- A job whose id is spelled with a pair of surrogates, an escaped quote and an escaped backslash. -/
def escapedJob : Response :=
  ⟨200, Bytes.ofText "\x7b\"ota_job_id\":\"\\ud83d\\ude00\\u0022\\\\\",\"url\":\"u\",\"file_size\":4\x7d"⟩

def unescapedId : String := "😀\"\\"

def escapedOffer : World Agent.application :=
  let d := Device.fresh .valid
  let network := (d.network.pushGet (.answer escapedJob)).serve "u" (.plain [1, 2, 3, 4])
  (Activity.run Agent.behaviour (Activity.enable Config.default none none)
    (.boot { d with network := network } "1.0.0")).2

def confirming : Session Agent.application :=
  ⟨"2.0.0", Boot.enabling ++ .attempt :: List.replicate 12 (.go 1 Boot.obliging)⟩

def condemning : Session Agent.application :=
  ⟨"2.0.0", Boot.enabling ++ [.call .markInvalid, .go 1 Boot.obliging]⟩

theorem exists_of_post? {history : List (Happening A)} {p : Post} (h : history.any (·.post? == some p) = true) :
    ∃ later task s r before, history = later ++ .did task ⟨s, .post p.path p.body, r⟩ :: before := by
  obtain ⟨x, hx, hp⟩ := List.any_eq_true.mp h
  obtain ⟨later, before, rfl⟩ := List.append_of_mem hx
  cases x with
  | fired w t => cases eq_of_beq hp
  | did task d =>
    obtain ⟨s, e, r⟩ := d
    cases e with
    | post path body =>
      cases eq_of_beq hp
      exact ⟨later, task, s, r, before, rfl⟩
    | _ => cases eq_of_beq hp

theorem applied_id_survives_escaped :
    ∃ w', Activity.run Agent.behaviour Activity.fetch escapedOffer = (some (.ok (.applied unescapedId)), w') ∧
      (∃ s path response,
        ⟨s, .get path, some (.ok response)⟩ ∈ Activity.fetch.trace (World.perform Agent.behaviour) escapedOffer ∧
        Payload.Spells response.body unescapedId) ∧
      Underway unescapedId (sent (Activity.fetch.trace (World.perform Agent.behaviour) escapedOffer)) ∧
      w'.device.Recalls unescapedId ∧
      (∃ later task s r before, (confirming.boot w'.device.reboot).history = later ++
          .did task ⟨s, .post Report.path (Report.body unescapedId .success Activity.confirmationInfo), r⟩ ::
            before ∧
        ((∃ c, .call c ∈ confirming.moves ∧ c.Concludes unescapedId) ∨ Dictated unescapedId (deedsBy task before) ∨
          FoundOnRecord unescapedId unescapedId task before [])) ∧
      (w'.device.reboot.after [condemning]).Recalls unescapedId ∧
      ∃ later task s r before, (confirming.boot (w'.device.reboot.after [condemning])).history = later ++
          .did task ⟨s, .post Report.path (Report.body unescapedId .rejected rollbackInfo), r⟩ :: before ∧
        ((∃ c, .call c ∈ confirming.moves ∧ c.Concludes unescapedId) ∨ Dictated unescapedId (deedsBy task before) ∨
          FoundOnRecord unescapedId unescapedId task before (w'.device.reboot.past [condemning])) := by
  let w' := (Activity.run Agent.behaviour Activity.fetch escapedOffer).2
  have happlied : Boot.applies unescapedId (Activity.run Agent.behaviour Activity.fetch escapedOffer).1 = true := by
    decide +kernel
  have hconfirmed : (confirming.boot w'.device.reboot).history.any
      (·.post? == some (Report.post unescapedId .success Activity.confirmationInfo)) = true := by
    decide +kernel
  have hkept : ∀ x ∈ w'.device.reboot.past [condemning], x.saved? = none ∧ x.erases = false := by decide +kernel
  have hrolledBack : (confirming.boot (w'.device.reboot.after [condemning])).history.any
      (·.post? == some (Report.post unescapedId .rejected rollbackInfo)) = true := by
    decide +kernel
  have hrun : Activity.run Agent.behaviour Activity.fetch escapedOffer = (some (.ok (.applied unescapedId)), w') :=
    Prod.ext (Boot.eq_of_applies happlied) rfl
  obtain ⟨hanswer, hreports, -, hrecalls, hboots⟩ := applied_id_survives hrun
  obtain ⟨later, task, s, r, before, hhistory⟩ := exists_of_post? hconfirmed
  obtain ⟨later₁, task₁, s₁, r₁, before₁, hhistory₁⟩ := exists_of_post? hrolledBack
  have hfound := ((hboots []).2 confirming later task s _ _ r before hhistory (.inl ⟨_, rfl⟩)).2
  have hfound₁ := ((hboots [condemning]).2 confirming later₁ task₁ s₁ _ _ r₁ before₁ hhistory₁ (.inr rfl)).2
  exact ⟨w', hrun, hanswer, hreports, hrecalls, ⟨later, task, s, r, before, hhistory, hfound⟩,
    (hboots [condemning]).1 hkept, later₁, task₁, s₁, r₁, before₁, hhistory₁, hfound₁⟩

end FirmwareUpdate
