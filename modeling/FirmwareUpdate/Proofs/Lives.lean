import FirmwareUpdate.Proofs.AppliedIds
import FirmwareUpdate.Proofs.Repertoires

/-!
# The lives of a device

A device lives through many boots. Between two of them the power may be cut anywhere; what is carried
over is the slots and the record. A normal boot takes a job id that it finds on record for that of a
job that was rolled back. It cannot know better: whether the image of the job has been confirmed
meanwhile is not on record, only whether its id has been erased.
-/

namespace FirmwareUpdate

open Routine

variable {A : Application}

/-- What happens in one boot, up to the power cut that ends it. -/
structure Session (A : Application) where
  version : String
  moves : List (Move A)

def Session.boot (s : Session A) (d : Device) : Boot A := (Boot.start A d s.version).run s.moves

namespace Device

/-- The device after a life, the latest session first. -/
def after (d : Device) : List (Session A) → Device
  | [] => d
  | s :: life => (s.boot (d.after life)).world.device.reboot

/-- All that has happened in a life, newest first. -/
def past (d : Device) : List (Session A) → List (Happening A)
  | [] => []
  | s :: life => (s.boot (d.after life)).history ++ d.past life

end Device

/-! ## The record of a life -/

theorem NextBoot.since_append (n : NextBoot) (later earlier : List (Happening A)) :
    n.since (later ++ earlier) = (n.since earlier).since later := by
  induction later with
  | nil => rfl
  | cons x later ih =>
    cases x with
    | did i d => exact congrArg (·.after d.request d.reply) ih
    | fired w id => exact ih

theorem jobId_since_congr {n m : NextBoot} (h : n.jobId = m.jobId) (history : List (Happening A)) :
    (n.since history).jobId = (m.since history).jobId := by
  induction history with
  | nil => exact h
  | cons x earlier ih => rw [jobId_since_cons, jobId_since_cons, ih]

/-- A reboot loses nothing of the record. -/
theorem Device.jobId_after (d : Device) (life : List (Session A)) :
    (d.after life).nextBoot.jobId = (d.nextBoot.since (d.past life)).jobId := by
  induction life with
  | nil => rfl
  | cons s life ih =>
    have hsession := (Boot.genuine_run (d.after life) s.version s.moves).1
    rw [past, NextBoot.since_append, ← jobId_since_congr ih]
    exact (jobId_reboot _).trans (congrArg NextBoot.jobId hsession)

theorem jobId_since_life {d : Device} {life : List (Session A)} (history : List (Happening A)) :
    ((d.after life).nextBoot.since history).jobId = (d.nextBoot.since (history ++ d.past life)).jobId := by
  rw [NextBoot.since_append, jobId_since_congr (d.jobId_after life)]

theorem kept_of_since {n : NextBoot} {since saved : List (Happening A)} {id : String}
    (h : (n.since (since ++ saved)).jobId = some (Bytes.ofText id)) (hs : ∀ x ∈ since, x.saved? ≠ some id) :
    (n.since saved).jobId = some (Bytes.ofText id) ∧ ∀ x ∈ since, x.saved? = none ∧ x.erases = false := by
  induction since with
  | nil => exact ⟨h, fun _ hx => nomatch hx⟩
  | cons x since ih =>
    rw [List.forall_mem_cons] at hs
    rw [List.cons_append, jobId_since_cons] at h
    cases hx : x.saved? with
    | some id' =>
      rw [hx] at h
      obtain rfl : id' = id := Bytes.ofText_inj (Option.some.inj h)
      exact absurd hx hs.1
    | none =>
      rw [hx] at h
      cases he : x.erases with
      | true => simp [he] at h
      | false =>
        obtain ⟨hsaved, hkept⟩ := ih (by simpa [he] using h) hs.2
        exact ⟨hsaved, List.forall_mem_cons.mpr ⟨⟨hx, he⟩, hkept⟩⟩

/-! ## What is reported as rolled back -/

theorem Retracting.read {id : String} {past : List (Deed A)} (h : Retracting id past) :
    ∃ recent s₁ s seconds past', past = recent ++ ⟨s₁, .loadJobId, .ok (some id)⟩ ::
      ⟨s, .beginValidation seconds, some (.ok .settled)⟩ :: past' := by
  cases h with
  | erased s h =>
    obtain ⟨s₀, s₁, s₂, seconds, past⟩ := h
    exact ⟨[_, _], s₁, s₀, seconds, past, rfl⟩
  | kept s s' c c' h =>
    obtain ⟨s₀, s₁, s₂, seconds, past⟩ := h
    exact ⟨[_, _, _], s₁, s₀, seconds, past, rfl⟩

namespace Boot

/-- Unless it was told otherwise, the engine reports as rolled back what it has found left over on a
normal boot. -/
theorem left_over_of_retraction (d : Device) (version : String) (ms : List (Move A))
    {later before : List (Happening A)} {task : Nat} {w : World A} {id : String}
    {r : Option (Except Cause Response)}
    (h : ((start A d version).run ms).history = later ++ .did task ⟨w, retraction id, r⟩ :: before) :
    (∃ c, .call c ∈ ms ∧ c.Retracts id) ∨ Dictated id (deedsBy task before) ∨
    (d.slots.running = .valid ∧
      ∃ between w₁ prior, before = between ++ .did task ⟨w₁, .loadJobId, .ok (some id)⟩ :: prior ∧
        (d.nextBoot.since prior).jobId = some (Bytes.ofText id)) := by
  have hj := (judged_run d version ms).2
  have hg := (genuine_run d version ms).2
  have hrule := (orderly_run d version ms).history
  rw [h] at hj hg hrule
  refine ((hrule.split task _ rfl).retracts id rfl).imp_right fun h => h.imp_right fun hretracting => ?_
  -- the task that owes the report has begun a validation on a valid slot, and then read the id
  obtain ⟨recent, s₁, s, seconds, past, hp⟩ := hretracting.read
  obtain ⟨between, prior, rfl, -, hprior⟩ := split_of_deedsBy recent hp
  have hbegun : .did task ⟨s, .beginValidation seconds, some (.ok .settled)⟩ ∈ prior :=
    mem_deedsBy.mp (hprior ▸ List.mem_cons_self)
  have hvalid := booted_of_begun hj.drop.2 hg.drop.2
    (List.mem_append_right _ (List.mem_cons_of_mem _ hbegun))
  obtain ⟨hfound, _, hreply⟩ := hg.drop.2.split
  have hraw : s₁.nextBoot.jobId = some (Bytes.ofText id) := Store.raw_of_loadJobId hreply.symm
  exact ⟨hvalid, between, s₁, prior, rfl, hfound ▸ hraw⟩

end Boot

/-! ## What is left over is reported -/

theorem Store.loadJobId_of_raw {s : Store} {id : String} (hf : s.failReads = false)
    (h : s.raw .jobId = some (Bytes.ofText id)) (hne : id ≠ "") : s.loadJobId = .ok (some id) := by
  unfold loadJobId
  rw [read_raw _ hf, h]
  dsimp only
  unfold jobIdOf
  split
  · rename_i hb
    cases hb
  · rename_i hb
    have hb : Bytes.ofText id = Bytes.ofText "" := Option.some.inj hb
    exact absurd (Bytes.ofText_inj hb) hne
  · rename_i bs _ hb
    rw [← Option.some.inj hb, Bytes.text?_ofText]

/-- What a normal boot needs to find a job id left over. -/
structure World.Leftover (w : World A) (id : String) : Prop where
  unstarted : w.engine.validation.state = .init
  running : w.device.slots.running = .valid
  legible : w.device.faults.runningState = false
  readable : w.device.store.failReads = false
  onRecord : w.nextBoot.jobId = some (Bytes.ofText id)
  named : id ≠ ""

namespace World.Leftover

variable {w : World A} {id : String}

theorem loadJobId (h : w.Leftover id) : w.device.store.loadJobId = .ok (some id) :=
  Store.loadJobId_of_raw h.readable h.onRecord h.named

theorem install (h : w.Leftover id) (config : Config) (handler : Option A.Handler) :
    (w.install config handler).2.Leftover id := by
  have hj : Unjudged w (w.install config handler).2 :=
    w.unjudged_undergo Boot.obliging (e := .install config handler) fun h => h
  have hi := w.inward_install config handler
  refine ⟨hj.state.trans h.unstarted, hj.running.trans h.running, ?_, ?_, hi.nextBoot ▸ h.onRecord, h.named⟩
  · rw [hi.faults]
    exact h.legible
  · rw [hi.store]
    exact h.readable

theorem beginValidation (h : w.Leftover id) (seconds : Nat) :
    (w.beginValidation seconds).1 = some (.ok .settled) := by
  simp [World.beginValidation, h.unstarted, Device.runningState, h.legible, h.running]

end World.Leftover

/-- The deeds erase the id, or fail to, and then report the job as rolled back; no other of them reaches
the service or the record. -/
def Retracts (id : String) (erased : Except Cause Unit) (t : List (Deed A)) : Prop :=
  ∃ before s between s' r after,
    t = before ++ ⟨s, .eraseJobId, erased⟩ :: (between ++ ⟨s', retraction id, r⟩ :: after) ∧
      ∀ d ∈ before ++ between ++ after, ¬ d.request.Outward

namespace Retracts

variable {id : String} {erased : Except Cause Unit} {t u : List (Deed A)}

theorem cons (h : Retracts id erased t) {d : Deed A} (hd : ¬ d.request.Outward) :
    Retracts id erased (d :: t) := by
  obtain ⟨before, s, between, s', r, after, rfl, hout⟩ := h
  exact ⟨d :: before, s, between, s', r, after, rfl, List.forall_mem_cons.mpr ⟨hd, hout⟩⟩

theorem append (h : Retracts id erased t) (hu : ∀ d ∈ u, ¬ d.request.Outward) :
    Retracts id erased (t ++ u) := by
  obtain ⟨before, s, between, s', r, after, rfl, hout⟩ := h
  refine ⟨before, s, between, s', r, after ++ u, by simp, ?_⟩
  rw [← List.append_assoc]
  exact List.forall_mem_append.mpr ⟨hout, hu⟩

theorem bind {α β : Type} {p : Activity A α} {f : α → Activity A β} {s : Saying} {w : World A}
    (h : Retracts id erased (p.trace (Boot.undergoing s) w)) (hf : ∀ a, (f a).Only fun e => ¬ e.Outward) :
    Retracts id erased ((p >>= f).trace (Boot.undergoing s) w) := by
  rw [trace_bind]
  apply h.append
  split
  · exact (ran_trace _ _ _).only (hf _)
  · exact fun _ h => nomatch h

theorem reported (h : Retracts id erased t) : ∃ d ∈ t, d.request = retraction id := by
  obtain ⟨before, s, between, s', r, after, rfl, -⟩ := h
  exact ⟨⟨s', retraction id, r⟩, by simp, rfl⟩

end Retracts

theorem World.startConfirmation_poised {w : World A} (h : w.engine.validation.confirmCancelled = false) (interval : Nat) :
    w.startConfirmation interval = w.withConfirmation (some ⟨interval, 0, .poised⟩) := by
  simp [startConfirmation, withConfirmation, h]

namespace Activity

variable {w : World A} {id : String} (s : Saying)

theorem does_note (e : Event) (w : World A) : Does (Boot.undergoing s) (note e : Activity A _) w
    [⟨w, .note e, ()⟩] (some ()) (w.note e) := .request _ w

theorem does_forgetJobId (w : World A) : ∃ notes w', Does (Boot.undergoing s) (forgetJobId : Activity A Unit) w
    (⟨w, .eraseJobId, w.device.eraseJobId.1⟩ :: notes) (some ()) w' ∧ ∀ d ∈ notes, ¬ d.request.Outward := by
  have herase : Does (Boot.undergoing s) (perform .eraseJobId) w
    [⟨w, .eraseJobId, w.device.eraseJobId.1⟩] (some w.device.eraseJobId.1) _ := .request _ w
  unfold forgetJobId
  cases hr : w.device.eraseJobId.1 with
  | ok =>
    rw [hr] at herase
    exact ⟨[], _, herase.bind (.done () _), fun _ h => nomatch h⟩
  | error c =>
    rw [hr] at herase
    exact ⟨_, _, herase.bind (does_note s _ _), List.forall_mem_singleton.mpr id⟩

theorem does_post (path : String) (body : Bytes) (w : World A) :
    Does (Boot.undergoing s) (post path body : Activity A _) w
      [⟨w, .post path body, (w.undergo s (.post path body)).1⟩] (w.undergo s (.post path body)).1
      (w.undergo s (.post path body)).2 := by
  have hsent : Does (Boot.undergoing s) (perform (.post path body)) w
    [⟨w, .post path body, (w.undergo s (.post path body)).1⟩] (some (w.undergo s (.post path body)).1)
    (w.undergo s (.post path body)).2 := .request _ w
  unfold post
  cases hr : (w.undergo s (.post path body)).1 with
  | none =>
    rw [hr] at hsent
    exact hsent.bind (.died _)
  | some result =>
    rw [hr] at hsent
    exact hsent.bind (.done result _)

/-- What the reply to a report comes to; a lost one takes the activity down with it. -/
def reportResult (r : Option (Except Cause Response)) : Option (Except UpdateError Unit) :=
  match r with
  | none => none
  | some (.error c) => some (.error (.transport c))
  | some (.ok response) => some (if response.ok then .ok () else .error (.http response.status))

theorem does_reportFor (id : String) (status : JobStatus) (info : String) (w : World A) :
    ∃ notes w', Does (Boot.undergoing s) (reportFor id status info : Activity A _) w
      (⟨w, .post Report.path (Report.body id status info),
        (w.undergo s (.post Report.path (Report.body id status info))).1⟩ :: notes)
      (reportResult (w.undergo s (.post Report.path (Report.body id status info))).1) w' ∧
        notes.length ≤ 1 ∧ ∀ d ∈ notes, ¬ d.request.Outward := by
  have hpost := does_post s Report.path (Report.body id status info) w
  generalize (w.undergo s (.post Report.path (Report.body id status info))).1 = r at hpost ⊢
  generalize (w.undergo s (.post Report.path (Report.body id status info))).2 = w₁ at hpost
  unfold reportFor
  match r with
  | none => exact ⟨[], w₁, hpost.bind_died, Nat.zero_le 1, fun _ h => nomatch h⟩
  | some (.error c) => exact ⟨[], w₁, hpost.bind (.done _ w₁), Nat.zero_le 1, fun _ h => nomatch h⟩
  | some (.ok response) =>
    have hanswer : ∃ notes w', Does (Boot.undergoing s) (if response.ok then do
        note (.reported id status info)
        return .ok ()
      else return .error (.http response.status) : Activity A (Except UpdateError Unit)) w₁ notes
        (reportResult (some (.ok response))) w' ∧ notes.length ≤ 1 ∧ ∀ d ∈ notes, ¬ d.request.Outward := by
      dsimp only [reportResult]
      by_cases hok : response.ok
      · rw [if_pos hok, if_pos hok]
        exact ⟨_, _, (does_note s _ w₁).bind (.done _ _), Nat.le_refl 1,
          List.forall_mem_singleton.mpr fun h => h⟩
      · rw [if_neg hok, if_neg hok]
        exact ⟨[], w₁, .done _ w₁, Nat.zero_le 1, fun _ h => nomatch h⟩
    obtain ⟨notes, w', hdoes, hnotes⟩ := hanswer
    exact ⟨notes, w', hpost.bind hdoes, hnotes⟩

theorem does_reportLogged (id : String) (status : JobStatus) (info : String) (w : World A) :
    ∃ r notes o w', Does (Boot.undergoing s) (reportLogged id status info : Activity A _) w
      (⟨w, .post Report.path (Report.body id status info), r⟩ :: notes) o w' ∧
        ∀ d ∈ notes, ¬ d.request.Outward := by
  obtain ⟨notes, w', hdoes, -, hnotes⟩ := does_reportFor s id status info w
  generalize (w.undergo s (.post Report.path (Report.body id status info))).1 = r at hdoes
  unfold reportLogged
  cases hr : reportResult r with
  | none =>
    rw [hr] at hdoes
    exact ⟨r, notes, none, w', hdoes.bind_died, hnotes⟩
  | some result =>
    rw [hr] at hdoes
    cases result with
    | ok => exact ⟨r, notes ++ [], _, _, hdoes.bind (.done () w'), by simpa using hnotes⟩
    | error e =>
      refine ⟨r, notes ++ [_], _, _, hdoes.bind (does_note s _ w'), ?_⟩
      exact List.forall_mem_append.mpr ⟨hnotes, List.forall_mem_singleton.mpr fun h => h⟩

/-- An activity that finds a job id left over reports it, whether or not it can erase it. -/
theorem retracts_reconcile (hid : w.device.store.loadJobId = .ok (some id)) :
    Retracts id w.device.eraseJobId.1 ((reconcile : Activity A Unit).trace (Boot.undergoing s) w) := by
  obtain ⟨notes, w₁, hforget, hnotes⟩ := does_forgetJobId s (w.note (.jobRolledBack id))
  obtain ⟨r, rest, o, w₂, hreport, hrest⟩ := does_reportLogged s id .rejected rollbackInfo w₁
  have htrace : (reconcile : Activity A Unit).trace (Boot.undergoing s) w =
      ⟨w, .loadJobId, .ok (some id)⟩ :: ⟨w, .note (.jobRolledBack id), ()⟩ ::
        (forgetJobId >>= fun _ => reportLogged id .rejected rollbackInfo : Activity A Unit).trace
          (Boot.undergoing s) (w.note (.jobRolledBack id)) := by
    have hread : Boot.undergoing s (.loadJobId : Effect A) w = (.ok (some id), w) := Prod.ext hid rfl
    unfold reconcile perform
    rw [request_bind, Routine.trace, hread]
    rfl
  have herased : (w.note (.jobRolledBack id)).device.eraseJobId.1 = w.device.eraseJobId.1 :=
    Device.fst_eraseJobId_congr rfl
  rw [htrace, (hforget.bind hreport).trace_eq, herased]
  have hretracts : Retracts id w.device.eraseJobId.1 _ :=
    ⟨[], w.note (.jobRolledBack id), notes, w₁, r, rest, rfl, List.forall_mem_append.mpr ⟨hnotes, hrest⟩⟩
  refine (hretracts.cons ?_).cons ?_ <;> exact fun h => h

theorem retracts_enable (h : w.Leftover id) {config : Config} {handler : Option A.Handler}
    (hi : (w.install config handler).1 = .ok ()) (test : Option A.SelfTest) :
    Retracts id w.device.eraseJobId.1 ((enable config handler test).trace (Boot.undergoing s) w) := by
  have hinstalled := h.install config handler
  have hinstall : Boot.undergoing s (.install config handler) w = (.ok (), (w.install config handler).2) :=
    Prod.ext hi rfl
  have hfaults := (w.inward_install config handler).faults
  generalize (w.install config handler).2 = w₁ at hinstalled hinstall hfaults
  have hbegin : Boot.undergoing s (.beginValidation config.rollbackTimeoutSecs.toNat) w₁ =
      (some (.ok .settled), (w₁.beginValidation config.rollbackTimeoutSecs.toNat).2) :=
    Prod.ext (hinstalled.beginValidation _) rfl
  have hinward := (w₁.trialStep_beginValidation config.rollbackTimeoutSecs.toNat).toInward
  generalize (w₁.beginValidation config.rollbackTimeoutSecs.toNat).2 = w₂ at hbegin hinward
  have hreconcile := retracts_reconcile s (w := w₂) (hinward.store ▸ hinstalled.loadJobId)
  rw [Device.fst_eraseJobId_congr (congrArg Faults.erase (hinward.faults.trans hfaults))] at hreconcile
  have hvalidate : Retracts id w.device.eraseJobId.1 ((validate test config).trace (Boot.undergoing s) w₁) := by
    unfold validate perform
    rw [request_bind, Routine.trace, hbegin]
    refine Retracts.cons (hreconcile.bind ?_) fun h => h
    exact fun _ => trivial
  unfold enable perform
  rw [request_bind, Routine.trace, hinstall]
  refine (hvalidate.bind fun r => ?_).cons fun h => h
  split
  · trivial
  · exact (only_note fun h => h).bind fun _ => trivial
  · exact (only_note fun h => h).bind fun _ => trivial

theorem does_startConfirmation (interval : Nat) (h : w.engine.validation.confirmCancelled = false) :
    ∃ t r, Does (Boot.undergoing s) (do
        perform (.startConfirmation interval)
        return .ok (← perform .validationState) : Activity A (Except UpdateError ValidationState)) w t (some r)
      (w.withConfirmation (some ⟨interval, 0, .poised⟩)) := by
  have hstarted : Does (Boot.undergoing s) (perform (.startConfirmation interval)) w
    [⟨w, .startConfirmation interval, ()⟩] (some ()) (w.startConfirmation interval) := .request _ w
  rw [World.startConfirmation_poised h] at hstarted
  have hasked (w : World A) : Does (Boot.undergoing s) (perform .validationState) w
    [⟨w, .validationState, w.engine.validation.state⟩] (some w.engine.validation.state) w := .request _ w
  exact ⟨_, _, hstarted.bind ((hasked _).bind (.done _ _))⟩

/-- Where a trial begins and the image passes its test, to enable the engine is to start the confirmation. -/
theorem does_enable_passing {config : Config} {handler : Option A.Handler}
    (hi : (w.install config handler).1 = .ok ())
    (hb : ((w.install config handler).2.beginValidation config.rollbackTimeoutSecs.toNat).1 = some (.ok .trial))
    {test : Option A.SelfTest} (ht : test = none ∨ s.diagnosis = .passed) :
    let begun := ((w.install config handler).2.beginValidation config.rollbackTimeoutSecs.toNat).2
    ∃ w₁, (w₁ = begun ∨ w₁ = begun.note .selfTestPassed) ∧ ∀ {t r w'},
      Does (Boot.undergoing s) (confirmTrial config.confirmRetryIntervalMs.toNat) w₁ t (some r) w' →
      ∃ t' e, Does (Boot.undergoing s) (enable config handler test) w t' (some (.ok ())) (w'.note e) := by
  intro begun
  have hinstall : Does (Boot.undergoing s) (perform (.install config handler)) w
    [⟨w, .install config handler, .ok ()⟩] (some (.ok ())) (w.install config handler).2 :=
    .replied (Prod.ext hi rfl)
  have hbegin : Does (Boot.undergoing s) (perform (.beginValidation config.rollbackTimeoutSecs.toNat))
    (w.install config handler).2
    [⟨(w.install config handler).2, .beginValidation config.rollbackTimeoutSecs.toNat, some (.ok .trial)⟩]
    (some (some (.ok .trial))) begun := .replied (Prod.ext hb rfl)
  have htested : ∃ w₁, (w₁ = begun ∨ w₁ = begun.note .selfTestPassed) ∧ ∀ {t r w'},
      Does (Boot.undergoing s) (confirmTrial config.confirmRetryIntervalMs.toNat) w₁ t (some r) w' →
      ∃ t', Does (Boot.undergoing s) (testTrial test config.confirmRetryIntervalMs.toNat) begun t' (some r) w' := by
    cases test with
    | none => exact ⟨begun, .inl rfl, fun hconfirm => ⟨_, hconfirm⟩⟩
    | some test =>
      have hpassed : s.diagnosis = .passed := ht.resolve_left (by simp)
      have hdiagnosed : Does (Boot.undergoing s) (perform (.diagnose test)) begun
        [⟨begun, .diagnose test, .passed⟩] (some .passed) begun := .replied (Prod.ext hpassed rfl)
      refine ⟨_, .inr rfl, fun hconfirm => ?_⟩
      exact ⟨_, hdiagnosed.bind ((does_note s .selfTestPassed begun).bind hconfirm)⟩
  obtain ⟨w₁, hw₁, htest⟩ := htested
  refine ⟨w₁, hw₁, fun {t r w'} hconfirm => ?_⟩
  obtain ⟨t', htest⟩ := htest hconfirm
  have hvalidate : Does (Boot.undergoing s) (validate test config) (w.install config handler).2 _ (some (some r)) w' :=
    hbegin.bind (htest.bind (.done _ _))
  unfold enable
  match r with
  | .ok state =>
    have htold := does_note s (.bootValidated state) w'
    exact ⟨_, _, hinstall.bind (hvalidate.bind (htold.bind (.done (Except.ok ()) _)))⟩
  | .error e =>
    have htold := does_note s (.bootValidationFailed e) w'
    exact ⟨_, _, hinstall.bind (hvalidate.bind (htold.bind (.done (Except.ok ()) _)))⟩

end Activity

/-! ## The next normal boot -/

namespace Boot

def enable (b : Boot A) (config : Config) (handler : Option A.Handler) (test : Option A.SelfTest)
    (s : Saying) (turns : Nat) : Boot A :=
  b.run (.call (.enable config handler test) :: List.replicate turns (.go b.tasks.length s))

/-- With a turn for each of its effects the enabling is all that happens. -/
theorem enable_eq {b : Boot A} {config : Config} {handler : Option A.Handler} {test : Option A.SelfTest}
    {s : Saying} {t : List (Deed A)} {o : Option (Except UpdateError Unit)} {w : World A}
    (h : Does (undergoing s) (Activity.enable config handler test) b.world t o w) {turns : Nat}
    (hn : t.length ≤ turns) :
    b.enable config handler test s turns = ⟨w, b.tasks ++ [.call (ended (o.map fun _ => ()))],
      (t.map (Happening.did b.tasks.length)).reverse ++ b.history⟩ := by
  let c : Call A := .enable config handler test
  have htrace : c.activity.trace (undergoing s) (b.step (.call c)).world = t :=
    (trace_bind_done _ _ _).trans h.trace_eq
  have hrun : Routine.run (undergoing s) c.activity (b.step (.call c)).world = (o.map fun _ => (), w) := by
    refine (run_bind_done _ _ _).trans ?_
    have hworld : (b.step (.call c)).world = b.world := rfl
    rw [hworld, h.run_eq]
  have htask : (b.step (.call c)).tasks[b.tasks.length]? = some (.call c.activity) :=
    List.getElem?_concat_length
  have halone := run_alone htask s (n := turns) (by rwa [htrace])
  rw [htrace, hrun] at halone
  have htasks : (b.step (.call c)).tasks.set b.tasks.length (Task.call (ended (o.map fun _ => ()))) =
      b.tasks ++ [Task.call (ended (o.map fun _ => ()))] := by
    have hb : (b.step (.call c)).tasks = b.tasks ++ [Task.call c.activity] := rfl
    simp [hb]
  rw [htasks] at halone
  exact halone

end Boot

def Session.enabling (version : String) (config : Config) (handler : Option A.Handler)
    (test : Option A.SelfTest) (turns : Nat) (s : Saying) : Session A :=
  ⟨version, .call (.enable config handler test) :: List.replicate turns (.go 0 s)⟩

theorem Session.boot_enabling {d : Device} {version : String} {config : Config} {handler : Option A.Handler}
    {test : Option A.SelfTest} {s : Saying} {t : List (Deed A)} {o : Option (Except UpdateError Unit)}
    {w : World A} (h : Does (Boot.undergoing s) (Activity.enable config handler test) (.boot d version) t o w)
    {turns : Nat} (hn : t.length ≤ turns) : (Session.enabling version config handler test turns s).boot d =
      ⟨w, [.call (ended (o.map fun _ => ()))], (t.map (Happening.did 0)).reverse⟩ :=
  (Boot.enable_eq (b := Boot.start A d version) h hn).trans (congrArg (Boot.mk w _) (List.append_nil _))

/-- Enabled where it finds a job id left over, the engine retracts the job, and nothing else happens. -/
theorem Session.history_enabling {d : Device} {version id : String} {config : Config}
    {handler : Option A.Handler} (h : (World.boot d version : World A).Leftover id)
    (hi : ((World.boot d version : World A).install config handler).1 = .ok ()) (test : Option A.SelfTest)
    (s : Saying) {turns : Nat}
    (hn : ((Activity.enable config handler test).trace (Boot.undergoing s) (World.boot d version)).length ≤ turns) :
    ∃ t, Retracts id d.eraseJobId.1 t ∧
      ((Session.enabling version config handler test turns s).boot d).history =
        (t.map (Happening.did 0)).reverse := by
  have hretracts := Activity.retracts_enable s h hi test
  have herased : (World.boot d version : World A).device.eraseJobId.1 = d.eraseJobId.1 :=
    Device.fst_eraseJobId_congr rfl
  rw [herased] at hretracts
  refine ⟨_, hretracts, ?_⟩
  rw [Session.boot_enabling (Routine.does _ _) hn]

theorem Session.retracts_enabling {d : Device} {version id : String} {config : Config}
    {handler : Option A.Handler} (h : (World.boot d version : World A).Leftover id)
    (hi : ((World.boot d version : World A).install config handler).1 = .ok ()) (test : Option A.SelfTest)
    (s : Saying) : ∃ enough, ∀ turns, enough ≤ turns → ∃ task w r, .did task ⟨w, retraction id, r⟩ ∈
      ((Session.enabling version config handler test turns s).boot d).history := by
  refine ⟨((Activity.enable config handler test).trace (Boot.undergoing s) (World.boot d version)).length,
    fun turns hturns => ?_⟩
  obtain ⟨t, hretracts, hhistory⟩ := history_enabling h hi test s hturns
  obtain ⟨⟨w, e, r⟩, hmem, he⟩ := hretracts.reported
  cases he
  refine ⟨0, w, r, ?_⟩
  rw [hhistory]
  exact List.mem_reverse.mpr (List.mem_map_of_mem hmem)

theorem Except.eq_ok_of_toBool {ε : Type} {r : Except ε Unit} (h : r.toBool = true) : r = .ok () := by
  cases r with
  | ok => rfl
  | error e => cases h

namespace Device

/-- The engine reports a job as rolled back, unless it was told to, only on a boot of a valid slot whose
record has kept the id of the job since it was last saved; and enabled on such a boot it does so. That
the image of the job has been marked valid in between makes no difference. -/
theorem rollback_reported_iff_left_over (d : Device) (life : List (Session A)) (id : String) :
    (∀ (s : Session A) later task w r before,
      (s.boot (d.after life)).history = later ++ .did task ⟨w, retraction id, r⟩ :: before →
      (∃ c, .call c ∈ s.moves ∧ c.Retracts id) ∨ Dictated id (deedsBy task before) ∨
      ((d.after life).slots.running = .valid ∧
        ∃ between w₁ prior, before = between ++ .did task ⟨w₁, .loadJobId, .ok (some id)⟩ :: prior ∧
          ∀ since saved, prior ++ d.past life = since ++ saved → (∀ x ∈ since, x.saved? ≠ some id) →
            (d.nextBoot.since saved).jobId = some (Bytes.ofText id) ∧
              ∀ x ∈ since, x.saved? = none ∧ x.erases = false)) ∧
    (id ≠ "" → (d.after life).slots.running = .valid → (d.after life).faults.runningState = false →
      (d.after life).store.failReads = false → ∀ since saved, d.past life = since ++ saved →
      (d.nextBoot.since saved).jobId = some (Bytes.ofText id) →
      (∀ x ∈ since, x.saved? = none ∧ x.erases = false) →
      ∀ version config (handler : Option A.Handler) test s,
        ((World.boot (d.after life) version : World A).install config handler).1 = .ok () →
        ∃ enough, ∀ turns, enough ≤ turns → ∃ task w r, .did task ⟨w, retraction id, r⟩ ∈
          ((Session.enabling version config handler test turns s).boot (d.after life)).history) := by
  constructor
  · intro s later task w r before h
    refine (Boot.left_over_of_retraction _ _ _ h).imp_right fun h => h.imp_right ?_
    rintro ⟨hvalid, between, w₁, prior, rfl, hid⟩
    refine ⟨hvalid, between, w₁, prior, rfl, fun since saved he hs => kept_of_since ?_ hs⟩
    rw [← he, ← jobId_since_life]
    exact hid
  · intro hne hvalid hlegible hreadable since saved he hsaved hkept version config handler test s hi
    refine Session.retracts_enabling ⟨rfl, hvalid, hlegible, hreadable, ?_, hne⟩ hi test s
    have hid := (jobId_since_append fun x hx => (hkept x hx).1).mpr ⟨hsaved, fun x hx => (hkept x hx).2⟩
    rw [← he, ← d.jobId_after life] at hid
    exact hid

/-! ## A confirmed image -/

def applyingJob : Session Agent.application :=
  ⟨"1.0.0", Boot.enabling ++
    [.disturb ⟨[.answer offeredJob], [], [("u", .plain [1, 2, 3, 4])], .none, false, false, false⟩,
      .call .fetch] ++ List.replicate 40 (.go 1 Boot.obliging)⟩

def markingMeanwhile : Session Agent.application :=
  ⟨"2.0.0", Boot.enabling ++ [.disturb ⟨[], [.answer ⟨503, []⟩], [], .none, false, false, false⟩, .attempt] ++
    List.replicate 6 (.go 1 Boot.obliging) ++ [.call .markValid, .go 2 Boot.obliging]⟩

def confirmedLife : List (Session Agent.application) := [markingMeanwhile, applyingJob]

theorem rollback_reported_iff_left_over_confirmed :
    "B" ≠ "" ∧ ((fresh .valid).after confirmedLife).slots.running = .valid ∧
    ((fresh .valid).after confirmedLife).faults.runningState = false ∧
    ((fresh .valid).after confirmedLife).store.failReads = false ∧
    (∃ since saved, (fresh .valid).past confirmedLife = since ++ saved ∧ since ≠ [] ∧
      ((fresh .valid).nextBoot.since saved).jobId = some (Bytes.ofText "B") ∧
      ∀ x ∈ since, x.saved? = none ∧ x.erases = false) ∧
    ((World.boot ((fresh .valid).after confirmedLife) "2.0.0" : World Agent.application).install
      Config.default none).1 = .ok () ∧
    ∃ (s : Session Agent.application) (later : List (Happening Agent.application)) (task : Nat)
      (w : World Agent.application) (r : Option (Except Cause Response))
      (before : List (Happening Agent.application)),
      (s.boot ((fresh .valid).after confirmedLife)).history =
        later ++ .did task ⟨w, retraction "B", r⟩ :: before ∧
      ((∃ c, .call c ∈ s.moves ∧ c.Retracts "B") ∨ Dictated "B" (deedsBy task before) ∨
        (((fresh .valid).after confirmedLife).slots.running = .valid ∧
          ∃ between w₁ prior, before = between ++ .did task ⟨w₁, .loadJobId, .ok (some "B")⟩ :: prior ∧
            ∀ since saved, prior ++ (fresh .valid).past confirmedLife = since ++ saved →
              (∀ x ∈ since, x.saved? ≠ some "B") →
              ((fresh .valid).nextBoot.since saved).jobId = some (Bytes.ofText "B") ∧
                ∀ x ∈ since, x.saved? = none ∧ x.erases = false)) := by
  have hne : "B" ≠ "" := by decide
  have hvalid : ((fresh .valid).after confirmedLife).slots.running = .valid := by decide +kernel
  have hlegible : ((fresh .valid).after confirmedLife).faults.runningState = false := by decide +kernel
  have hreadable : ((fresh .valid).after confirmedLife).store.failReads = false := by decide +kernel
  have hinstall : ((World.boot ((fresh .valid).after confirmedLife) "2.0.0" :
      World Agent.application).install Config.default none).1 = .ok () :=
    Except.eq_ok_of_toBool (by decide +kernel)
  -- the life splits where the id of B was saved
  let unsaved (x : Happening Agent.application) : Bool := x.saved?.isNone
  have hsplit := (List.takeWhile_append_dropWhile (p := unsaved)
    (l := (fresh .valid).past confirmedLife)).symm
  have hlong : ((fresh .valid).past confirmedLife).takeWhile unsaved ≠ [] := by decide +kernel
  have hsaved : ((fresh .valid).nextBoot.since
      (((fresh .valid).past confirmedLife).dropWhile unsaved)).jobId = some (Bytes.ofText "B") := by
    decide +kernel
  have hkept : ∀ x ∈ ((fresh .valid).past confirmedLife).takeWhile unsaved,
      x.saved? = none ∧ x.erases = false := by decide +kernel
  obtain ⟨hreported, hreports⟩ := rollback_reported_iff_left_over (fresh .valid) confirmedLife "B"
  obtain ⟨turns, hturns⟩ := hreports hne hvalid hlegible hreadable _ _ hsplit hsaved hkept "2.0.0"
    Config.default none none Boot.obliging hinstall
  obtain ⟨task, w, r, hmem⟩ := hturns turns (Nat.le_refl _)
  obtain ⟨later, before, h⟩ := List.append_of_mem hmem
  exact ⟨hne, hvalid, hlegible, hreadable, ⟨_, _, hsplit, hlong, hsaved, hkept⟩, hinstall,
    _, later, task, w, r, before, h, hreported _ _ _ _ _ _ h⟩

/-- The image of job B boots and is marked valid while it runs. No rollback is asked for, and no job is
applied; still the next boot tells the service that the job has been rolled back. -/
theorem rollback_reported_for_confirmed :
    ((fresh .valid).after [applyingJob]).slots.running = .pendingVerify ∧
    ((fresh .valid).after [applyingJob]).slots.image = [1, 2, 3, 4] ∧
    ((fresh .valid).after [applyingJob]).nextBoot.jobId = some (Bytes.ofText "B") ∧
    (∃ x ∈ (markingMeanwhile.boot ((fresh .valid).after [applyingJob])).history, x.marks = true) ∧
    (∀ x ∈ (markingMeanwhile.boot ((fresh .valid).after [applyingJob])).history, x.saved? = none) ∧
    ((fresh .valid).after confirmedLife).slots.running = .valid ∧
    ((fresh .valid).after confirmedLife).slots.rollbackCalls = 0 ∧
    ⟨Report.path, Report.body "B" .rejected rollbackInfo⟩ ∉
      ((fresh .valid).after confirmedLife).network.posts ∧
    ⟨Report.path, Report.body "B" .rejected rollbackInfo⟩ ∈ ((⟨"2.0.0", Boot.enabling⟩ :
      Session Agent.application).boot ((fresh .valid).after confirmedLife)).world.device.network.posts := by
  decide +kernel

end Device

end FirmwareUpdate
