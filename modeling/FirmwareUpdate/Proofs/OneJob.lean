import FirmwareUpdate.Proofs.Commits
import FirmwareUpdate.Proofs.Conduct
import FirmwareUpdate.Proofs.Repertoires

/-!
# One job at a time

A fetch looks at the flag when it is called, and sets it only when it has been sent a job. In between
it waits for the service, so that several fetches may have been let in. The one that sets the flag
takes its job up; whichever way the job ends, it is put down and the flag is cleared again.
-/

namespace FirmwareUpdate

open Routine

variable {A : Application}

/-! ## Flag and job -/

def Effect.OfClaim : Effect A → Prop
  | .inProgress | .claim | .takeUp _ | .putDown | .release => True
  | _ => False

theorem Effect.OfApply.not_ofClaim {e : Effect A} (h : e.OfApply) : ¬ e.OfClaim := by
  cases e <;> first | exact id | exact h.elim

theorem Effect.OfConclude.not_ofClaim {e : Effect A} (h : e.OfConclude) : ¬ e.OfClaim := by
  cases e <;> first | exact id | exact h.elim

theorem Effect.OfConfirm.not_ofClaim {e : Effect A} (h : e.OfConfirm) : ¬ e.OfClaim := by
  cases e <;> first | exact id | exact h.elim

theorem Effect.OfEnable.not_ofClaim {e : Effect A} (h : e.OfEnable) : ¬ e.OfClaim := by
  cases e <;> first | exact id | exact h.elim

/-- The task is between its claim and its release. -/
def holds : List (Deed A) → Bool
  | [] => false
  | ⟨_, .claim, true⟩ :: _ => true
  | ⟨_, .release, _⟩ :: _ => false
  | _ :: past => holds past

def inHand : List (Deed A) → Option Job
  | [] => none
  | ⟨_, .takeUp job, _⟩ :: _ => some job
  | ⟨_, .putDown, _⟩ :: _ => none
  | _ :: past => inHand past

section
variable {s : World A} {e : Effect A} {r : e.Reply} {past : List (Deed A)}

theorem holds_cons (h : ¬ e.OfClaim) : holds (⟨s, e, r⟩ :: past) = holds past := by
  cases e <;> first | rfl | exact (h trivial).elim

theorem inHand_cons (h : ¬ e.OfClaim) : inHand (⟨s, e, r⟩ :: past) = inHand past := by
  cases e <;> first | rfl | exact (h trivial).elim

end

def Guarded (past : List (Deed A)) : Effect A → Prop
  | .claim => holds past = false ∧ inHand past = none
  | .takeUp _ | .release => holds past = true ∧ inHand past = none
  | .putDown => holds past = true
  | _ => True

def Free (past : List (Deed A)) : Prop := holds past = false ∧ inHand past = none

theorem Guarded.of_not {past : List (Deed A)} {e : Effect A} (h : ¬ e.OfClaim) : Guarded past e := by
  cases e <;> first | trivial | exact (h trivial).elim

/-! ## Every task -/

namespace Activity

variable {past : List (Deed A)}

theorem heeds_of_only {α : Type} {p : Activity A α} (h : p.Only fun e => ¬ e.OfClaim) : p.Heeds Guarded
    (fun _ past' => holds past' = holds past ∧ inHand past' = inHand past) past := by
  induction p generalizing past with
  | done a => exact ⟨rfl, rfl⟩
  | died => exact ⟨rfl, rfl⟩
  | step e next ih =>
    refine ⟨.of_not h.1, fun s r => ?_⟩
    rw [← holds_cons (s := s) (r := r) h.1, ← inHand_cons (s := s) (r := r) h.1]
    exact ih r (h.2 r)

theorem heeds_free {α : Type} {p : Activity A α} (h : p.Only fun e => ¬ e.OfClaim) (hf : Free past) :
    p.Heeds Guarded (fun _ => Free) past :=
  (heeds_of_only h).mono (fun _ _ h => h) fun _ _ ⟨hh, hi⟩ => ⟨hh.trans hf.1, hi.trans hf.2⟩

theorem only_receive {P : Effect A → Prop} (hp : ∀ path body, P (.post path body)) (hn : ∀ e, P (.note e))
    (a : Admission A) {response : Response} (h : ∀ job, Payload.ofBytes response.body ≠ .ok (.job job)) :
    (receive a response).Only P := by
  unfold receive rejectPayload
  split
  · split
    · exact (only_note (hn _)).bind fun _ => (only_reportLogged (hp _ _) hn).bind fun _ => trivial
    · trivial
  · exact (only_note (hn _)).bind fun _ => trivial
  · exact (only_note (hn _)).bind fun _ => trivial
  · exact (only_note (hn _)).bind fun _ => (only_reportLogged (hp _ _) hn).bind fun _ => trivial
  · rename_i job hjob
    exact absurd hjob (h job)

theorem heeds_takeOn_free (a : Admission A) (job : Job) (hf : Free past) :
    (takeOn a job).Heeds Guarded (fun _ => Free) past := by
  refine ⟨hf, fun s r => ?_⟩
  cases r with
  | false => exact hf
  | true =>
    have hheld : (holdJob a job).Heeds Guarded (fun _ past => holds past = true)
        (⟨s, .claim, true⟩ :: past) := by
      refine ⟨⟨rfl, hf.2⟩, fun s₁ r => ?_⟩
      have hcarry : (carryOut a job).Only fun e => ¬ e.OfClaim :=
        (only_carryOut a job).mono fun _ => Effect.OfApply.not_ofClaim
      exact (heeds_of_only hcarry).mono (fun _ _ h => h) fun _ _ h => h.1
    have hboth : ((holdJob a job).ensuring letGo).Heeds Guarded (fun _ => Free)
        (⟨s, .claim, true⟩ :: past) := by
      refine hheld.ensuring (fun o past ho => ?_) fun _ _ h => h
      exact ⟨ho, fun s₁ r => ⟨⟨ho, rfl⟩, fun s₂ r => ⟨rfl, rfl⟩⟩⟩
    refine hboth.andThen fun r past hf => ?_
    split
    · exact hf
    · rename_i outcome
      have hconclude : (conclude a.config job.id outcome : Activity A _).Only fun e => ¬ e.OfClaim :=
        (only_conclude _ _ _).mono fun _ => Effect.OfConclude.not_ofClaim
      exact (heeds_free hconclude hf).andThen fun _ _ hf => hf

theorem heeds_ask_free (a : Admission A) (hf : Free past) :
    (ask a).Heeds Guarded (fun _ => Free) past := by
  have hget : (get (fetchPath a.version) : Activity A _).Only fun e => ¬ e.OfClaim :=
    (only_perform nofun).bind fun r => by cases r <;> trivial
  refine (heeds_free (only_note nofun) hf).andThen fun _ _ hf => ?_
  refine (heeds_free hget hf).andThen fun r past hf => ?_
  split
  · exact hf
  · rename_i response
    by_cases hp : ∃ job, Payload.ofBytes response.body = .ok (.job job)
    · obtain ⟨job, hp⟩ := hp
      unfold receive
      rw [hp]
      exact heeds_takeOn_free a job hf
    · exact heeds_free (only_receive (fun _ _ => nofun) (fun _ => nofun) a (not_exists.mp hp)) hf

theorem heeds_fetch_free (hf : Free past) : (fetch : Activity A _).Heeds Guarded (fun _ => Free) past := by
  refine ⟨trivial, fun s r => ?_⟩
  cases r with
  | true => exact hf
  | false =>
    refine ⟨trivial, fun s₁ r => ?_⟩
    match r with
    | .error e => exact hf
    | .ok a => exact heeds_ask_free a hf

theorem heeds_autofetchRound_free : (autofetchRound : Activity A _).Heeds Guarded (fun _ => Free) [] := by
  refine (heeds_free (only_note nofun) ⟨rfl, rfl⟩).andThen fun _ _ hf => ?_
  refine (heeds_fetch_free hf).andThen fun r _ hf => ?_
  split
  · exact hf
  · exact heeds_free (only_note nofun) hf
  · exact heeds_free (only_note nofun) hf

end Activity

open Activity

theorem heeds_call_free (c : Call A) : (Task.call c.activity).Heeds Guarded Free [] := by
  have hf : Free ([] : List (Deed A)) := ⟨rfl, rfl⟩
  have hsingle {e : Effect A} (h : ¬ e.OfClaim) :
      (do let _ ← perform e : Activity A Unit).Heeds Guarded (fun _ => Free) [] :=
    heeds_free ((only_perform h).bind fun _ => trivial) hf
  cases c with
  | enable config handler test =>
    have henable : (enable config handler test).Only fun e => ¬ e.OfClaim :=
      (only_enable config handler test).mono fun _ => Effect.OfEnable.not_ofClaim
    exact (heeds_free henable hf).andThen fun _ _ hf => hf
  | fetch => exact (heeds_fetch_free hf).andThen fun _ _ hf => hf
  | autofetch => exact heeds_autofetchRound_free
  | download job chunkSize =>
    have hdownload : (downloadAndFlash job chunkSize : Activity A _).Only fun e => ¬ e.OfClaim :=
      (only_downloadAndFlash job chunkSize).mono fun _ h => h.apply.not_ofClaim
    exact (heeds_free hdownload hf).andThen fun _ _ hf => hf
  | report id status info =>
    have hreport : (reportFor id status info : Activity A _).Only fun e => ¬ e.OfClaim :=
      only_reportFor nofun fun _ => nofun
    exact (heeds_free hreport hf).andThen fun _ _ hf => hf
  | disable => exact hsingle (e := .uninstall) nofun
  | markValid => exact hsingle (e := .markValid) nofun
  | markInvalid => exact hsingle (e := .markInvalid) nofun
  | joinConfirmation => exact hsingle (e := .joinConfirmation) nofun

theorem Boot.guarded_run (d : Device) (version : String) (ms : List (Move A)) :
    ((start A d version).run ms).Heeding Guarded Free := by
  apply heeding_run d version fun c _ => heeds_call_free c
  intro attempt interval
  have hattempt : (confirmAttempt attempt interval : Activity A _).Only fun e => ¬ e.OfClaim :=
    (only_confirmAttempt attempt interval).mono fun _ => Effect.OfConfirm.not_ofClaim
  exact heeds_free hattempt ⟨rfl, rfl⟩

/-! ## The engine's side -/

namespace World

theorem claim_undergo (w : World A) (s : Saying) {e : Effect A} (h : ¬ e.OfClaim) :
    (w.undergo s e).2.engine.inProgress = w.engine.inProgress ∧
      (w.undergo s e).2.engine.live = w.engine.live := by
  have htrial {w' : World A} (h : TrialStep w w') :
      w'.engine.inProgress = w.engine.inProgress ∧ w'.engine.live = w.engine.live :=
    ⟨congrArg (·.inProgress) h.engine, congrArg (·.live) h.engine⟩
  rw [undergo_snd]
  cases e with
  | inProgress | claim | takeUp | putDown | release => exact (h trivial).elim
  | beginValidation seconds => exact htrial (w.trialStep_beginValidation seconds)
  | markValid => exact htrial w.trialStep_markValid
  | markInvalid => exact htrial w.trialStep_markInvalid
  | settleTrial => exact htrial w.trialStep_settleTrial
  | joinConfirmation => exact htrial w.trialStep_joinConfirmation
  | install config handler =>
    have h := w.reconfigured_install config handler
    exact ⟨h.inProgress, h.live⟩
  | uninstall => exact ⟨w.reconfigured_uninstall.inProgress, w.reconfigured_uninstall.live⟩
  | _ => exact ⟨rfl, rfl⟩

/-- The engine's flag and job are those of the one task that has claimed it, if there is one. -/
structure Claimed (w : World A) (history : List (Happening A)) : Prop where
  unique : ∀ i j, holds (deedsBy i history) = true → holds (deedsBy j history) = true → i = j
  flag : w.engine.inProgress = true ↔ ∃ i, holds (deedsBy i history) = true
  job : ∀ i, holds (deedsBy i history) = true → w.engine.live = inHand (deedsBy i history)
  idle : w.engine.inProgress = false → w.engine.live = none

variable {w w' : World A} {history : List (Happening A)}

theorem Claimed.of_eq (hc : Claimed w history) (hf : w'.engine.inProgress = w.engine.inProgress)
    (hl : w'.engine.live = w.engine.live) : Claimed w' history where
  unique := hc.unique
  flag := by rw [hf]; exact hc.flag
  job i hi := by rw [hl]; exact hc.job i hi
  idle h := by rw [hl]; exact hc.idle (hf ▸ h)

theorem holds_did {task i : Nat} {d : Deed A} (h : holds (d :: deedsBy task history) = holds (deedsBy task history)) :
    holds (deedsBy i (.did task d :: history)) = holds (deedsBy i history) := by
  by_cases hi : task = i
  · subst hi
    rw [deedsBy_did, h]
  · rw [deedsBy_did_ne hi]

theorem Claimed.did_aside (hc : Claimed w history) {task : Nat} {d : Deed A}
    (hh : holds (d :: deedsBy task history) = holds (deedsBy task history))
    (hi : inHand (d :: deedsBy task history) = inHand (deedsBy task history)) :
    Claimed w (.did task d :: history) where
  unique i j := by
    rw [holds_did hh, holds_did hh]
    exact hc.unique i j
  flag := by
    rw [hc.flag]
    exact exists_congr fun i => by rw [holds_did hh]
  job i h := by
    rw [holds_did hh] at h
    rw [hc.job i h]
    by_cases ht : task = i
    · subst ht
      rw [deedsBy_did, hi]
    · rw [deedsBy_did_ne ht]
  idle := hc.idle

theorem Claimed.only_holder (hc : Claimed w history) {task : Nat} (h : holds (deedsBy task history) = true) :
    w.engine.inProgress = true ∧ ∀ i, holds (deedsBy i history) = true → i = task :=
  ⟨hc.flag.mpr ⟨task, h⟩, fun i hi => hc.unique i task hi h⟩

theorem Claimed.no_holder (hc : Claimed w history) (h : w.engine.inProgress = false) (i : Nat) :
    holds (deedsBy i history) = false := by
  cases hi : holds (deedsBy i history) with
  | false => rfl
  | true => exact absurd (hc.flag.mpr ⟨i, hi⟩) (by simp [h])

theorem Claimed.undergo_aside (hc : Claimed w history) (task : Nat) (s : Saying) {e : Effect A}
    (h : ¬ e.OfClaim) : Claimed (w.undergo s e).2 (.did task ⟨w, e, (w.undergo s e).1⟩ :: history) := by
  obtain ⟨hf, hl⟩ := w.claim_undergo s h
  exact (hc.of_eq hf hl).did_aside (holds_cons h) (inHand_cons h)

theorem Claimed.undergo (hc : Claimed w history) (task : Nat) (s : Saying) {e : Effect A}
    (hg : Guarded (deedsBy task history) e) :
    Claimed (w.undergo s e).2 (.did task ⟨w, e, (w.undergo s e).1⟩ :: history) := by
  cases e with
  | claim =>
    cases hf : w.engine.inProgress with
    | true =>
      have hw : w.undergo s .claim = (false, w) := by
        change w.claim = _
        unfold claim
        rw [if_pos hf]
      rw [hw]
      exact hc.did_aside rfl rfl
    | false =>
      have hw : w.undergo s .claim = (true, { w with engine := { w.engine with inProgress := true } }) := by
        change w.claim = _
        unfold claim
        rw [if_neg (by simp [hf])]
      rw [hw]
      have hone (i : Nat) : holds (deedsBy i (.did task ⟨w, .claim, true⟩ :: history)) = true ↔ i = task := by
        by_cases hi : task = i
        · subst hi
          rw [deedsBy_did]
          exact iff_of_true rfl rfl
        · rw [deedsBy_did_ne hi, hc.no_holder hf i]
          exact iff_of_false nofun (Ne.symm hi)
      refine ⟨fun i j hi hj => ?_, ?_, fun i hi => ?_, nofun⟩
      · rw [(hone i).mp hi, (hone j).mp hj]
      · exact iff_of_true rfl ⟨task, (hone task).mpr rfl⟩
      · rw [(hone i).mp hi, deedsBy_did]
        exact (hc.idle hf).trans hg.2.symm
  | takeUp job =>
    obtain ⟨hflag, hother⟩ := hc.only_holder hg.1
    have hkept (i : Nat) : holds (deedsBy i (.did task ⟨w, .takeUp job, ()⟩ :: history)) =
        holds (deedsBy i history) := holds_did rfl
    refine ⟨fun i j hi hj => ?_, ?_, fun i hi => ?_, fun h => ?_⟩
    · exact hc.unique i j (hkept i ▸ hi) (hkept j ▸ hj)
    · exact iff_of_true hflag ⟨task, (hkept task).trans hg.1⟩
    · rw [hother i ((hkept i).symm.trans hi), deedsBy_did]
      rfl
    · exact absurd (hflag.symm.trans h) nofun
  | putDown =>
    obtain ⟨hflag, hother⟩ := hc.only_holder hg
    have hkept (i : Nat) : holds (deedsBy i (.did task ⟨w, .putDown, ()⟩ :: history)) =
        holds (deedsBy i history) := holds_did rfl
    refine ⟨fun i j hi hj => ?_, ?_, fun i hi => ?_, fun _ => rfl⟩
    · exact hc.unique i j (hkept i ▸ hi) (hkept j ▸ hj)
    · exact iff_of_true hflag ⟨task, (hkept task).trans hg⟩
    · rw [hother i ((hkept i).symm.trans hi), deedsBy_did]
      rfl
  | release =>
    obtain ⟨-, hother⟩ := hc.only_holder hg.1
    have hnone (i : Nat) : holds (deedsBy i (.did task ⟨w, .release, ()⟩ :: history)) = false := by
      by_cases hi : task = i
      · subst hi
        rw [deedsBy_did]
        rfl
      · rw [deedsBy_did_ne hi, Bool.eq_false_iff]
        exact fun h => hi (hother i h).symm
    refine ⟨fun i j hi => ?_, ?_, fun i hi => ?_, fun _ => ?_⟩
    · exact absurd (hnone i) (by simp [hi])
    · exact iff_of_false nofun (by simp [hnone])
    · exact absurd (hnone i) (by simp [hi])
    · exact (hc.job task hg.1).trans hg.2
  | inProgress => exact hc.did_aside rfl rfl
  | _ => exact hc.undergo_aside task s fun h => h

end World

open World

theorem Turn.claimed {w w' : World A} {h h' : List (Happening A)} (ht : Turn w h w' h') (hc : Claimed w h)
    (hg : Throughout (Happening.Heeds Guarded) h') : Claimed w' h' := by
  have hfired {x : Happening A} (hx : ∀ i, x.deedBy i = none) {w : World A} (hc : Claimed w h) :
      Claimed w (x :: h) := by
    have hsame (i : Nat) : deedsBy i (x :: h) = deedsBy i h := by simp [deedsBy, hx i]
    constructor
    · intro i j
      rw [hsame, hsame]
      exact hc.unique i j
    · rw [hc.flag]
      exact exists_congr fun i => by rw [hsame]
    · intro i
      rw [hsame]
      exact hc.job i
    · exact hc.idle
  cases ht with
  | paced c => exact hc.of_eq rfl rfl
  | surrounded s => exact hc.of_eq rfl rfl
  | fired id hf =>
    have hengine := (w.trialStep_fireOnce id).engine
    exact hfired (fun _ => rfl) (hc.of_eq (congrArg (·.inProgress) hengine) (congrArg (·.live) hengine))
  | did task s e c => exact (hc.undergo task s (hg.1 task _ rfl)).of_eq rfl rfl

theorem Boot.claimed_run (d : Device) (version : String) (ms : List (Move A)) :
    Claimed ((start A d version).run ms).world ((start A d version).run ms).history ∧
    Throughout (fun x earlier => Claimed x.found earlier) ((start A d version).run ms).history := by
  have hstart : Claimed (start A d version).world [] := by
    refine ⟨?_, iff_of_false nofun ?_, ?_, fun _ => rfl⟩
    · intro i j h
      cases h
    · rintro ⟨i, h⟩
      cases h
    · intro i h
      cases h
  exact run_throughout_heeding (fun ht hc hg => ht.claimed hc hg) d version hstart (guarded_run d version ms).history

/-! ## The job in hand -/

/-- A job that a task has taken up stays in its hand until it is put down. -/
theorem carrying_since {task : Nat} {later earlier : List (Happening A)} {s : World A} {job : Job}
    (hg : Throughout (Happening.Heeds Guarded) (later ++ .did task ⟨s, .takeUp job, ()⟩ :: earlier))
    (hp : ∀ d ∈ deedsBy task later, d.request ≠ .putDown) :
    holds (deedsBy task (later ++ .did task ⟨s, .takeUp job, ()⟩ :: earlier)) = true ∧
      inHand (deedsBy task (later ++ .did task ⟨s, .takeUp job, ()⟩ :: earlier)) = some job := by
  induction later with
  | nil =>
    rw [List.nil_append, deedsBy_did]
    exact ⟨(hg.1 task _ rfl).1, rfl⟩
  | cons x later ih =>
    cases hx : x.deedBy task with
    | none =>
      have hsame (l : List (Happening A)) : deedsBy task (x :: l) = deedsBy task l := by simp [deedsBy, hx]
      rw [hsame] at hp
      rw [List.cons_append, hsame]
      exact ih hg.2 hp
    | some d =>
      obtain rfl := did_of_deedBy hx
      rw [deedsBy_did, List.forall_mem_cons] at hp
      obtain ⟨hholds, hhand⟩ := ih hg.2 hp.2
      have hrule := hg.1 task d rfl
      rw [List.cons_append, deedsBy_did]
      obtain ⟨s', e, r⟩ := d
      -- with the job in hand a task neither claims, takes up nor releases
      cases e with
      | claim => cases hholds.symm.trans hrule.1
      | takeUp | release => cases hhand.symm.trans hrule.2
      | putDown => exact absurd rfl hp.1
      | _ => exact ⟨hholds, hhand⟩

/-! ## The ends of a fetch -/

namespace Activity

inductive FetchEnds : List (Deed A) → Option (Except UpdateError FetchOutcome) → Prop
  | refused (s : World A) : FetchEnds [⟨s, .inProgress, true⟩] (some (.error World.busy))
  | aside (s : World A) {t : List (Deed A)} {o : Option (Except UpdateError FetchOutcome)}
      (ht : ∀ d ∈ t, ¬ d.request.OfClaim) : FetchEnds (⟨s, .inProgress, false⟩ :: t) o
  | beaten (s s₁ s₂ s₃ s₄ : World A) (a : Admission A) (r : Option (Except Cause Response)) :
      FetchEnds [⟨s, .inProgress, false⟩, ⟨s₁, .admission, .ok a⟩, ⟨s₂, .note .fetching, ()⟩,
        ⟨s₃, .get (fetchPath a.version), r⟩, ⟨s₄, .claim, false⟩] (some (.error World.busy))
  | carried (s s₁ s₂ s₃ s₄ : World A) (job : Job) {before during after : List (Deed A)}
      {o : Option (Except UpdateError FetchOutcome)} (hb : ∀ d ∈ before, ¬ d.request.OfClaim)
      (hd : ∀ d ∈ during, ¬ d.request.OfClaim) (ha : ∀ d ∈ after, ¬ d.request.OfClaim) :
      FetchEnds (⟨s, .inProgress, false⟩ :: before ++ ⟨s₁, .claim, true⟩ :: ⟨s₂, .takeUp job, ()⟩ :: during ++
        ⟨s₃, .putDown, ()⟩ :: ⟨s₄, .release, ()⟩ :: after) o

theorem ran_held {a : Admission A} {job : Job} {t : List (Deed A)}
    {o : Option (Except UpdateError ApplyOutcome)} (h : Ran ((holdJob a job).ensuring letGo) t o) :
    ∃ s₂ s₃ s₄ during, Ran (carryOut a job) during o ∧
      t = ⟨s₂, .takeUp job, ()⟩ :: during ++ [⟨s₃, .putDown, ()⟩, ⟨s₄, .release, ()⟩] := by
  obtain ⟨o', t₁, t₂, u, hheld, hgo, rfl, rfl⟩ := h.of_ensuring
  obtain _ | _ | ⟨s₂, _, hcarried⟩ := hheld
  obtain _ | _ | ⟨s₃, _, hreleased⟩ := hgo
  obtain _ | _ | ⟨s₄, _, hdone⟩ := hreleased
  cases hdone
  exact ⟨s₂, s₃, s₄, _, hcarried, rfl⟩

theorem ran_conclude {config : Config} {id : String} {outcome : ApplyOutcome} {t : List (Deed A)}
    {o : Option FetchOutcome} (h : Ran (conclude config id outcome) t o) : o = some (fetched id outcome) := by
  cases outcome with
  | deferred reason | rejected reason =>
    obtain _ | _ | ⟨_, _, h⟩ := h
    cases h
    rfl
  | applied =>
    obtain _ | _ | ⟨_, _, h⟩ := h
    dsimp only at h
    split at h
    · obtain _ | _ | ⟨_, _, h⟩ := h
      obtain _ | _ | ⟨_, _, h⟩ := h
      cases h
      rfl
    · cases h
      rfl

/-- A job that is taken on is carried out, and let go whichever way that ends. -/
theorem ran_takeOn {a : Admission A} {job : Job} {t : List (Deed A)}
    {o : Option (Except UpdateError FetchOutcome)} (h : Ran (takeOn a job) t o) :
    (∃ s, t = [⟨s, .claim, false⟩] ∧ o = some (.error World.busy)) ∨
    ∃ s₁ s₂ s₃ s₄ during after r, Ran (carryOut a job) during r ∧ (∀ d ∈ after, d.request.OfConclude) ∧
      o = r.map (Except.map (fetched job.id)) ∧
      t = ⟨s₁, .claim, true⟩ :: ⟨s₂, .takeUp job, ()⟩ :: during ++
        ⟨s₃, .putDown, ()⟩ :: ⟨s₄, .release, ()⟩ :: after := by
  obtain _ | _ | ⟨s₁, r, h⟩ := h
  cases r with
  | false =>
    cases h
    exact .inl ⟨s₁, rfl, rfl⟩
  | true =>
    right
    rcases Ran.of_bind (p := (holdJob a job).ensuring letGo) h with ⟨r, t₁, after, hheld, hend, rfl⟩ | ⟨hheld, rfl⟩
    · obtain ⟨s₂, s₃, s₄, during, hd, rfl⟩ := ran_held hheld
      cases r with
      | error e =>
        cases hend
        exact ⟨s₁, s₂, s₃, s₄, during, [], _, hd, (fun _ h => nomatch h), rfl, by simp⟩
      | ok outcome =>
        rcases hend.of_bind with ⟨result, t₂, t₃, hconclude, hdone, rfl⟩ | ⟨hdied, -⟩
        · cases hdone
          cases ran_conclude hconclude
          refine ⟨s₁, s₂, s₃, s₄, during, t₂, _, hd, hconclude.only (only_conclude _ _ _), rfl, by simp⟩
        · cases ran_conclude hdied
    · obtain ⟨s₂, s₃, s₄, during, hd, rfl⟩ := ran_held hheld
      exact ⟨s₁, s₂, s₃, s₄, during, [], none, hd, (fun _ h => nomatch h), rfl, rfl⟩

theorem ran_ask {a : Admission A} {s s₁ : World A} {t : List (Deed A)}
    {o : Option (Except UpdateError FetchOutcome)} (h : Ran (ask a) t o) :
    FetchEnds (⟨s, .inProgress, false⟩ :: ⟨s₁, .admission, .ok a⟩ :: t) o := by
  have hask {t : List (Deed A)} (ht : ∀ d ∈ t, ¬ d.request.OfClaim) :
      FetchEnds (⟨s, .inProgress, false⟩ :: ⟨s₁, .admission, .ok a⟩ :: t) o :=
    .aside s (List.forall_mem_cons.mpr ⟨id, ht⟩)
  obtain _ | _ | ⟨s₂, _, h⟩ := h
  obtain _ | _ | ⟨s₃, r, h⟩ := h
  match r, h with
  | none, h =>
    cases h
    exact hask (by simp [Effect.OfClaim])
  | some (.error c), h =>
    cases h
    exact hask (by simp [Effect.OfClaim])
  | some (.ok response), h =>
    change Ran (receive a response) _ o at h
    by_cases hp : ∃ job, Payload.ofBytes response.body = .ok (.job job)
    · obtain ⟨job, hp⟩ := hp
      unfold receive at h
      rw [hp] at h
      rcases ran_takeOn h with ⟨s₄, rfl, rfl⟩ | ⟨s₄, s₅, s₆, s₇, during, after, r, hcarried, hleft, -, rfl⟩
      · exact .beaten s s₁ s₂ s₃ s₄ a _
      · have hbefore : ∀ d ∈ [(⟨s₁, .admission, .ok a⟩ : Deed A), ⟨s₂, .note .fetching, ()⟩,
            ⟨s₃, .get (fetchPath a.version), some (.ok response)⟩], ¬ d.request.OfClaim := by
          simp [Effect.OfClaim]
        have hd : ∀ d ∈ during, ¬ d.request.OfClaim :=
          fun d hd => (hcarried.only (only_carryOut a job) d hd).not_ofClaim
        exact .carried s s₄ s₅ s₆ s₇ job hbefore hd fun d hd => (hleft d hd).not_ofClaim
    · have hrest := h.only (P := fun e => ¬ e.OfClaim)
        (only_receive (fun _ _ => nofun) (fun _ => nofun) a (not_exists.mp hp))
      exact hask (List.forall_mem_cons.mpr ⟨id, List.forall_mem_cons.mpr ⟨id, hrest⟩⟩)

theorem fetchEnds {t : List (Deed A)} {o : Option (Except UpdateError FetchOutcome)} (h : Ran fetch t o) :
    FetchEnds t o := by
  obtain _ | _ | ⟨s, r, h⟩ := h
  cases r with
  | true =>
    cases h
    exact .refused s
  | false =>
    obtain _ | _ | ⟨s₁, r, h⟩ := h
    match r, h with
    | .error e, h =>
      cases h
      exact .aside s (by simp [Effect.OfClaim])
    | .ok a, h => exact ran_ask h

theorem FetchEnds.claims {t : List (Deed A)} {o : Option (Except UpdateError FetchOutcome)}
    (h : FetchEnds t o) {s : World A} {r : Bool} (hc : ⟨s, .claim, r⟩ ∈ t) :
    (r = false ∧ o = some (.error World.busy) ∧ ∃ s₀ s₁ s₂ s₃ a r', t = [⟨s₀, .inProgress, false⟩,
      ⟨s₁, .admission, .ok a⟩, ⟨s₂, .note .fetching, ()⟩, ⟨s₃, .get (fetchPath a.version), r'⟩,
      ⟨s, .claim, false⟩]) ∨
    (r = true ∧ ∃ before s' after, t = before ++ ⟨s', .release, ()⟩ :: after ∧ ⟨s, .claim, true⟩ ∈ before ∧
      ∀ d ∈ after, ¬ d.request.OfClaim) := by
  have hoff {l : List (Deed A)} (hl : ∀ d ∈ l, ¬ d.request.OfClaim) : ⟨s, .claim, r⟩ ∉ l :=
    fun hc => hl _ hc trivial
  cases h with
  | refused s₀ => simp at hc
  | aside s₀ ht => simp [hoff ht] at hc
  | beaten s₀ s₁ s₂ s₃ s₄ a r' =>
    obtain ⟨rfl, rfl⟩ : s = s₄ ∧ r = false := by simpa using hc
    exact .inl ⟨rfl, rfl, s₀, s₁, s₂, s₃, a, r', rfl⟩
  | @carried s₀ s₁ s₂ s₃ s₄ job before during after _ hb hd ha =>
    obtain ⟨rfl, rfl⟩ : s = s₁ ∧ r = true := by simpa [hoff hb, hoff hd, hoff ha] using hc
    refine .inr ⟨rfl, ⟨s₀, .inProgress, false⟩ :: before ++ ⟨s, .claim, true⟩ :: ⟨s₂, .takeUp job, ()⟩ ::
      during ++ [⟨s₃, .putDown, ()⟩], s₄, after, by simp, by simp, ha⟩

end Activity

/-! ## One job at a time -/

/-- The engine, the record, the slots and what the service has been told are the same. -/
structure World.Spares (w w' : World A) : Prop where
  engine : w'.engine = w.engine
  store : w'.device.store = w.device.store
  slots : w'.device.slots = w.device.slots
  posts : w'.device.network.posts = w.device.network.posts

theorem World.spares_get (w : World A) (s : Saying) (path : String) :
    w.Spares (w.undergo s (.get path)).2 := by
  refine ⟨rfl, rfl, rfl, ?_⟩
  change (w.device.network.get path).2.posts = _
  unfold Network.get
  dsimp only
  split <;> rfl

theorem World.undergo_claim {w : World A} (h : w.engine.inProgress = true) (s : Saying) :
    w.undergo s .claim = (false, w) := by
  change w.claim = _
  unfold claim
  rw [if_pos h]

/-- A fetch that finds the flag set when it is called does nothing else. One that finds it set when it
has its job leaves everything to the other. One that sets it clears it, however it ends. -/
structure Excludes (t : List (Deed A)) (o : Option (Except UpdateError FetchOutcome)) : Prop where
  refused : ∀ s r rest, t = ⟨s, .inProgress, r⟩ :: rest → s.status.inProgress = true →
    rest = [] ∧ o = some (.error World.busy) ∧ ∀ saying, (s.undergo saying .inProgress).2 = s
  beaten : ∀ s r, ⟨s, .claim, r⟩ ∈ t → s.status.inProgress = true → o = some (.error World.busy) ∧
    (∃ version, t.map (·.request) = [.inProgress, .admission, .note .fetching,
      .get (Activity.fetchPath version), .claim]) ∧
    ∀ d ∈ t, ∀ saying, d.found.Spares (d.found.undergo saying d.request).2
  released : ∀ s r, ⟨s, .claim, r⟩ ∈ t → s.status.inProgress = false →
    ∃ before s' after, t = before ++ ⟨s', .release, ()⟩ :: after ∧ ⟨s, .claim, r⟩ ∈ before ∧
      s'.release.status.inProgress = false ∧ s'.release.engine.live = none ∧
      ∀ d ∈ after, ¬ d.request.OfClaim

theorem Activity.FetchEnds.excludes {t : List (Deed A)} {o : Option (Except UpdateError FetchOutcome)}
    (h : FetchEnds t o) (hg : ∀ d ∈ t, ∃ saying, d.reply = (d.found.undergo saying d.request).1)
    (hl : ∀ s, ⟨s, .release, ()⟩ ∈ t → s.engine.live = none) : Excludes t o := by
  have hclaim {s : World A} {r : Bool} (hc : ⟨s, .claim, r⟩ ∈ t) : r = !s.engine.inProgress := by
    obtain ⟨saying, hr⟩ := hg _ hc
    refine hr.trans ?_
    change s.claim.1 = _
    unfold World.claim
    cases s.engine.inProgress <;> rfl
  constructor
  · rintro s r rest rfl hflag
    obtain ⟨saying, hr⟩ := hg _ List.mem_cons_self
    have hr : r = true := hr.trans hflag
    subst hr
    cases h with
    | refused => exact ⟨rfl, rfl, fun _ => rfl⟩
  · intro s r hc hflag
    have hr : r = false := by
      rw [hclaim hc]
      exact congrArg not hflag
    rcases h.claims hc with ⟨-, ho, s₀, s₁, s₂, s₃, a, r', rfl⟩ | ⟨ht, -⟩
    · refine ⟨ho, ⟨a.version, rfl⟩, fun d hd saying => ?_⟩
      simp only [List.mem_cons, List.not_mem_nil, or_false] at hd
      rcases hd with rfl | rfl | rfl | rfl | rfl
      · exact ⟨rfl, rfl, rfl, rfl⟩
      · exact ⟨rfl, rfl, rfl, rfl⟩
      · exact ⟨rfl, rfl, rfl, rfl⟩
      · exact s₃.spares_get saying _
      · dsimp only
        rw [World.undergo_claim hflag]
        exact ⟨rfl, rfl, rfl, rfl⟩
    · exact absurd (hr.symm.trans ht) nofun
  · intro s r hc hflag
    have hr : r = true := by
      rw [hclaim hc]
      exact congrArg not hflag
    rcases h.claims hc with ⟨hf, -⟩ | ⟨-, before, s', after, rfl, hb, ha⟩
    · exact absurd (hr.symm.trans hf) nofun
    · exact ⟨before, s', after, rfl, hr ▸ hb, rfl, hl s' (by simp), ha⟩

namespace Boot

theorem idle_of_ended {device : Device} {version : String} {ms : List (Move A)}
    (h : ∀ task ∈ ((start A device version).run ms).tasks, task.next? = none) :
    ((start A device version).run ms).world.engine.inProgress = false := by
  obtain ⟨hclaimed, -⟩ := claimed_run device version ms
  have hguarded := guarded_run device version ms
  rw [Bool.eq_false_iff]
  intro hflag
  obtain ⟨i, hi⟩ := hclaimed.flag.mp hflag
  -- who holds the engine has done something, so it is one of the tasks
  obtain ⟨d, past, hp⟩ : ∃ d past, deedsBy i ((start A device version).run ms).history = d :: past := by
    apply List.exists_cons_of_ne_nil
    intro hnil
    rw [hnil] at hi
    cases hi
  have hlt := hguarded.begun i d (mem_deedsBy.mp (hp ▸ List.mem_cons_self))
  have htask := hguarded.tasks i _ (List.getElem?_eq_getElem hlt)
  rcases htask.next with ⟨-, hfree⟩ | ⟨e, he, -⟩
  · exact absurd (hi.symm.trans hfree.1) nofun
  · exact absurd (he.symm.trans (h _ (List.getElem_mem hlt))) nofun

/-- At any time at most one task is between its claim and its release, and the flag is set exactly while
one is. There is a live job only while the flag is set, and it is the one that was taken up until it is
put down. Fetches exclude one another, each that claims the engine releases it, and when all tasks have
ended the engine is idle. -/
theorem one_job_at_a_time (device : Device) (version : String) (ms : List (Move A)) :
    (∀ i j, holds (deedsBy i ((start A device version).run ms).history) = true →
      holds (deedsBy j ((start A device version).run ms).history) = true → i = j) ∧
    (((start A device version).run ms).world.status.inProgress = true ↔
      ∃ i, holds (deedsBy i ((start A device version).run ms).history) = true) ∧
    (((start A device version).run ms).world.status.inProgress = false →
      ((start A device version).run ms).world.engine.live = none) ∧
    (∀ later i s job earlier,
      ((start A device version).run ms).history = later ++ .did i ⟨s, .takeUp job, ()⟩ :: earlier →
      (∀ d ∈ deedsBy i later, d.request ≠ .putDown) →
      ((start A device version).run ms).world.engine.live = some job) ∧
    (∀ i t o, Ran Activity.fetch t o →
      t <:+: (deedsBy i ((start A device version).run ms).history).reverse → Excludes t o) ∧
    ((∀ task ∈ ((start A device version).run ms).tasks, task.next? = none) →
      ((start A device version).run ms).world.status.inProgress = false) := by
  obtain ⟨hclaimed, hfound⟩ := claimed_run device version ms
  have hguarded := (guarded_run device version ms).history
  have hgenuine := (genuine_run device version ms).2
  refine ⟨hclaimed.unique, hclaimed.flag, hclaimed.idle, ?_, ?_, idle_of_ended⟩
  · intro later i s job earlier h hp
    rw [h] at hguarded
    obtain ⟨hholds, hhand⟩ := carrying_since hguarded hp
    rw [← h] at hholds hhand
    exact (hclaimed.job i hholds).trans hhand
  · intro i t o hran ht
    have hdid {d : Deed A} (hd : d ∈ t) : .did i d ∈ ((start A device version).run ms).history :=
      mem_deedsBy.mp (List.mem_reverse.mp (ht.subset hd))
    refine (Activity.fetchEnds hran).excludes ?_ ?_
    · intro d hd
      obtain ⟨later, earlier, h⟩ := List.append_of_mem (hdid hd)
      rw [h] at hgenuine
      exact hgenuine.split.2
    · intro s hs
      obtain ⟨later, earlier, h⟩ := List.append_of_mem (hdid hs)
      rw [h] at hguarded hfound
      -- what is released has been put down
      obtain ⟨hholds, hhand⟩ := hguarded.split i _ rfl
      exact (hfound.split.job i hholds).trans hhand

def asking : List (Move Agent.application) :=
  enabling ++ [.disturb ⟨[.answer offeredJob, .answer offeredJob], [], [("u", .plain [1, 2, 3, 4])], .none,
    false, false, false⟩, .call .fetch] ++ List.replicate 4 (.go 1 obliging)

/-- A second fetch comes first, and only when it has ended the first one takes its job up. -/
def overlapping : List (Move Agent.application) :=
  asking ++ .call .fetch :: List.replicate 40 (.go 2 obliging) ++ List.replicate 2 (.go 1 obliging)

def takesUp : Happening A → Bool
  | .did i ⟨_, .takeUp _, _⟩ => i == 1
  | _ => false

def claims : Deed A → Bool
  | ⟨_, .claim, r⟩ => r
  | _ => false

theorem one_job_at_a_time_overlapping :
    (∃ s job earlier, ((start Agent.application (.fresh .valid) "1.0.0").run overlapping).history =
        .did 1 ⟨s, .takeUp job, ()⟩ :: earlier ∧
      ((start Agent.application (.fresh .valid) "1.0.0").run overlapping).world.engine.live = some job) ∧
    (∃ t o, Ran Activity.fetch t o ∧
      t <:+: (deedsBy 2
        ((start Agent.application (.fresh .valid) "1.0.0").run overlapping).history).reverse ∧
      t.any claims = true ∧ Excludes t o) ∧
    (∀ task ∈ ((start Agent.application (.fresh .valid) "1.0.0").run enabling).tasks, task.next? = none) ∧
      ((start Agent.application (.fresh .valid) "1.0.0").run enabling).world.status.inProgress = false := by
  obtain ⟨-, -, -, hlive, hexcludes, -⟩ :=
    one_job_at_a_time (A := Agent.application) (.fresh .valid) "1.0.0" overlapping
  refine ⟨?_, ?_, ?_⟩
  · have hhead : ((start Agent.application (.fresh .valid) "1.0.0").run overlapping).history.head?.any
        takesUp = true := by decide +kernel
    generalize ((start Agent.application (.fresh .valid) "1.0.0").run overlapping).history = history
      at hhead hlive
    cases history with
    | nil => cases hhead
    | cons x earlier =>
      change takesUp x = true at hhead
      unfold takesUp at hhead
      split at hhead
      · rename_i i s job r
        obtain rfl : i = 1 := eq_of_beq hhead
        exact ⟨s, job, earlier, rfl, hlive [] 1 s job earlier rfl fun _ hd => nomatch hd⟩
      · cases hhead
  · have htasks : ((start Agent.application (.fresh .valid) "1.0.0").run asking).tasks.length = 2 := by
      decide +kernel
    have hturns : (Activity.fetch.trace (undergoing obliging)
        ((start Agent.application (.fresh .valid) "1.0.0").run asking).world).length ≤ 40 := by decide +kernel
    have hinfix := infix_fetch ((start Agent.application (.fresh .valid) "1.0.0").run asking) obliging hturns
      (List.replicate 2 (.go 1 obliging))
    rw [htasks, ← run_append] at hinfix
    have hran := ran_trace (undergoing obliging) Activity.fetch
      ((start Agent.application (.fresh .valid) "1.0.0").run asking).world
    exact ⟨_, _, hran, hinfix, by decide +kernel, hexcludes 2 _ _ hran hinfix⟩
  · have hended : ((start Agent.application (.fresh .valid) "1.0.0").run enabling).tasks.all
        (·.next?.isNone) = true := by decide +kernel
    have hended : ∀ task ∈ ((start Agent.application (.fresh .valid) "1.0.0").run enabling).tasks,
        task.next? = none := fun task ht => Option.isNone_iff_eq_none.mp (List.all_eq_true.mp hended task ht)
    exact ⟨hended, (one_job_at_a_time (.fresh .valid) "1.0.0" enabling).2.2.2.2.2 hended⟩

end Boot

end FirmwareUpdate
