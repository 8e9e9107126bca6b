import FirmwareUpdate.Proofs.Commits
import FirmwareUpdate.Proofs.Repertoires

/-!
# What reports are answered

The reports on the way of a job are sent and forgotten. Two fetches that differ in nothing but what their
reports are answered do the same, and leave the same behind but for the lines about reports.
-/

namespace FirmwareUpdate

open Routine Activity

variable {A : Application} {α β : Type}

def Event.tellsReport : Event → Bool
  | .reported .. | .reportFailed .. => true
  | _ => false

namespace World

/-- The world without the answers to its reports: those to come, and the lines about those there were. -/
def deaf (w : World A) : World A :=
  { w with device := { w.device with
      network := { w.device.network with postReplies := [] }
      journal := w.device.journal.filter (!·.tellsReport) } }

def withReplies (w : World A) (rs : List Reply) : World A :=
  { w with device := { w.device with network := { w.device.network with postReplies := rs } } }

def posted (w : World A) (p : Post) : World A :=
  { w with device := { w.device with
      network := { w.device.network with posts := w.device.network.posts ++ [p] } } }

theorem deaf_note_of_tells (w : World A) {e : Event} (h : e.tellsReport = true) : (w.note e).deaf = w.deaf := by
  simp [deaf, note, Device.note, h]

end World

/-! ## Effects -/

def Effect.Aloof : Effect A → Prop
  | .get _ | .openImage _ | .saveJobId _ | .openUpdate | .stage _ | .restart | .startApplyTask _ | .note _
  | .inProgress | .admission | .claim | .takeUp _ | .putDown | .release => True
  | _ => False

theorem World.perform_deaf (b : Behaviour A) (w : World A) {e : Effect A} (h : e.Aloof) :
    (w.perform b e).1 = (w.deaf.perform b e).1 ∧ (w.perform b e).2.deaf = (w.deaf.perform b e).2.deaf := by
  cases e with
  | get path => cases hg : w.device.network.gets <;> simp [perform, Device.get, Network.get, deaf, hg]
  | saveJobId id =>
    cases hs : w.device.store.write .jobId (Bytes.ofText id) with
    | mk r store => cases r <;> simp [perform, Device.saveJobId, deaf, Device.note, hs]
  | claim => cases hc : w.engine.inProgress <;> simp [perform, claim, deaf, hc]
  | note e => exact ⟨rfl, by simp [perform, deaf, note, Device.note]⟩
  | restart => exact ⟨rfl, by simp [perform, deaf, Device.restart, Device.note]⟩
  | openImage | openUpdate | stage | startApplyTask | inProgress | admission | takeUp | putDown | release =>
    exact ⟨rfl, by simp [perform, deaf, Device.stage, takeUp, putDown, release]⟩
  | _ => exact h.elim

/-! ## Routines -/

/-- From either world the routine comes to the same result, and leaves the same behind. -/
def Alike (b : Behaviour A) (p : Activity A α) (w w' : World A) : Prop :=
  (p.run b w).1 = (p.run b w').1 ∧ (p.run b w).2.deaf = (p.run b w').2.deaf

/-- What its reports are answered makes no difference to the routine. -/
def Deaf (b : Behaviour A) (p : Activity A α) : Prop := ∀ w w', w.deaf = w'.deaf → Alike b p w w'

variable {b : Behaviour A} {p : Activity A α} {w w' : World A}

theorem Alike.of_does {t t' : List (Deed A)} {o : Option α} {w₁ w₁' : World A}
    (h : Does (World.perform b) p w t o w₁) (h' : Does (World.perform b) p w' t' o w₁')
    (hw : w₁.deaf = w₁'.deaf) : Alike b p w w' := by
  unfold Alike Activity.run
  rw [h.run_eq, h'.run_eq]
  exact ⟨rfl, hw⟩

theorem Alike.does (h : Alike b p w w') : ∃ t t' o w₁ w₁', Does (World.perform b) p w t o w₁ ∧
    Does (World.perform b) p w' t' o w₁' ∧ w₁.deaf = w₁'.deaf := by
  have hw' : Does (World.perform b) p w' _ (Activity.run b p w').1 _ := Routine.does p w'
  rw [← h.1] at hw'
  exact ⟨_, _, _, _, _, Routine.does p w, hw', h.2⟩

theorem Alike.bind {f : α → Activity A β} (h : Alike b p w w') (hf : ∀ a, Deaf b (f a)) :
    Alike b (p >>= f) w w' := by
  obtain ⟨t, t', o, w₁, w₁', hp, hp', hw⟩ := h.does
  cases o with
  | none => exact .of_does hp.bind_died hp'.bind_died hw
  | some a =>
    obtain ⟨u, u', o, w₂, w₂', hq, hq', hw⟩ := (hf a w₁ w₁' hw).does
    exact .of_does (hp.bind hq) (hp'.bind hq') hw

theorem Alike.attempt (h : Alike b p w w') : Alike b p.attempt w w' := by
  obtain ⟨t, t', o, w₁, w₁', hp, hp', hw⟩ := h.does
  exact .of_does hp.attempt hp'.attempt hw

namespace Deaf

theorem done (a : α) : Deaf b (.done a) := fun _ _ h => ⟨rfl, h⟩

theorem died : Deaf b (.died : Activity A α) := fun _ _ h => ⟨rfl, h⟩

theorem bind {f : α → Activity A β} (h : Deaf b p) (hf : ∀ a, Deaf b (f a)) : Deaf b (p >>= f) :=
  fun w w' hw => (h w w' hw).bind hf

theorem attempt (h : Deaf b p) : Deaf b p.attempt := fun w w' hw => (h w w' hw).attempt

theorem ensuring {after : Activity A Unit} (h : Deaf b p) (ha : Deaf b after) : Deaf b (p.ensuring after) := by
  apply h.attempt.bind
  intro o
  cases o with
  | none => exact ha.bind fun _ => died
  | some a => exact ha.bind fun _ => done a

theorem perform {e : Effect A} (h : e.Aloof) : Deaf b (Activity.perform e) := by
  intro w w' hw
  obtain ⟨hr, hd⟩ := w.perform_deaf b h
  obtain ⟨hr', hd'⟩ := w'.perform_deaf b h
  rw [← hw] at hr' hd'
  exact ⟨congrArg some (hr.trans hr'.symm), hd.trans hd'.symm⟩

theorem of_only (h : p.Only Effect.Aloof) : Deaf b p := by
  induction p with
  | done a => exact done a
  | died => exact died
  | step e next ih => exact (perform h.1).bind fun r => ih r (h.2 r)

end Deaf

/-! ## Reports -/

theorem World.deaf_post (w : World A) (path : String) (body : Bytes) :
    ({ w with device := (w.device.post path body).2 } : World A).deaf = w.deaf.posted ⟨path, body⟩ := by
  cases hp : w.device.network.postReplies <;> simp [Device.post, Network.post, deaf, posted, hp]

/-- Whatever it is answered, the report is sent, and a line about it is all that comes of the answer. -/
theorem run_reportLogged (b : Behaviour A) (w : World A) (id : String) (status : JobStatus) (info : String) :
    ((reportLogged id status info).run b w).1 = some () ∧
      ((reportLogged id status info).run b w).2.deaf =
        w.deaf.posted ⟨Report.path, Report.body id status info⟩ := by
  have hpost := w.deaf_post Report.path (Report.body id status info)
  simp only [Activity.run, reportLogged, reportFor, post, Activity.perform, Routine.request_bind,
    Routine.step_bind, Routine.run, World.perform]
  cases hp : w.device.post Report.path (Report.body id status info) with
  | mk r d =>
    rw [hp] at hpost
    cases r with
    | error c => exact ⟨rfl, (World.deaf_note_of_tells _ rfl).trans hpost⟩
    | ok response =>
      cases hok : response.ok with
      | false =>
        simp only [Routine.pure_eq, Routine.done_bind, hok, Bool.false_eq_true, if_false]
        exact ⟨rfl, (World.deaf_note_of_tells _ rfl).trans hpost⟩
      | true =>
        simp only [Routine.pure_eq, Routine.done_bind, hok, if_true]
        exact ⟨rfl, (World.deaf_note_of_tells _ rfl).trans hpost⟩

section
variable {b : Behaviour A}

theorem deaf_reportLogged (id : String) (status : JobStatus) (info : String) :
    Deaf b (reportLogged id status info) := by
  intro w w' hw
  obtain ⟨ho, hd⟩ := run_reportLogged b w id status info
  obtain ⟨ho', hd'⟩ := run_reportLogged b w' id status info
  exact ⟨ho.trans ho'.symm, by rw [hd, hd', hw]⟩

/-! ## A fetch -/

theorem deaf_note (e : Event) : Deaf b (note e) := .perform trivial

theorem deaf_downloadAndFlash (job : Job) (chunkSize : Nat) : Deaf b (downloadAndFlash job chunkSize) := by
  refine .of_only ((only_downloadAndFlash job chunkSize).mono fun e he => ?_)
  cases e <;> first | exact he.elim | trivial

theorem deaf_flashImage (job : Job) (chunkSize : Nat) : Deaf b (flashImage job chunkSize) := by
  refine (deaf_note _).bind fun _ => (deaf_reportLogged _ _ _).bind fun _ => ?_
  refine (deaf_downloadAndFlash job chunkSize).bind fun r => ?_
  cases r with
  | ok summary => exact (deaf_note _).bind fun _ => (deaf_reportLogged _ _ _).bind fun _ => .done _
  | error c => exact (deaf_note _).bind fun _ => .done _

theorem deaf_persist (job : Job) (outcome : ApplyOutcome) : Deaf b (persist job outcome) := by
  cases outcome with
  | applied =>
    refine Deaf.bind (.perform trivial) fun r => ?_
    cases r with
    | ok => exact .done _
    | error c => exact (deaf_note _).bind fun _ => .done _
  | deferred | rejected => exact .done _

theorem deaf_reportOutcome (job : Job) (outcome : ApplyOutcome) : Deaf b (reportOutcome job outcome) := by
  cases outcome with
  | applied => exact .done _
  | deferred | rejected => exact deaf_reportLogged _ _ _

theorem deaf_settle (job : Job) (chunkSize : Nat) : Deaf b (settle none job chunkSize) := by
  refine (deaf_flashImage job chunkSize).bind fun _ => (deaf_persist job _).bind fun outcome => ?_
  exact (deaf_reportOutcome job outcome).bind fun _ => .done _

theorem deaf_applyJob (job : Job) (chunkSize stack : Nat) : Deaf b (applyJob none job chunkSize stack) := by
  refine Deaf.bind (.perform trivial) fun started => ?_
  cases started with
  | error c => exact .done _
  | ok =>
    refine (deaf_settle job chunkSize).attempt.bind fun o => ?_
    cases o <;> exact .done _

theorem deaf_conclude (config : Config) (id : String) (outcome : ApplyOutcome) :
    Deaf b (conclude config id outcome) := by
  refine .of_only ((only_conclude config id outcome).mono fun e he => ?_)
  cases e <;> first | exact he.elim | trivial

theorem deaf_takeOn {a : Admission A} (ha : a.handler = none) (job : Job) : Deaf b (takeOn a job) := by
  have hhold : Deaf b (holdJob a job) := by
    refine Deaf.bind (.perform trivial) fun _ => (deaf_note _).bind fun _ => ?_
    refine (deaf_reportLogged _ _ _).bind fun _ => ?_
    rw [ha]
    exact deaf_applyJob job _ _
  have hletGo : Deaf b letGo := Deaf.bind (.perform trivial) fun _ => .perform trivial
  refine Deaf.bind (.perform trivial) fun claimed => ?_
  cases claimed with
  | false => exact .done _
  | true =>
    refine (hhold.ensuring hletGo).bind fun r => ?_
    cases r with
    | error e => exact .done _
    | ok outcome => exact (deaf_conclude _ _ outcome).bind fun _ => .done _

theorem deaf_receive {a : Admission A} (ha : a.handler = none) (response : Response) :
    Deaf b (receive a response) := by
  unfold receive rejectPayload
  split
  · split
    · exact (deaf_note _).bind fun _ => (deaf_reportLogged _ _ _).bind fun _ => .done _
    · exact .done _
  · exact (deaf_note _).bind fun _ => .done _
  · exact (deaf_note _).bind fun _ => .done _
  · exact (deaf_note _).bind fun _ => (deaf_reportLogged _ _ _).bind fun _ => .done _
  · exact deaf_takeOn ha _

theorem deaf_ask {a : Admission A} (ha : a.handler = none) : Deaf b (ask a) := by
  refine (deaf_note _).bind fun _ => Deaf.bind (Deaf.bind (.perform trivial) fun r => ?_) fun r => ?_
  · cases r with
    | none => exact .died
    | some result => exact .done _
  · cases r with
    | error c => exact .done _
    | ok response => exact deaf_receive ha response

theorem alike_fetch {w w' : World A} (h : w.Unattended) (hw : w.deaf = w'.deaf) : Alike b fetch w w' := by
  have hengine : w.engine = w'.engine := congrArg (·.engine) hw
  have hletIn : w'.letIn = w.letIn := by
    unfold World.letIn World.admission
    rw [hengine]
  have hcase := does_fetch_letIn b w
  have hcase' := does_fetch_letIn b w'
  rw [hletIn] at hcase'
  cases hin : w.letIn with
  | error e =>
    rw [hin] at hcase hcase'
    obtain ⟨t, hd, -⟩ := hcase
    obtain ⟨t', hd', -⟩ := hcase'
    exact .of_does hd hd' hw
  | ok a =>
    rw [hin] at hcase hcase'
    obtain ⟨t, -, hgo⟩ := hcase
    obtain ⟨t', -, hgo'⟩ := hcase'
    obtain ⟨u, u', o, w₁, w₁', hask, hask', hw₁⟩ := (deaf_ask (h.letIn hin).2.2 w w' hw).does
    exact .of_does (hgo u o w₁ hask) (hgo' u' o w₁' hask') hw₁

end

/-- Two fetches that differ in what their reports are answered return the same, send the same, and leave the
same engine and the same device behind. -/
theorem fetch_alike (b : Behaviour A) {w : World A} (h : w.Unattended) (rs rs' : List Reply) :
    ∃ r w₁ w₂, fetch.run b (w.withReplies rs) = (some r, w₁) ∧ fetch.run b (w.withReplies rs') = (some r, w₂) ∧
      w₁.device.network.posts = w₂.device.network.posts ∧ w₁.engine = w₂.engine ∧
      w₁.device.slots = w₂.device.slots ∧ w₁.device.store = w₂.device.store ∧ w₁.deaf = w₂.deaf := by
  have hun : (w.withReplies rs).Unattended := h
  have hw : (w.withReplies rs).deaf = (w.withReplies rs').deaf := rfl
  obtain ⟨ho, hw⟩ : Alike b fetch _ _ := alike_fetch hun hw
  obtain ⟨t, r, w₁, hdoes, -⟩ := does_fetch b _ hun
  have hrun : Activity.run b fetch (w.withReplies rs) = (some r, w₁) := hdoes.run_eq
  generalize hrun' : Activity.run b fetch (w.withReplies rs') = r' at ho hw
  rw [hrun] at ho hw
  refine ⟨r, w₁, r'.2, hrun, Prod.ext ho.symm rfl, ?_, congrArg (·.engine) hw, ?_, ?_, hw⟩
  · exact congrArg (·.device.network.posts) hw
  · exact congrArg (·.device.slots) hw
  · exact congrArg (·.device.store) hw

/-- The reports are lost and refused, or acknowledged: the job is applied. -/
theorem fetch_alike_applied : (offer false).Unattended ∧ ∃ w₁ w₂,
    fetch.run Agent.behaviour ((offer false).withReplies []) = (some (.ok (.applied "B")), w₁) ∧
    fetch.run Agent.behaviour ((offer false).withReplies [.lost "timeout", .answer ⟨500, []⟩]) =
      (some (.ok (.applied "B")), w₂) ∧
    w₁.device.network.posts = w₂.device.network.posts ∧ w₁.engine = w₂.engine ∧
    w₁.device.slots = w₂.device.slots ∧ w₁.device.store = w₂.device.store ∧ w₁.deaf = w₂.deaf := by
  have h := offer_unattended false
  obtain ⟨r, w₁, w₂, hrun, hrun', hleft⟩ := fetch_alike Agent.behaviour h [] [.lost "timeout", .answer ⟨500, []⟩]
  have hr : some r = some (.ok (.applied "B")) := by
    rw [← offer_applied]
    exact (congrArg Prod.fst hrun).symm
  cases hr
  exact ⟨h, w₁, w₂, hrun, hrun', hleft⟩

end FirmwareUpdate
