import FirmwareUpdate.Proofs.Interleaving

/-!
# Repertoires

The effects that each activity can come to at all, whatever it is answered. What an activity does not
have in its repertoire it leaves alone.
-/

namespace FirmwareUpdate

open Routine

variable {A : Application}

namespace Effect

def OfDownload : Effect A → Prop
  | .openImage _ | .openUpdate | .stage _ | .note _ => True
  | _ => False

def OfApply : Effect A → Prop
  | .startApplyTask _ | .openImage _ | .openUpdate | .stage _ | .decide .. | .saveJobId _ | .post .. | .note _ => True
  | _ => False

def OfConclude : Effect A → Prop
  | .restart | .note _ => True
  | _ => False

def OfConfirm : Effect A → Prop
  | .loadJobId | .settleTrial | .eraseJobId | .confirmCancelled | .post .. | .note _ => True
  | _ => False

def OfTrial : Effect A → Prop
  | .diagnose _ | .markInvalid | .startConfirmation _ | .validationState | .loadJobId | .settleTrial
  | .eraseJobId | .note _ => True
  | _ => False

def OfEnable : Effect A → Prop
  | .install .. | .beginValidation _ | .diagnose _ | .markInvalid | .startConfirmation _ | .validationState
  | .loadJobId | .settleTrial | .eraseJobId | .post .. | .note _ => True
  | _ => False

theorem OfDownload.apply {e : Effect A} (h : e.OfDownload) : e.OfApply := by
  cases e <;> trivial

theorem OfTrial.enable {e : Effect A} (h : e.OfTrial) : e.OfEnable := by
  cases e <;> trivial

end Effect

namespace Activity

variable {α : Type} {P : Effect A → Prop}

theorem only_perform {e : Effect A} (h : P e) : (perform e).Only P := .request h

theorem only_note {e : Event} (h : P (.note e)) : (note e : Activity A _).Only P := .request h

theorem only_post {path : String} {body : Bytes} (h : P (.post path body)) :
    (post path body : Activity A _).Only P :=
  (only_perform h).bind fun r => by cases r <;> trivial

/-! ## Reporting -/

section
variable {id info : String} {status : JobStatus} (hp : P (.post Report.path (Report.body id status info)))
  (hn : ∀ e, P (.note e))
include hp hn

theorem only_reportFor : (reportFor id status info : Activity A _).Only P := by
  apply (only_post hp).bind
  intro r
  split
  · trivial
  · split
    · exact (only_note (hn _)).bind fun _ => trivial
    · trivial

theorem only_reportLogged : (reportLogged id status info : Activity A _).Only P := by
  apply (only_reportFor hp hn).bind
  intro r
  split
  · trivial
  · exact only_note (hn _)

end

/-! ## Applying -/

theorem only_noteProgress (told : List Progress) :
    (noteProgress told : Activity A _).Only Effect.OfDownload := by
  induction told with
  | nil => trivial
  | cons p rest ih => exact (only_note (by trivial)).bind fun _ => ih

theorem only_downloadAndFlash (job : Job) (chunkSize : Nat) :
    (downloadAndFlash job chunkSize : Activity A _).Only Effect.OfDownload := by
  apply (only_perform (by trivial)).bind
  intro r
  split
  · trivial
  · dsimp only
    split
    · trivial
    · apply (only_perform (by trivial)).bind
      intro r
      split
      · trivial
      · apply (only_noteProgress _).bind
        intro _
        split
        · trivial
        · exact (only_perform (by trivial)).bind fun _ => trivial

theorem only_flashImage {job : Job} (hd : ∀ e : Effect A, e.OfDownload → P e)
    (hp : ∀ info, P (.post Report.path (Report.body job.id .inProgress info))) (chunkSize : Nat) :
    (flashImage job chunkSize : Activity A _).Only P := by
  have hn (e : Event) : P (.note e) := hd _ trivial
  have hprogress (info : String) : (reportProgress job info : Activity A _).Only P :=
    only_reportLogged (hp info) hn
  apply (only_note (hn _)).bind
  intro _
  apply (hprogress _).bind
  intro _
  apply ((only_downloadAndFlash job chunkSize).mono hd).bind
  intro r
  split
  · exact (only_note (hn _)).bind fun _ => (hprogress _).bind fun _ => trivial
  · exact (only_note (hn _)).bind fun _ => trivial

theorem only_settle (handler : Option A.Handler) (job : Job) (chunkSize : Nat) :
    (settle handler job chunkSize).Only Effect.OfApply := by
  have hdecide : (Activity.decide handler job chunkSize).Only Effect.OfApply := by
    unfold Activity.decide
    split
    · exact only_flashImage (fun _ => Effect.OfDownload.apply) (fun _ => trivial) chunkSize
    · apply (only_perform (by trivial)).bind
      intro r
      cases r <;> trivial
  apply hdecide.bind
  intro outcome
  have hpersist : (persist job outcome : Activity A _).Only Effect.OfApply := by
    unfold persist
    split
    · apply (only_perform (by trivial)).bind
      intro r
      split
      · trivial
      · exact (only_note (by trivial)).bind fun _ => trivial
    · trivial
  apply hpersist.bind
  intro outcome
  have hreport : (reportOutcome job outcome : Activity A _).Only Effect.OfApply := by
    cases outcome with
    | applied => trivial
    | deferred | rejected => exact only_reportLogged trivial fun _ => trivial
  exact hreport.bind fun _ => trivial

theorem only_carryOut (a : Admission A) (job : Job) : (carryOut a job).Only Effect.OfApply := by
  apply (only_note (by trivial)).bind
  intro _
  apply (only_reportLogged (by trivial) fun _ => trivial).bind
  intro _
  apply (only_perform (e := .startApplyTask _) (by trivial)).bind
  intro r
  split
  · trivial
  · apply (only_settle a.handler job _).attempt.bind
    intro r
    cases r <;> trivial

theorem only_conclude (config : Config) (id : String) (outcome : ApplyOutcome) :
    (conclude config id outcome : Activity A _).Only Effect.OfConclude := by
  cases outcome with
  | deferred reason | rejected reason => exact (only_note (by trivial)).bind fun _ => trivial
  | applied =>
    apply (only_note (by trivial)).bind
    intro _
    split
    · exact (only_note (by trivial)).bind fun _ => (only_perform (by trivial)).bind fun _ => trivial
    · trivial

/-! ## Confirming -/

section
variable (hl : P .loadJobId) (hs : P .settleTrial) (he : P .eraseJobId)
  (hp : ∀ path body, P (.post path body)) (hn : ∀ e, P (.note e))

include he hn in
theorem only_forgetJobId : (forgetJobId : Activity A _).Only P := by
  apply (only_perform he).bind
  intro r
  split
  · trivial
  · exact only_note (hn _)

include hs he hn in
theorem only_concludeTrial : (concludeTrial : Activity A _).Only P := by
  apply (only_perform hs).bind
  intro r
  split
  · exact (only_forgetJobId he hn).bind fun _ => only_note (hn _)
  · trivial

include hl he hp hn in
theorem only_reconcile : (reconcile : Activity A _).Only P := by
  apply (only_perform hl).bind
  intro r
  split
  · exact only_note (hn _)
  · trivial
  · apply (only_note (hn _)).bind
    intro _
    apply (only_forgetJobId he hn).bind
    intro _
    exact only_reportLogged (hp _ _) hn

include hl hp hn in
theorem only_reportSuccess (attempt interval : Nat) :
    (reportSuccess attempt interval : Activity A _).Only P := by
  have hreport : (reportPersisted .success confirmationInfo : Activity A _).Only P := by
    apply (only_perform hl).bind
    intro r
    split
    · trivial
    · trivial
    · exact only_reportFor (hp _ _) hn
  apply hreport.bind
  intro r
  split <;> exact (only_note (hn _)).bind fun _ => trivial

end

theorem only_confirmAttempt (attempt interval : Nat) :
    (confirmAttempt attempt interval : Activity A _).Only Effect.OfConfirm := by
  have hreport : (reportSuccess attempt interval : Activity A _).Only Effect.OfConfirm :=
    only_reportSuccess trivial (fun _ _ => trivial) (fun _ => trivial) attempt interval
  apply hreport.bind
  intro acknowledged
  split
  · exact (only_concludeTrial trivial trivial fun _ => trivial).bind fun _ => trivial
  · apply (only_perform (e := .confirmCancelled) trivial).bind
    intro r
    split <;> trivial

/-! ## Enabling -/

theorem only_confirmTrial (interval : Nat) :
    (confirmTrial interval : Activity A _).Only Effect.OfTrial := by
  have hstate : (do return .ok (← perform .validationState) :
      Activity A (Except UpdateError ValidationState)).Only Effect.OfTrial :=
    (only_perform (by trivial)).bind fun _ => trivial
  have hstart : (perform (.startConfirmation interval) : Activity A _).Only Effect.OfTrial :=
    only_perform trivial
  apply (only_perform (e := .loadJobId) trivial).bind
  intro r
  split
  · apply (only_note (by trivial)).bind
    intro _
    exact (only_concludeTrial trivial trivial fun _ => trivial).bind fun _ => hstate
  · exact hstart.bind fun _ => hstate
  · exact (only_note (by trivial)).bind fun _ => hstart.bind fun _ => hstate

theorem only_testTrial (test : Option A.SelfTest) (interval : Nat) :
    (testTrial test interval).Only Effect.OfTrial := by
  unfold testTrial
  split
  · exact only_confirmTrial interval
  · apply (only_perform (by trivial)).bind
    intro r
    split
    · trivial
    · exact (only_note (by trivial)).bind fun _ => only_confirmTrial interval
    · apply (only_note (by trivial)).bind
      intro _
      apply (only_perform (e := .markInvalid) trivial).bind
      intro r
      split <;> trivial

theorem only_validate (test : Option A.SelfTest) (config : Config) :
    (validate test config).Only Effect.OfEnable := by
  apply (only_perform (by trivial)).bind
  intro r
  split
  · trivial
  · trivial
  · exact ((only_testTrial test _).mono fun _ => Effect.OfTrial.enable).bind fun _ => trivial
  · have hreconcile : (reconcile : Activity A _).Only Effect.OfEnable :=
      only_reconcile trivial trivial (fun _ _ => trivial) fun _ => trivial
    exact hreconcile.bind fun _ => trivial
  · trivial

theorem only_enable (config : Config) (handler : Option A.Handler) (test : Option A.SelfTest) :
    (enable config handler test).Only Effect.OfEnable := by
  apply (only_perform (by trivial)).bind
  intro r
  split
  · trivial
  · apply (only_validate test config).bind
    intro r
    split
    · trivial
    · exact (only_note (by trivial)).bind fun _ => trivial
    · exact (only_note (by trivial)).bind fun _ => trivial

end Activity

end FirmwareUpdate
