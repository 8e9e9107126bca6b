import FirmwareUpdate.Proofs.AutofetchTimers
import FirmwareUpdate.Proofs.IdTrips

/-!
# What a fetch comes to

On its way a task comes to one request after another, and what it comes to next tells what it has done before. Only
a fetch that has applied a job comes to a restart, once, and only if the configuration under which it was let in
says so.
-/

namespace FirmwareUpdate

open Routine

/-! ## On the way to a request -/

namespace Routine

variable {E : Type} {R : E → Type} {σ α β : Type}

/-- Having done the deeds, the oldest first, the routine comes to the request. -/
inductive Comes : Routine R α → List (Deed R σ) → E → Prop
  | next (e : E) (next : R e → Routine R α) : Comes (.step e next) [] e
  | step {e e' : E} {next : R e → Routine R α} {t : List (Deed R σ)} (s : σ) (r : R e) (h : Comes (next r) t e') :
      Comes (.step e next) (⟨s, e, r⟩ :: t) e'

namespace Comes

variable {p : Routine R α} {t : List (Deed R σ)} {e : E}

theorem only {P : E → Prop} (h : Comes p t e) (hp : p.Only P) : P e ∧ ∀ d ∈ t, P d.request := by
  induction h with
  | next e next => exact ⟨hp.1, nofun⟩
  | step s r _ ih =>
    obtain ⟨he, ht⟩ := ih (hp.2 r)
    exact ⟨he, List.forall_mem_cons.mpr ⟨hp.1, ht⟩⟩

theorem of_bind {f : α → Routine R β} (h : Comes (p >>= f) t e) : Comes p t e ∨
    ∃ a t₁ t₂, Ran p t₁ (some a) ∧ Comes (f a) t₂ e ∧ t = t₁ ++ t₂ := by
  induction p generalizing t with
  | done a => exact .inr ⟨a, [], t, .done a, h, rfl⟩
  | died => cases h
  | step e' next ih =>
    cases h with
    | next => exact .inl (.next _ _)
    | step s r h =>
      rcases ih r h with hin | ⟨a, t₁, t₂, hran, hcomes, rfl⟩
      · exact .inl (.step s r hin)
      · exact .inr ⟨a, _, t₂, .step s r hran, hcomes, rfl⟩

theorem of_bind_done {f : α → β} (h : Comes (p >>= fun a => .done (f a)) t e) : Comes p t e := by
  rcases h.of_bind with h | ⟨a, t₁, t₂, -, h, -⟩
  · exact h
  · cases h

theorem of_attempt (h : Comes p.attempt t e) : Comes p t e := by
  induction p generalizing t with
  | done a => cases h
  | died => cases h
  | step e' next ih =>
    cases h with
    | next => exact .next _ _
    | step s r h => exact .step s r (ih r h)

end Comes

theorem Ran.bind {p : Routine R α} {f : α → Routine R β} {a : α} {t u : List (Deed R σ)} {o : Option β}
    (hp : Ran p t (some a)) (hf : Ran (f a) u o) : Ran (p >>= f) (t ++ u) o := by
  generalize hend : some a = end' at hp
  induction hp with
  | done a' =>
    cases hend
    exact hf
  | died => cases hend
  | step s r _ ih => exact .step s r (ih hend)

theorem Ran.comes {p : Routine R α} {t u : List (Deed R σ)} {d : Deed R σ} {o : Option α}
    (h : Ran p (t ++ d :: u) o) : Comes p t d.request := by
  induction t generalizing p with
  | nil =>
    cases h
    exact .next _ _
  | cons d' t ih =>
    obtain _ | _ | ⟨s, r, h⟩ := h
    exact .step s r (ih h)

/-- A run has one end. -/
theorem Ran.eq_nil {p : Routine R α} {t u : List (Deed R σ)} {o o' : Option α} (h : Ran p t o)
    (h' : Ran p (t ++ u) o') : u = [] := by
  induction h with
  | done | died =>
    cases h'
    rfl
  | step s r _ ih =>
    obtain _ | _ | ⟨_, _, h'⟩ := h'
    exact ih h'

/-- What a routine does, it comes to. -/
theorem heeds_comes (p : Routine R α) (past : List (Deed R σ)) :
    p.Heeds (fun past' e => ∃ t, past' = t.reverse ++ past ∧ Comes p t e) (fun _ _ => True) past := by
  induction p generalizing past with
  | done a => trivial
  | died => trivial
  | step e next ih =>
    refine ⟨⟨[], rfl, .next e next⟩, fun s r => (ih r _).mono ?_ fun _ _ h => h⟩
    rintro past' e' ⟨t, rfl, h⟩
    exact ⟨⟨s, e, r⟩ :: t, by simp, .step s r h⟩

end Routine

variable {A : Application}

/-! ## What a fetch comes to -/

def Effect.OfAsking : Effect A → Prop
  | .inProgress | .admission | .get _ | .post .. | .claim | .note _ => True
  | _ => False

def Unsaved (t : List (Deed A)) : Prop := ∀ s id, (⟨s, .saveJobId id, .ok ()⟩ : Deed A) ∉ t

theorem unsaved_nil : Unsaved ([] : List (Deed A)) := fun _ _ h => nomatch h

theorem Unsaved.append {t u : List (Deed A)} (ht : Unsaved t) (hu : Unsaved u) : Unsaved (t ++ u) := by
  intro s id h
  rcases List.mem_append.mp h with h | h
  · exact ht s id h
  · exact hu s id h

theorem unsaved_of_requests {t : List (Deed A)} (h : ∀ d ∈ t, ∀ id, d.request ≠ .saveJobId id) : Unsaved t :=
  fun _ id hd => h _ hd id rfl

namespace Activity

variable {a : Admission A} {job : Job} {handler : Option A.Handler} {chunkSize : Nat} {t : List (Deed A)}
  {e : Effect A}

theorem comes_holdJob (h : Comes ((holdJob a job).ensuring letGo) t e) :
    e.OfClaim ∨ ∃ s t', t = ⟨s, .takeUp job, ()⟩ :: t' ∧ Comes (carryOut a job) t' e := by
  have hgo : (letGo : Activity A Unit).Only Effect.OfClaim :=
    (only_perform trivial).bind fun _ => only_perform trivial
  rcases h.of_bind with h | ⟨o, t₁, t₂, -, h, -⟩
  · obtain _ | ⟨s, _, h⟩ := h.of_attempt
    · exact .inl trivial
    · exact .inr ⟨s, _, rfl, h⟩
  · left
    cases o with
    | none => exact (h.only (hgo.bind fun _ => trivial)).1
    | some r => exact (h.only (hgo.bind fun _ => trivial)).1

theorem comes_takeOn (h : Comes (takeOn a job) t e) : (t = [] ∧ e = .claim) ∨
    ∃ s t', t = ⟨s, .claim, true⟩ :: t' ∧ (Comes ((holdJob a job).ensuring letGo) t' e ∨
      ∃ outcome t₁ t₂, Ran ((holdJob a job).ensuring letGo) t₁ (some (.ok outcome)) ∧
        Comes (conclude a.config job.id outcome) t₂ e ∧ t' = t₁ ++ t₂) := by
  obtain _ | ⟨s, r, h⟩ := h
  · exact .inl ⟨rfl, rfl⟩
  · cases r with
    | false => cases h
    | true =>
      refine .inr ⟨s, _, rfl, ?_⟩
      rcases Comes.of_bind (p := (holdJob a job).ensuring letGo) h with h | ⟨r, t₁, t₂, hran, h, rfl⟩
      · exact .inl h
      · cases r with
        | error => cases h
        | ok outcome => exact .inr ⟨outcome, t₁, t₂, hran, h.of_bind_done, rfl⟩

theorem only_decide_unsaving :
    (Activity.decide handler job chunkSize).Only fun e => ∀ id, e ≠ .saveJobId id := by
  unfold Activity.decide
  split
  · refine only_flashImage (fun e he id => ?_) (fun _ _ => nofun) chunkSize
    rintro rfl
    exact he
  · exact (only_perform nofun).bind fun r => by cases r <;> trivial

theorem unsaved_of_ran_persist {outcome final : ApplyOutcome}
    (h : Ran (persist job outcome : Activity A _) t (some final)) (hf : final ≠ .applied) : Unsaved t := by
  cases outcome with
  | deferred | rejected =>
    cases h
    exact unsaved_nil
  | applied =>
    obtain _ | _ | ⟨s, r, h⟩ := h
    match r, h with
    | .ok (), h =>
      cases h
      exact absurd rfl hf
    | .error c, h =>
      obtain _ | _ | ⟨s', _, h⟩ := h
      cases h
      simp [Unsaved]

/-- Once the id has been saved nothing is left to be carried out. -/
theorem unsaved_of_comes_settle (h : Comes (settle handler job chunkSize) t e) : Unsaved t := by
  rcases h.of_bind with h | ⟨outcome, t₁, t₂, hdecide, hrest, rfl⟩
  · exact unsaved_of_requests (h.only only_decide_unsaving).2
  · refine (unsaved_of_requests (hdecide.only only_decide_unsaving)).append ?_
    rcases hrest.of_bind with h | ⟨final, t₃, t₄, hpersist, hreport, rfl⟩
    · cases outcome with
      | deferred | rejected => cases h
      | applied =>
        obtain _ | ⟨s, r, h⟩ := h
        · exact unsaved_nil
        · match r, h with
          | .ok (), h => cases h
          | .error c, h =>
            obtain _ | ⟨s', _, h⟩ := h
            · simp [Unsaved]
            · cases h
    · have htold := hreport.of_bind_done
      cases final with
      | applied => cases htold
      | deferred | rejected =>
        refine (unsaved_of_ran_persist hpersist nofun).append (unsaved_of_requests ?_)
        exact (htold.only (only_reportLogged (P := fun e => ∀ id, e ≠ .saveJobId id) nofun fun _ => nofun)).2

theorem unsaved_of_comes_applyJob {stack : Nat} (h : Comes (applyJob handler job chunkSize stack) t e) :
    Unsaved t := by
  obtain _ | ⟨s, started, h⟩ := h
  · exact unsaved_nil
  · refine Unsaved.append (t := [_]) (by simp [Unsaved]) ?_
    cases started with
    | error c => cases h
    | ok =>
      rcases Comes.of_bind (p := (settle handler job chunkSize).attempt) h with h | ⟨o, t₁, t₂, -, h, -⟩
      · exact unsaved_of_comes_settle h.of_attempt
      · cases o <;> cases h

theorem unsaved_of_comes_carryOut (h : Comes (carryOut a job) t e) : Unsaved t := by
  obtain _ | ⟨s, _, h⟩ := h
  · exact unsaved_nil
  · refine Unsaved.append (t := [_]) (by simp [Unsaved]) ?_
    have htold : (reportLogged job.id .accepted "Job accepted" : Activity A _).Only
        fun e => ∀ id, e ≠ .saveJobId id := only_reportLogged nofun fun _ => nofun
    rcases Comes.of_bind (p := reportLogged job.id .accepted "Job accepted") h with
      h | ⟨_, t₁, t₂, hran, happly, rfl⟩
    · exact unsaved_of_requests (h.only htold).2
    · exact (unsaved_of_requests (hran.only htold)).append (unsaved_of_comes_applyJob happly)

/-- How far a fetch is when it comes to a request. It has asked for a job and reported, or it claims the engine
or lets it go, or it carries the job out and has not saved its id, or what it has done is a fetch but for the
conclusion. -/
inductive FetchComes : List (Deed A) → Effect A → Prop
  | asking {t : List (Deed A)} {e : Effect A} (ht : ∀ d ∈ t, d.request.OfAsking) (he : e.OfAsking) : FetchComes t e
  | claiming {t : List (Deed A)} {e : Effect A} (he : e.OfClaim) : FetchComes t e
  | carrying {before during : List (Deed A)} {e : Effect A} (s s' : World A) (job : Job) (hb : Unsaved before)
      (hd : Unsaved during) (hheld : ∀ d ∈ during, ¬ d.request.OfClaim) (he : e.OfApply) :
      FetchComes (before ++ ⟨s, .claim, true⟩ :: ⟨s', .takeUp job, ()⟩ :: during) e
  | concluding {before during : List (Deed A)} {e : Effect A} (s : World A) (a : Admission A) (job : Job)
      (outcome : ApplyOutcome) (hadmitted : ⟨s, .admission, .ok a⟩ ∈ before)
      (hrest : ∀ {u o}, Ran (conclude a.config job.id outcome) u (some o) →
        Ran fetch (before ++ u) (some (.ok o))) (h : Comes (conclude a.config job.id outcome) during e) :
      FetchComes (before ++ during) e

/-- A job is taken on after all that was asked before. -/
theorem FetchComes.of_takeOn {asked : List (Deed A)} {s : World A} (h : Comes (takeOn a job) t e)
    (hasked : Unsaved asked) (hadmitted : ⟨s, .admission, .ok a⟩ ∈ asked)
    (hfetch : ∀ {u o}, Ran (takeOn a job) u (some o) → Ran fetch (asked ++ u) (some o)) :
    FetchComes (asked ++ t) e := by
  rcases comes_takeOn h with ⟨rfl, rfl⟩ | ⟨s₁, t', rfl, hheld | ⟨outcome, t₁, t₂, hheld, hend, rfl⟩⟩
  · exact .claiming trivial
  · rcases comes_holdJob hheld with he | ⟨s₂, during, rfl, hcarry⟩
    · exact .claiming he
    · obtain ⟨he, hd⟩ := hcarry.only (only_carryOut a job)
      exact .carrying s₁ s₂ job hasked (unsaved_of_comes_carryOut hcarry) (fun d hd' => (hd d hd').not_ofClaim) he
  · have hdone : FetchComes ((asked ++ ⟨s₁, .claim, true⟩ :: t₁) ++ t₂) e := by
      refine .concluding s a job outcome (List.mem_append_left _ hadmitted) (fun {u o} hended => ?_) hend
      have hlast := hended.bind (f := fun r => .done (.ok r : Except UpdateError FetchOutcome)) (.done _)
      rw [List.append_nil] at hlast
      rw [List.append_assoc]
      exact hfetch (.step s₁ _ (hheld.bind hlast))
    rwa [List.append_assoc] at hdone

theorem comes_fetch (h : Comes fetch t e) : FetchComes t e := by
  obtain _ | ⟨s₀, busy, h⟩ := h
  · exact .asking (fun _ hd => nomatch hd) trivial
  cases busy with
  | true => cases h
  | false =>
    obtain _ | ⟨s₁, admitted, h⟩ := h
    · exact .asking (List.forall_mem_singleton.mpr trivial) trivial
    match admitted, h with
    | .error _, h => cases h
    | .ok a, h =>
      obtain _ | ⟨s₂, _, h⟩ := h
      · exact .asking (by simp [Effect.OfAsking]) trivial
      obtain _ | ⟨s₃, r, h⟩ := h
      · exact .asking (by simp [Effect.OfAsking]) trivial
      match r, h with
      | none, h => cases h
      | some (.error c), h => cases h
      | some (.ok response), h =>
        change Comes (receive a response) _ e at h
        by_cases hp : ∃ job, Payload.ofBytes response.body = .ok (.job job)
        · obtain ⟨job, hp⟩ := hp
          unfold receive at h
          rw [hp] at h
          have htaken {t : List (Deed A)} (h : Comes (takeOn a job) t e) :
              FetchComes ([⟨s₀, .inProgress, false⟩, ⟨s₁, .admission, .ok a⟩, ⟨s₂, .note .fetching, ()⟩,
                ⟨s₃, .get (fetchPath a.version), some (.ok response)⟩] ++ t) e := by
            refine .of_takeOn (s := s₁) h (by simp [Unsaved]) (by simp) fun hran => ?_
            refine .step s₀ _ (.step s₁ _ (.step s₂ _ (.step s₃ _ ?_)))
            change Ran (receive a response) _ _
            unfold receive
            rwa [hp]
          exact htaken h
        · obtain ⟨he, ht⟩ := h.only (P := Effect.OfAsking)
            (only_receive (fun _ _ => trivial) (fun _ => trivial) a (not_exists.mp hp))
          refine .asking ?_ he
          simpa [Effect.OfAsking] using ht

end Activity

/-! ## What a task comes to -/

open Activity

inductive TaskComes (calls : Call A → Prop) : List (Deed A) → Effect A → Prop
  | fetching {before t : List (Deed A)} {e : Effect A}
      (hb : before = [] ∨ ∃ s, before = [⟨s, .note .autofetchChecking, ()⟩]) (h : FetchComes t e) :
      TaskComes calls (before ++ t) e
  | noting (t : List (Deed A)) (event : Event) : TaskComes calls t (.note event)
  | other {t : List (Deed A)} {e : Effect A} (ht : Unsaved t) (hr : e ≠ .restart)
      (hs : ∀ image, e = .stage image → ∃ job chunkSize, calls (.download job chunkSize))
      (hi : ∀ config handler, e = .install config handler → ∃ config test, calls (.enable config handler test)) :
      TaskComes calls t e

section
variable {calls : Call A → Prop} {t : List (Deed A)} {e : Effect A}

theorem TaskComes.of_only {α : Type} {P : Effect A → Prop} {p : Activity A α} (h : Comes p t e) (hp : p.Only P)
    (hsave : ∀ id, ¬ P (.saveJobId id)) (hrestart : ¬ P .restart)
    (hstage : ∀ image, P (.stage image) → ∃ job chunkSize, calls (.download job chunkSize))
    (hinstall : ∀ config handler, P (.install config handler) → ∃ config test, calls (.enable config handler test)) :
    TaskComes calls t e := by
  obtain ⟨he, ht⟩ := h.only hp
  refine .other (unsaved_of_requests fun d hd id hsaves => hsave id (hsaves ▸ ht d hd)) ?_ ?_ ?_
  · rintro rfl
    exact hrestart he
  · rintro image rfl
    exact hstage image he
  · rintro config handler rfl
    exact hinstall config handler he

/-- A handler is installed at once or not at all. -/
theorem comes_enable {config : Config} {handler : Option A.Handler} {test : Option A.SelfTest}
    (h : Comes (enable config handler test) t e) : Unsaved t ∧ e ≠ .restart ∧ (∀ image, e ≠ .stage image) ∧
      ∀ config' handler', e = .install config' handler' → handler' = handler := by
  obtain ⟨he, ht⟩ := h.only (only_enable config handler test)
  refine ⟨unsaved_of_requests fun d hd id hsaves => ?_, ?_, ?_, ?_⟩
  · have hd := ht d hd
    rw [hsaves] at hd
    exact hd
  · rintro rfl
    exact he
  · rintro _ rfl
    exact he
  · rintro config' handler' rfl
    obtain _ | ⟨s, r, h⟩ := h
    · rfl
    · have hvalidate : (validate test config).Only fun e => ∀ config handler, e ≠ .install config handler := by
        refine (only_perform nofun).bind fun r => ?_
        split
        · trivial
        · trivial
        · refine ((only_testTrial test _).mono fun e he => ?_).bind fun _ => trivial
          rintro config handler rfl
          exact he
        · exact (only_reconcile nofun nofun (fun _ _ => nofun) fun _ => nofun).bind fun _ => trivial
        · trivial
      cases r with
      | error => cases h
      | ok =>
        refine absurd rfl ((h.only (hvalidate.bind fun r => ?_)).1 config' handler')
        split
        · trivial
        · exact (only_note nofun).bind fun _ => trivial
        · exact (only_note nofun).bind fun _ => trivial

theorem comes_call {c : Call A} (hc : calls c) (h : Comes c.activity t e) : TaskComes calls t e := by
  cases c with
  | enable config handler test =>
    obtain ⟨ht, hr, hs, hi⟩ := comes_enable h.of_bind_done
    refine .other ht hr (fun image he => absurd he (hs image)) fun config' handler' he => ?_
    obtain rfl := hi config' handler' he
    exact ⟨config, test, hc⟩
  | fetch => exact .fetching (.inl rfl) (comes_fetch h.of_bind_done)
  | autofetch =>
    obtain _ | ⟨s, _, h⟩ := h
    · exact .noting _ _
    · rcases Comes.of_bind (p := fetch) h with h | ⟨r, t₁, t₂, -, hend, -⟩
      · have hin : TaskComes calls ([⟨s, .note .autofetchChecking, ()⟩] ++ _) e :=
          .fetching (.inr ⟨s, rfl⟩) (comes_fetch h)
        exact hin
      · have hnote : ∃ event, e = .note event := by
          refine (hend.only (P := fun e => ∃ event, e = .note event) ?_).1
          split
          · trivial
          · exact only_note ⟨_, rfl⟩
          · exact only_note ⟨_, rfl⟩
        obtain ⟨event, rfl⟩ := hnote
        exact .noting _ event
  | download job chunkSize =>
    exact .of_only h.of_bind_done (only_downloadAndFlash job chunkSize) (fun _ h => h) (fun h => h)
      (fun _ _ => ⟨job, chunkSize, hc⟩) fun _ _ h => h.elim
  | report id status info =>
    have hreport : (reportFor id status info : Activity A _).Only Effect.OfAsking :=
      only_reportFor trivial fun _ => trivial
    exact .of_only h.of_bind_done hreport (fun _ h => h) (fun h => h) (fun _ h => h.elim) fun _ _ h => h.elim
  | disable | markValid | markInvalid | joinConfirmation =>
    obtain _ | ⟨s, r, h⟩ := h
    · exact .other unsaved_nil nofun (fun _ h => nomatch h) fun _ _ h => nomatch h
    · cases h

end

/-- What the tasks of a boot do next they have come to. -/
theorem Boot.comes_run (d : Device) (version : String) (ms : List (Move A)) :
    ((start A d version).run ms).Heeding (fun past e => TaskComes (fun c => .call c ∈ ms) past.reverse e)
      fun _ => True := by
  refine heeding_run d version (fun c hc => ?_) fun attempt interval => ?_
  · refine (heeds_comes c.activity []).mono ?_ fun _ _ h => h
    rintro past e ⟨t, rfl, h⟩
    simpa using comes_call hc h
  · refine Heeds.mono (heeds_comes (confirmAttempt attempt interval) []) ?_ fun _ _ h => h
    rintro past e ⟨t, rfl, h⟩
    rw [List.append_nil, List.reverse_reverse]
    exact .of_only h (only_confirmAttempt attempt interval) (fun _ h => h) (fun h => h) (fun _ h => h.elim)
      fun _ _ h => h.elim

/-! ## A fetch that has applied a job -/

/-- There is one way to split a list at the first that has the property. -/
theorem append_cons_inj {α : Type} {p : α → Bool} {l₁ l₂ r₁ r₂ : List α} {a b : α}
    (h : l₁ ++ a :: r₁ = l₂ ++ b :: r₂) (ha : p a = true) (hb : p b = true) (h₁ : ∀ x ∈ l₁, p x = false)
    (h₂ : ∀ x ∈ l₂, p x = false) : l₁ = l₂ ∧ a = b ∧ r₁ = r₂ := by
  induction l₁ generalizing l₂ with
  | nil =>
    cases l₂ with
    | nil => exact ⟨rfl, List.cons.inj h⟩
    | cons y l₂ =>
      obtain ⟨rfl, -⟩ := List.cons.inj h
      exact absurd (ha.symm.trans (h₂ a List.mem_cons_self)) nofun
  | cons x l₁ ih =>
    cases l₂ with
    | nil =>
      obtain ⟨rfl, -⟩ := List.cons.inj h
      exact absurd (hb.symm.trans (h₁ x List.mem_cons_self)) nofun
    | cons y l₂ =>
      obtain ⟨rfl, hrest⟩ := List.cons.inj h
      obtain ⟨rfl, hsame⟩ := ih hrest (fun x hx => h₁ x (List.mem_cons_of_mem _ hx))
        fun x hx => h₂ x (List.mem_cons_of_mem _ hx)
      exact ⟨rfl, hsame⟩

def Effect.restarts : Effect A → Bool
  | .restart => true
  | _ => false

theorem Effect.eq_restart {e : Effect A} (h : e.restarts = true) : e = .restart := by
  cases e <;> first | rfl | cases h

def Effect.looks : Effect A → Bool
  | .inProgress => true
  | _ => false

namespace Activity

/-- The fetch was let in and offered the job, has carried it out, let it go and concluded. -/
inductive AppliedCourse (s₁ : World A) (a : Admission A) (job : Job) : List (Deed A) → Prop
  | course (s₀ s₂ s₃ s₄ s₅ s₆ s₇ : World A) (response : Response) {during ending : List (Deed A)}
      (hcarry : Ran (carryOut a job) during (some (.ok .applied)))
      (hend : Ran (conclude a.config job.id .applied) ending (some (.applied job.id))) :
      AppliedCourse s₁ a job (⟨s₀, .inProgress, false⟩ :: ⟨s₁, .admission, .ok a⟩ :: ⟨s₂, .note .fetching, ()⟩ ::
        ⟨s₃, .get (fetchPath a.version), some (.ok response)⟩ :: ⟨s₄, .claim, true⟩ :: ⟨s₅, .takeUp job, ()⟩ ::
        (during ++ ⟨s₆, .putDown, ()⟩ :: ⟨s₇, .release, ()⟩ :: ending))

theorem ran_takeOn_applied {a : Admission A} {job : Job} {t : List (Deed A)} {id : String}
    (h : Ran (takeOn a job) t (some (.ok (.applied id)))) : job.id = id ∧
      ∃ s₁ s₂ s₃ s₄ during ending, Ran (carryOut a job) during (some (.ok .applied)) ∧
        Ran (conclude a.config job.id .applied) ending (some (.applied job.id)) ∧
        t = ⟨s₁, .claim, true⟩ :: ⟨s₂, .takeUp job, ()⟩ :: (during ++
          ⟨s₃, .putDown, ()⟩ :: ⟨s₄, .release, ()⟩ :: ending) := by
  obtain _ | _ | ⟨s₁, r, h⟩ := h
  cases r with
  | false => cases h
  | true =>
    rcases Ran.of_bind (p := (holdJob a job).ensuring letGo) h with ⟨r, t₁, ending, hheld, hend, rfl⟩ | ⟨-, ho⟩
    · obtain ⟨s₂, s₃, s₄, during, hcarry, rfl⟩ := ran_held hheld
      cases r with
      | error => cases hend
      | ok outcome =>
        obtain ⟨result, hconclude, ho⟩ := hend.of_bind_done (f := fun o => (.ok o : Except UpdateError FetchOutcome))
        obtain rfl := ran_conclude hconclude
        cases outcome with
        | deferred | rejected => cases ho
        | applied =>
          cases ho
          exact ⟨rfl, s₁, s₂, s₃, s₄, during, ending, hcarry, hconclude, by simp⟩
    · cases ho

theorem ran_applied {t : List (Deed A)} {id : String} (h : Ran fetch t (some (.ok (.applied id)))) :
    ∃ s a job, job.id = id ∧ AppliedCourse s a job t := by
  obtain ⟨⟨s, path, response', hget, -⟩, -⟩ := ran_fetch_applied h
  rcases ran_fetch h with ⟨-, hnone⟩ | ⟨s₀, s₁, s₂, s₃, a, response, rest, rfl, hreceive⟩
  · exact absurd hget (hnone s path response')
  · obtain ⟨⟨job, hp, -⟩, -⟩ := (ran_receive_applied hreceive).1
    unfold receive at hreceive
    rw [hp] at hreceive
    obtain ⟨rfl, s₄, s₅, s₆, s₇, during, ending, hcarry, hend, rfl⟩ := ran_takeOn_applied hreceive
    exact ⟨s₁, a, job, rfl, .course s₀ s₂ s₃ s₄ s₅ s₆ s₇ response hcarry hend⟩

namespace AppliedCourse

variable {s₁ : World A} {a : Admission A} {job : Job} {t : List (Deed A)}

theorem admitted (h : AppliedCourse s₁ a job t) {s : World A} {r : Except UpdateError (Admission A)} :
    ⟨s, .admission, r⟩ ∈ t ↔ s = s₁ ∧ r = .ok a := by
  obtain ⟨s₀, s₂, s₃, s₄, s₅, s₆, s₇, response, hcarry, hend⟩ := h
  rename_i during ending
  have hduring : (⟨s, .admission, r⟩ : Deed A) ∉ during := hcarry.only (only_carryOut a job) _
  have hending : (⟨s, .admission, r⟩ : Deed A) ∉ ending := hend.only (only_conclude a.config job.id .applied) _
  simp [hduring, hending]

theorem begins (h : AppliedCourse s₁ a job t) :
    ∃ d rest, t = d :: rest ∧ d.request.looks = true ∧ ∀ d ∈ rest, d.request.looks = false := by
  obtain ⟨s₀, s₂, s₃, s₄, s₅, s₆, s₇, response, hcarry, hend⟩ := h
  rename_i during ending
  have hduring : ∀ d ∈ during, d.request.looks = false := by
    intro d hd
    have happly := hcarry.only (only_carryOut a job) d hd
    obtain ⟨s, e, r⟩ := d
    cases e <;> first | rfl | exact happly.elim
  have hending : ∀ d ∈ ending, d.request.looks = false := by
    intro d hd
    have hconclude := hend.only (only_conclude a.config job.id .applied) d hd
    obtain ⟨s, e, r⟩ := d
    cases e <;> first | rfl | exact hconclude.elim
  refine ⟨⟨s₀, .inProgress, false⟩, _, rfl, rfl, ?_⟩
  iterate 5 rw [List.forall_mem_cons]
  refine ⟨rfl, rfl, rfl, rfl, rfl, List.forall_mem_append.mpr ⟨hduring, ?_⟩⟩
  exact List.forall_mem_cons.mpr ⟨rfl, List.forall_mem_cons.mpr ⟨rfl, hending⟩⟩

/-- A restart is asked for once, if the configuration asks for it at all. -/
theorem countP_restarts (h : AppliedCourse s₁ a job t) :
    t.countP (·.request.restarts) = a.config.restartAfterApply.toNat := by
  obtain ⟨s₀, s₂, s₃, s₄, s₅, s₆, s₇, response, hcarry, hend⟩ := h
  rename_i during ending
  have hduring : during.countP (·.request.restarts) = 0 := by
    refine List.countP_eq_zero.mpr fun d hd => ?_
    have he := hcarry.only (only_carryOut a job) d hd
    obtain ⟨s, e, r⟩ := d
    cases e <;> first | exact Bool.false_ne_true | exact he.elim
  have hending : ending.countP (·.request.restarts) = a.config.restartAfterApply.toNat := by
    obtain _ | _ | ⟨_, _, h⟩ := hend
    dsimp only at h
    split at h
    · rename_i hasked
      obtain _ | _ | ⟨_, _, h⟩ := h
      obtain _ | _ | ⟨_, _, h⟩ := h
      cases h
      rw [hasked]
      rfl
    · rename_i hunasked
      cases h
      rw [Bool.eq_false_iff.mpr hunasked]
      rfl
  simp only [List.countP_cons, List.countP_append, hduring, hending]
  simp [Effect.restarts]

/-- Two that end together are the same. -/
theorem eq_of_append {s₂ : World A} {b : Admission A} {job' : Job} {u x y : List (Deed A)}
    (ht : AppliedCourse s₁ a job t) (hu : AppliedCourse s₂ b job' u) (h : x ++ t = y ++ u) : t = u := by
  obtain ⟨d, rest, rfl, hd, hrest⟩ := ht.begins
  obtain ⟨d', rest', rfl, hd', hrest'⟩ := hu.begins
  -- each begins where the engine is looked at for the last time
  have hreverse : rest.reverse ++ d :: x.reverse = rest'.reverse ++ d' :: y.reverse := by
    simpa using congrArg List.reverse h
  obtain ⟨hsame, rfl, -⟩ := append_cons_inj hreverse hd hd' (fun x hx => hrest x (List.mem_reverse.mp hx))
    fun x hx => hrest' x (List.mem_reverse.mp hx)
  rw [List.reverse_inj.mp hsame]

end AppliedCourse

end Activity

namespace Activity

theorem comes_conclude {config : Config} {id : String} {outcome : ApplyOutcome} {t : List (Deed A)}
    (h : Comes (conclude config id outcome) t .restart) (s : World A) :
    Ran (conclude config id outcome) (t ++ [⟨s, .restart, ()⟩]) (some (.applied id)) := by
  cases outcome with
  | deferred | rejected =>
    obtain _ | ⟨_, _, h⟩ := h
    cases h
  | applied =>
    obtain _ | ⟨s₁, _, h⟩ := h
    unfold conclude
    refine .step s₁ _ ?_
    dsimp only at h ⊢
    split at h
    · rename_i hasked
      rw [if_pos hasked]
      obtain _ | ⟨s₂, _, h⟩ := h
      obtain _ | ⟨_, _, h⟩ := h
      · exact .step s₂ _ (.step s _ (.done _))
      · cases h
    · cases h

/-- A fetch that comes to a restart has applied a job. -/
theorem FetchComes.restart {t : List (Deed A)} (h : FetchComes t .restart) (s : World A) :
    ∃ id, Ran fetch (t ++ [⟨s, .restart, ()⟩]) (some (.ok (.applied id))) := by
  cases h with
  | asking ht he => exact he.elim
  | claiming he => exact he.elim
  | carrying s s' job hb hd hheld he => exact he.elim
  | concluding s₁ a job outcome hadmitted hrest h =>
    rw [List.append_assoc]
    exact ⟨job.id, hrest (comes_conclude h s)⟩

end Activity

namespace TaskComes

variable {calls : Call A → Prop} {t : List (Deed A)}

theorem restart (h : TaskComes calls t .restart) (s : World A) : ∃ before fetched id,
    t = before ++ fetched ∧ (∀ d ∈ before, d.request.restarts = false) ∧
      Ran fetch (fetched ++ [⟨s, .restart, ()⟩]) (some (.ok (.applied id))) := by
  cases h with
  | other hu hr => exact absurd rfl hr
  | @fetching before fetched _ hb h =>
    obtain ⟨id, hran⟩ := h.restart s
    refine ⟨before, fetched, id, rfl, ?_, hran⟩
    rcases hb with rfl | ⟨s₀, rfl⟩
    · exact fun _ hd => nomatch hd
    · exact List.forall_mem_singleton.mpr rfl

/-- Nobody asks for a restart twice. -/
theorem first_restart (h : TaskComes calls t .restart) : ∀ d ∈ t, d.request.restarts = false := by
  intro d hd
  obtain ⟨before, fetched, id, rfl, hbefore, hran⟩ := h.restart d.found
  rcases List.mem_append.mp hd with hd | hd
  · exact hbefore d hd
  · obtain ⟨s₁, a, job, -, hcourse⟩ := ran_applied hran
    have hcount := hcourse.countP_restarts
    have hone : [(⟨d.found, .restart, ()⟩ : Deed A)].countP (·.request.restarts) = 1 := rfl
    rw [List.countP_append, hone] at hcount
    have hmost : a.config.restartAfterApply.toNat ≤ 1 := Bool.toNat_le _
    have hnone : fetched.countP (·.request.restarts) = 0 := by omega
    exact Bool.eq_false_iff.mpr (List.countP_eq_zero.mp hnone d hd)

end TaskComes

end FirmwareUpdate
