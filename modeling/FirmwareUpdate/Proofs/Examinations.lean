import FirmwareUpdate.Proofs.LateReports
import FirmwareUpdate.Proofs.SuccessReports

/-!
# One examination a boot

The validation begins once a boot. The task that begins it on an image on trial tests the image and,
unless the test fails, starts the confirmation. So the success of an image that fails its test is never
reported.
-/

namespace FirmwareUpdate

open Routine

variable {A : Application}

/-! ## What leads to a confirmation -/

def Effect.Starts : Effect A → Prop
  | .startConfirmation _ => True
  | _ => False

def Effect.Examines : Effect A → Prop
  | .diagnose _ | .startConfirmation _ => True
  | _ => False

theorem Effect.Starts.examines {e : Effect A} (h : e.Starts) : e.Examines := by
  cases e <;> trivial

theorem Effect.OfConfirm.not_examines {e : Effect A} (h : e.OfConfirm) : ¬ e.Examines := by
  cases e <;> first | exact id | exact h.elim

theorem Effect.OfFetch.not_examines {e : Effect A} (h : e.OfFetch) : ¬ e.Examines := by
  cases e <;> first | exact id | exact h.elim

def Effect.tests : Effect A → Bool
  | .diagnose _ => true
  | _ => false

def Happening.requests (p : Effect A → Bool) : Happening A → Bool
  | did _ d => p d.request
  | fired .. => false

def Began (past : List (Deed A)) : Prop :=
  ∃ s seconds, (⟨s, .beginValidation seconds, some (.ok .trial)⟩ : Deed A) ∈ past

def Faulted (past : List (Deed A)) : Prop :=
  ∃ s test c, (⟨s, .diagnose test, .failed c⟩ : Deed A) ∈ past

structure Cleared (past : List (Deed A)) : Prop where
  began : Began past
  unfaulted : ¬ Faulted past
  unstarted : ∀ d ∈ past, ¬ d.request.Starts

structure Examining (past : List (Deed A)) (e : Effect A) : Prop where
  tests : ∀ test, e = .diagnose test → Began past ∧ ∀ d ∈ past, ¬ d.request.Examines
  starts : e.Starts → Cleared past

variable {past : List (Deed A)}

theorem Began.cons (h : Began past) (d : Deed A) : Began (d :: past) := by
  obtain ⟨s, seconds, hmem⟩ := h
  exact ⟨s, seconds, List.mem_cons_of_mem _ hmem⟩

theorem Faulted.of_cons {d : Deed A} (h : Faulted (d :: past)) (hd : ∀ test, d.request ≠ .diagnose test) :
    Faulted past := by
  obtain ⟨s, test, c, hmem⟩ := h
  rcases List.mem_cons.mp hmem with he | hmem
  · subst he
    exact absurd rfl (hd test)
  · exact ⟨s, test, c, hmem⟩

theorem Cleared.cons (h : Cleared past) {d : Deed A} (hd : ¬ d.request.Examines) : Cleared (d :: past) where
  began := h.began.cons d
  unfaulted hf := h.unfaulted (hf.of_cons fun _ he => hd (he ▸ trivial))
  unstarted := List.forall_mem_cons.mpr ⟨fun hs => hd hs.examines, h.unstarted⟩

theorem Examining.plain {e : Effect A} (h : ¬ e.Examines) : Examining past e where
  tests test he := by
    subst he
    exact absurd trivial h
  starts hs := absurd hs.examines h

namespace Activity

variable {α : Type}

theorem heeds_plain {p : Activity A α} (h : p.Only fun e => ¬ e.Examines) :
    p.Heeds Examining (fun _ _ => True) past := .of_only h fun _ _ => .plain

theorem heeds_confirmTrial_examining (interval : Nat) (hc : Cleared past) :
    (confirmTrial interval : Activity A _).Heeds Examining (fun _ _ => True) past := by
  have hstate : (do return .ok (← perform .validationState) :
      Activity A (Except UpdateError ValidationState)).Only fun e => ¬ e.Examines :=
    (only_perform nofun).bind fun _ => trivial
  -- what has been read or noted since makes no difference
  have hstart {past : List (Deed A)} (hc : Cleared past) :
      (do perform (.startConfirmation interval); return .ok (← perform .validationState) :
        Activity A (Except UpdateError ValidationState)).Heeds Examining (fun _ _ => True) past :=
    ⟨⟨(fun _ he => nomatch he), fun _ => hc⟩, fun s r => heeds_plain hstate⟩
  refine ⟨.plain nofun, fun s r => ?_⟩
  match r with
  | .ok (some id) => exact hstart (hc.cons nofun)
  | .error c =>
    have hread : Cleared (⟨s, .loadJobId, .error c⟩ :: past) := hc.cons nofun
    exact ⟨.plain nofun, fun s' r' => hstart (hread.cons nofun)⟩
  | .ok none =>
    have hconclude : (concludeTrial : Activity A _).Only fun e => ¬ e.Examines :=
      only_concludeTrial nofun nofun fun _ => nofun
    exact heeds_plain ((only_note nofun).bind fun _ => hconclude.bind fun _ => hstate)

theorem heeds_testTrial_examining (test : Option A.SelfTest) (interval : Nat) (hb : Began past)
    (hc : ∀ d ∈ past, ¬ d.request.Examines) :
    (testTrial test interval).Heeds Examining (fun _ _ => True) past := by
  have hf : ¬ Faulted past := fun ⟨s, test, c, hmem⟩ => hc _ hmem trivial
  have hn : ∀ d ∈ past, ¬ d.request.Starts := fun d hd hs => hc d hd hs.examines
  unfold testTrial
  split
  · exact heeds_confirmTrial_examining interval ⟨hb, hf, hn⟩
  · rename_i test
    refine ⟨⟨fun _ _ => ⟨hb, hc⟩, fun hs => hs.elim⟩, fun s r => ?_⟩
    match r with
    | .died => trivial
    | .passed =>
      have htested : Cleared (⟨s, .diagnose test, .passed⟩ :: past) := by
        refine ⟨hb.cons _, fun ⟨s₀, test', c, hmem⟩ => ?_, List.forall_mem_cons.mpr ⟨id, hn⟩⟩
        rcases List.mem_cons.mp hmem with he | hmem
        · cases he
        · exact hf ⟨s₀, test', c, hmem⟩
      exact ⟨.plain nofun, fun s' r' => heeds_confirmTrial_examining interval (htested.cons nofun)⟩
    | .failed c =>
      have hcondemn : (perform .markInvalid : Activity A _).Only fun e => ¬ e.Examines := only_perform nofun
      refine heeds_plain ((only_note nofun).bind fun _ => hcondemn.bind fun r => ?_)
      split <;> trivial

theorem heeds_enable_examining (config : Config) (handler : Option A.Handler) (test : Option A.SelfTest) :
    (enable config handler test).Heeds Examining (fun _ _ => True) [] := by
  have hvalidate (past : List (Deed A)) (hc : ∀ d ∈ past, ¬ d.request.Examines) :
      (validate test config).Heeds Examining (fun _ _ => True) past := by
    refine ⟨.plain nofun, fun s r => ?_⟩
    match r with
    | none => trivial
    | some (.error e) => trivial
    | some (.ok .foreign) => trivial
    | some (.ok .settled) =>
      have hreconcile : (reconcile : Activity A _).Only fun e => ¬ e.Examines :=
        only_reconcile nofun nofun (fun _ _ => nofun) fun _ => nofun
      exact (heeds_plain hreconcile).andThen fun _ _ _ => trivial
    | some (.ok .trial) =>
      have hbegun : Began (⟨s, .beginValidation config.rollbackTimeoutSecs.toNat, some (.ok .trial)⟩ :: past) :=
        ⟨s, _, List.mem_cons_self⟩
      have hpast : ∀ d ∈ (⟨s, .beginValidation config.rollbackTimeoutSecs.toNat, some (.ok .trial)⟩ :: past),
          ¬ d.request.Examines := List.forall_mem_cons.mpr ⟨id, hc⟩
      exact (heeds_testTrial_examining test _ hbegun hpast).andThen fun _ _ _ => trivial
  refine ⟨.plain nofun, fun s r => ?_⟩
  match r with
  | .error e => trivial
  | .ok () =>
    refine (hvalidate _ (List.forall_mem_singleton.mpr id)).andThen fun r past _ => ?_
    split
    · trivial
    · exact (heeds_plain (only_note nofun)).andThen fun _ _ _ => trivial
    · exact (heeds_plain (only_note nofun)).andThen fun _ _ _ => trivial

end Activity

open Activity

theorem heeds_call_examining (c : Call A) : (Task.call c.activity).Heeds Examining (fun _ => True) [] := by
  have hfetches {α : Type} {p : Activity A α} (hp : p.Fetches) : p.Only fun e => ¬ e.Examines :=
    (hp []).only fun _ _ hs => hs.kind.not_examines
  have hsingle {e : Effect A} (h : ¬ e.Examines) :
      (do let _ ← perform e : Activity A Unit).Heeds Examining (fun _ _ => True) [] :=
    (heeds_plain (only_perform h)).andThen fun _ _ _ => trivial
  cases c with
  | enable config handler test =>
    exact (heeds_enable_examining config handler test).andThen fun _ _ _ => trivial
  | fetch => exact (heeds_plain (hfetches fetches_fetch)).andThen fun _ _ _ => trivial
  | autofetch => exact heeds_plain (hfetches fetches_autofetchRound)
  | download job chunkSize =>
    have hdownload := hfetches (fetches_downloadAndFlash (A := A) job chunkSize)
    exact (heeds_plain hdownload).andThen fun _ _ _ => trivial
  | report id status info =>
    have hreport : (reportFor id status info : Activity A _).Only fun e => ¬ e.Examines :=
      only_reportFor nofun fun _ => nofun
    exact (heeds_plain hreport).andThen fun _ _ _ => trivial
  | disable => exact hsingle (e := .uninstall) nofun
  | markValid => exact hsingle (e := .markValid) nofun
  | markInvalid => exact hsingle (e := .markInvalid) nofun
  | joinConfirmation => exact hsingle (e := .joinConfirmation) nofun

theorem Boot.examining_run (d : Device) (version : String) (ms : List (Move A)) :
    ((start A d version).run ms).Heeding Examining fun _ => True :=
  heeding_run d version (fun c _ => heeds_call_examining c) fun attempt interval =>
    heeds_plain ((only_confirmAttempt attempt interval).mono fun _ => Effect.OfConfirm.not_examines)

/-! ## Once a boot -/

theorem World.of_begun {w : World A} {seconds : Nat} {kind : World.BootKind}
    (h : (w.beginValidation seconds).1 = some (.ok kind)) :
    w.engine.validation.state = .init ∧ (w.beginValidation seconds).2.engine.validation.state ≠ .init := by
  have hb := w.beginning seconds
  rw [h] at hb
  generalize (w.beginValidation seconds).2 = w' at hb ⊢
  cases hb with
  | trial hi => exact ⟨hi, by rw [validation_beginTrial]; nofun⟩
  | settled hi | foreign hi => exact ⟨hi, nofun⟩

/-- The validation of the running image begins, whatever slot it is found in. -/
def Happening.begins : Happening A → Bool
  | did _ ⟨_, .beginValidation _, some (.ok _)⟩ => true
  | _ => false

theorem Happening.begins_iff {task : Nat} {d : Deed A} : (did task d).begins = true ↔
    ∃ s seconds kind, d = ⟨s, .beginValidation seconds, some (.ok kind)⟩ := by
  constructor
  · intro h
    unfold begins at h
    split at h
    · rename_i s seconds kind he
      cases he
      exact ⟨s, seconds, kind, rfl⟩
    · cases h
  · rintro ⟨s, seconds, kind, rfl⟩
    rfl

theorem Turn.begun {w w' : World A} {h h' : List (Happening A)} (ht : Turn w h w' h') (hw : w.Timed)
    (hb : ∀ x ∈ h, x.begins = true → w.engine.validation.state ≠ .init) :
    ∀ x ∈ h', x.begins = true → w'.engine.validation.state ≠ .init := by
  have hkept (x : Happening A) (hx : x ∈ h) (hbegins : x.begins = true) : w'.engine.validation.state ≠ .init :=
    ((ht.net hw).2 (hb x hx hbegins)).1
  cases ht with
  | paced | surrounded => exact hkept
  | fired id hf => exact List.forall_mem_cons.mpr ⟨nofun, hkept⟩
  | did task s e c =>
    refine List.forall_mem_cons.mpr ⟨fun hbegins => ?_, hkept⟩
    obtain ⟨s', seconds, kind, he⟩ := Happening.begins_iff.mp hbegins
    obtain ⟨rfl, rfl, hr⟩ := Routine.Deed.mk.inj he
    exact (World.of_begun (eq_of_heq hr)).2

namespace Boot

variable (d : Device) (version : String) (ms : List (Move A))

theorem begun_run : Throughout (fun x earlier => ∀ y ∈ earlier, y.begins = true →
    x.found.engine.validation.state ≠ .init) ((start A d version).run ms).history := by
  have hrun := run_throughout (A := A) (P := fun w h => w.Timed ∧ ∀ x ∈ h, x.begins = true →
    w.engine.validation.state ≠ .init) (fun ht hp => ⟨(ht.net hp.1).1, ht.begun hp.1 hp.2⟩) d version
    ⟨World.timed_boot d version, fun _ hx => nomatch hx⟩ ms
  exact hrun.2.imp fun h => h.2

/-- Whoever begins the validation is the first. -/
theorem unbegun_before {later earlier : List (Happening A)} {x : Happening A}
    (h : ((start A d version).run ms).history = later ++ x :: earlier) (hx : x.begins = true) :
    ∀ y ∈ earlier, y.begins = false := by
  intro y hy
  have hg := (genuine_run d version ms).2
  have hb := begun_run d version ms
  rw [h] at hg hb
  cases x with
  | fired => cases hx
  | did i x =>
    obtain ⟨s, seconds, kind, rfl⟩ := Happening.begins_iff.mp hx
    obtain ⟨-, _, hreply⟩ := hg.split
    cases hyb : y.begins with
    | false => rfl
    | true => exact absurd (World.of_begun hreply.symm).1 (hb.split y hy hyb)

/-- No two tasks begin to validate the running image. -/
theorem begun_once {i j : Nat} {x y : Deed A} (hi : .did i x ∈ ((start A d version).run ms).history)
    (hj : .did j y ∈ ((start A d version).run ms).history)
    (hx : (Happening.did i x).begins = true) (hy : (Happening.did j y).begins = true) : i = j := by
  obtain ⟨later, earlier, h⟩ := List.append_of_mem hi
  have hrest := hj
  rw [h] at hrest
  rcases List.mem_append.mp hrest with hlater | hrest
  · obtain ⟨later', between, rfl⟩ := List.append_of_mem hlater
    have h' : ((start A d version).run ms).history =
        later' ++ .did j y :: (between ++ .did i x :: earlier) := by simpa using h
    have hfirst := unbegun_before d version ms h' hy _ (List.mem_append_right _ List.mem_cons_self)
    exact absurd hx (by simp [hfirst])
  · rcases List.mem_cons.mp hrest with he | hearlier
    · cases he
      rfl
    · exact absurd hy (by simp [unbegun_before d version ms h hx _ hearlier])

/-- Two requests for which the validation must have begun are made by one task. -/
theorem began_once {later later' earlier earlier' : List (Happening A)} {x y : Happening A} {i j : Nat}
    (h : ((start A d version).run ms).history = later ++ x :: earlier) (hi : Began (deedsBy i earlier))
    (h' : ((start A d version).run ms).history = later' ++ y :: earlier') (hj : Began (deedsBy j earlier')) :
    i = j := by
  have hmem {later earlier : List (Happening A)} {x z : Happening A}
      (h : ((start A d version).run ms).history = later ++ x :: earlier) (hz : z ∈ earlier) :
      z ∈ ((start A d version).run ms).history := by
    rw [h]
    exact List.mem_append_right _ (List.mem_cons_of_mem _ hz)
  obtain ⟨s, seconds, hdone⟩ := hi
  obtain ⟨s', seconds', hdone'⟩ := hj
  exact begun_once d version ms (hmem h (mem_deedsBy.mp hdone)) (hmem h' (mem_deedsBy.mp hdone')) rfl rfl

/-- After a failed test the confirmation is not started, and it has not been before. -/
theorem unstarted_of_faulted {i j : Nat} {s s' : World A} {test : A.SelfTest} {c : Cause} {interval : Nat}
    {r : Unit} (hf : .did i ⟨s, .diagnose test, .failed c⟩ ∈ ((start A d version).run ms).history) :
    .did j ⟨s', .startConfirmation interval, r⟩ ∉ ((start A d version).run ms).history := by
  intro hs
  have hrule := (examining_run d version ms).history
  obtain ⟨later, earlier, h⟩ := List.append_of_mem hf
  obtain ⟨later', earlier', h'⟩ := List.append_of_mem hs
  obtain ⟨hbi, hunexamined⟩ := ((h ▸ hrule).split i _ rfl).tests test rfl
  have hbj := (((h' ▸ hrule).split j _ rfl).starts trivial).began
  -- it is one task that has done both
  obtain rfl := began_once d version ms h hbi h' hbj
  rw [h] at hs
  rcases List.mem_append.mp hs with hlater | hrest
  · obtain ⟨between, before, rfl⟩ := List.append_of_mem hlater
    have h₂ : ((start A d version).run ms).history = between ++ .did i ⟨s', .startConfirmation interval, r⟩ ::
      (before ++ .did i ⟨s, .diagnose test, .failed c⟩ :: earlier) := by simpa using h
    refine (((h₂ ▸ hrule).split i _ rfl).starts trivial).unfaulted ⟨s, test, c, ?_⟩
    exact mem_deedsBy.mpr (List.mem_append_right _ List.mem_cons_self)
  · rcases List.mem_cons.mp hrest with he | hearlier
    · cases he
    · exact hunexamined _ (mem_deedsBy.mpr hearlier) trivial

end Boot

/-! ## Without a confirmation -/

/-- Success is reported at most for the application's own jobs. -/
def Effect.Claims (own : String → Prop) (e : Effect A) : Prop :=
  ∀ id info, e = .post Report.path (Report.body id .success info) → own id

theorem World.unconfirmed_undergo (w : World A) (s : Saying) {e : Effect A}
    (h : w.engine.validation.confirmation = none) (hs : ∀ interval, e ≠ .startConfirmation interval) :
    (w.undergo s e).2.engine.validation.confirmation = none := by
  by_cases hj : e = .joinConfirmation
  · subst hj
    simp [undergo, perform, joinConfirmation, h]
  · rw [w.confirmation_undergo s hs hj, h]

theorem World.confirmation_fireOnce (w : World A) (id : TimerId) :
    (w.fireOnce id).2.engine.validation.confirmation = w.engine.validation.confirmation := by
  have hdue (w : World A) : w.rollbackDue.engine.validation.confirmation = w.engine.validation.confirmation := by
    by_cases h : w.OnTrial
    · rw [validation_rollbackDue h]
    · rw [rollbackDue_of_not_onTrial w h]
  unfold fireOnce
  split
  · exact hdue _
  · rfl

theorem only_call_claims {own : String → Prop} {c : Call A} (h : ∀ id, c.Claims id → own id) :
    c.activity.Only (Effect.Claims own) := by
  have hmodest {α : Type} {p : Activity A α} (hp : p.Modest) : p.Only (Effect.Claims own) :=
    hp.mono fun e he id info hpost => absurd hpost (he id info)
  have hsingle {e : Effect A} (he : ∀ path body, e ≠ .post path body) :
      (do let _ ← perform e : Activity A Unit).Only (Effect.Claims own) :=
    (hmodest (modest_perform he)).bind fun _ => trivial
  cases c with
  | enable config handler test => exact (hmodest (modest_enable config handler test)).bind fun _ => trivial
  | fetch => exact (hmodest fetches_fetch.modest).bind fun _ => trivial
  | autofetch => exact hmodest fetches_autofetchRound.modest
  | download job chunkSize =>
    exact (hmodest (fetches_downloadAndFlash job chunkSize).modest).bind fun _ => trivial
  | report id status info =>
    have hpost : Effect.Claims own (.post (A := A) Report.path (Report.body id status info)) := by
      intro id' info' he
      obtain ⟨rfl, hs⟩ := Report.body_inj (Effect.post.inj he).2
      exact h id ⟨info, hs ▸ rfl⟩
    have hsent : (post Report.path (Report.body id status info) : Activity A _).Only (Effect.Claims own) :=
      (only_perform hpost).bind fun r => by cases r <;> trivial
    have hreport : (reportFor id status info : Activity A _).Only (Effect.Claims own) := by
      apply hsent.bind
      intro r
      split
      · trivial
      · split
        · exact (hmodest (modest_note _)).bind fun _ => trivial
        · trivial
    exact hreport.bind fun _ => trivial
  | disable => exact hsingle (e := .uninstall) nofun
  | markValid => exact hsingle (e := .markValid) nofun
  | markInvalid => exact hsingle (e := .markInvalid) nofun
  | joinConfirmation => exact hsingle (e := .joinConfirmation) nofun

namespace Boot

structure Unconfirmed (own : String → Prop) (b : Boot A) : Prop where
  confirmation : b.world.engine.validation.confirmation = none
  tasks : ∀ t ∈ b.tasks, ∃ rest, t = .call rest ∧ rest.Only (Effect.Claims own)
  history : ∀ task d, .did task d ∈ b.history → d.request.Claims own

variable {own : String → Prop} {b : Boot A}

theorem Unconfirmed.step (h : b.Unconfirmed own) {m : Move A} (hc : ∀ c id, m = .call c → c.Claims id → own id)
    (hs : ∀ task s interval r, .did task ⟨s, .startConfirmation interval, r⟩ ∉ (b.step m).history) :
    (b.step m).Unconfirmed own := by
  let silent (w : World A) (history : List (Happening A)) : Prop :=
    w.engine.validation.confirmation = none ∧ ∀ task d, .did task d ∈ history → d.request.Claims own
  have hcalling : b.Calling silent fun p => p.Only (Effect.Claims own) :=
    ⟨⟨h.confirmation, h.history⟩, h.tasks⟩
  have hnext : (b.step m).Calling silent fun p => p.Only (Effect.Claims own) := by
    apply hcalling.step h.confirmation
    · intro c he
      exact only_call_claims fun id => hc c id he
    · intro task s e next honly hstep
      rw [hstep] at hs ⊢
      refine ⟨⟨b.world.unconfirmed_undergo s h.confirmation ?_, ?_⟩, honly.2 _⟩
      · rintro interval rfl
        exact hs _ _ _ _ List.mem_cons_self
      · intro task' d hd
        rcases List.mem_cons.mp hd with he | hd
        · cases he
          exact honly.1
        · exact h.history task' d hd
    · intro id _
      refine ⟨(b.world.confirmation_fireOnce id).trans h.confirmation, ?_⟩
      intro task d hd
      rcases List.mem_cons.mp hd with he | hd
      · cases he
      · exact h.history task d hd
    · exact fun s => ⟨h.confirmation, h.history⟩
  exact ⟨hnext.holds.1, hnext.tasks, hnext.holds.2⟩

/-- On a boot whose image fails its test no success is reported, but for the application's own jobs. -/
theorem claims_of_faulted (d : Device) (version : String) (ms : List (Move A)) {i : Nat} {s : World A}
    {test : A.SelfTest} {c : Cause}
    (hf : .did i ⟨s, .diagnose test, .failed c⟩ ∈ ((start A d version).run ms).history) {task : Nat}
    {deed : Deed A} (hd : .did task deed ∈ ((start A d version).run ms).history) :
    deed.request.Claims fun id => ∃ c, .call c ∈ ms ∧ c.Claims id := by
  have hrun := run_induction (b := start A d version) (P := fun b =>
    (∀ j s' interval r, .did j ⟨s', .startConfirmation interval, r⟩ ∉ b.history) →
      b.Unconfirmed fun id => ∃ c, .call c ∈ ms ∧ c.Claims id) ?_ ms ?_
  · exact (hrun fun _ _ _ _ => unstarted_of_faulted d version ms hf).history task deed hd
  · exact fun _ => ⟨rfl, (fun _ h => nomatch h), fun _ _ h => nomatch h⟩
  · intro b m hm h hs
    refine (h fun j s' interval r hmem => ?_).step (fun c id he hc => ⟨c, he ▸ hm, hc⟩) hs
    obtain ⟨news, hn⟩ := b.history_run [m]
    have hn : (b.step m).history = news ++ b.history := hn
    exact hs j s' interval r (hn ▸ List.mem_append_right _ hmem)

end Boot

end FirmwareUpdate
