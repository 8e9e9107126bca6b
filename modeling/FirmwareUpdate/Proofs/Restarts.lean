import FirmwareUpdate.Proofs.FetchCourses

/-!
# Restarts

A fetch that has applied a job asks for a restart if the configuration under which it was let in says so, and
nobody else ever does. What the restart brings up is the image of that job, under that job's id, provided that
nobody came in between: whoever is called by the engine may call it in turn, but from the moment the id has been
saved the engine calls nobody.
-/

namespace FirmwareUpdate

open Routine Activity

variable {A : Application}

/-! ## The image of a job -/

def Effect.OfTelling : Effect A → Prop
  | .post .. | .note _ => True
  | _ => False

theorem Effect.OfTelling.not_ofClaim {e : Effect A} (h : e.OfTelling) : ¬ e.OfClaim := by
  cases e <;> first | exact id | exact h.elim

/-- The image was downloaded for the job and staged, and since then the service has only been told. -/
def Downloaded (job : Job) (image : Bytes) (t : List (Deed A)) : Prop :=
  ∃ before s₁ source s₂ flash room d notes s₃ rest,
    t = before ++ ⟨s₁, .openImage job.url, .ok source⟩ :: ⟨s₂, .openUpdate, .ok flash⟩ :: (notes ++
      ⟨s₃, .stage image, ()⟩ :: rest) ∧
    0 < room ∧ (Download.start source flash).run Source.read job.size room = (.ok (), d) ∧ d.flash.image = image ∧
    ∀ x ∈ rest, x.request.OfTelling

theorem Downloaded.after {job : Job} {image : Bytes} {t : List (Deed A)} (u : List (Deed A))
    (h : Downloaded job image t) : Downloaded job image (u ++ t) := by
  obtain ⟨before, s₁, source, s₂, flash, room, d, notes, s₃, rest, rfl, hrest⟩ := h
  exact ⟨u ++ before, s₁, source, s₂, flash, room, d, notes, s₃, rest, (List.append_assoc ..).symm, hrest⟩

namespace Activity

variable {job : Job} {chunkSize : Nat} {t : List (Deed A)}

theorem ran_downloadAndFlash {summary : ImageSummary}
    (h : Ran (downloadAndFlash job chunkSize : Activity A _) t (some (.ok summary))) :
    ∃ s₁ source s₂ flash d notes s₃, t = ⟨s₁, .openImage job.url, .ok source⟩ :: ⟨s₂, .openUpdate, .ok flash⟩ ::
        (notes ++ [⟨s₃, .stage d.flash.image, ()⟩]) ∧
      (Download.start source flash).run Source.read job.size (max chunkSize 1) = (.ok (), d) := by
  obtain _ | _ | ⟨s₁, r, h⟩ := h
  match r, h with
  | .error c, h => cases h
  | .ok source, h =>
    dsimp only at h
    split at h
    · cases h
    · obtain _ | _ | ⟨s₂, r, h⟩ := h
      match r, h with
      | .error c, h => cases h
      | .ok flash, h =>
        change Ran (fillSlot Source.read source flash job.size (max chunkSize 1)) _ _ at h
        unfold fillSlot at h
        cases hrun : (Download.start source flash).run Source.read job.size (max chunkSize 1) with
        | mk result d =>
          rw [hrun] at h
          rcases Ran.of_bind (p := noteProgress d.told.reverse) h with ⟨_, notes, rest, -, hend, rfl⟩ | ⟨-, ho⟩
          · cases result with
            | error c => cases hend
            | ok =>
              obtain _ | _ | ⟨s₃, _, hdone⟩ := hend
              cases hdone
              exact ⟨s₁, source, s₂, flash, d, notes, s₃, rfl, hrun⟩
          · cases ho

theorem ran_flashImage (h : Ran (flashImage job chunkSize : Activity A _) t (some .applied)) :
    ∃ image, Downloaded job image t := by
  obtain _ | _ | ⟨s, _, h⟩ := h
  rcases Ran.of_bind (p := reportProgress job "Downloading firmware image") h with
    ⟨_, told, t₂, -, hrest, rfl⟩ | ⟨-, ho⟩
  · rcases hrest.of_bind with ⟨result, downloading, telling, hdownload, hend, rfl⟩ | ⟨-, ho⟩
    · cases result with
      | error c =>
        obtain _ | _ | ⟨_, _, hdone⟩ := hend
        cases hdone
      | ok summary =>
        obtain ⟨s₁, source, s₂, flash, d, notes, s₃, rfl, hrun⟩ := ran_downloadAndFlash hdownload
        refine ⟨d.flash.image, .after (⟨s, .note _, ()⟩ :: told) ⟨[], s₁, source, s₂, flash, max chunkSize 1, d,
          notes, s₃, telling, by simp, Nat.lt_of_lt_of_le Nat.zero_lt_one (Nat.le_max_right _ _), hrun, rfl, ?_⟩⟩
        refine hend.only (P := Effect.OfTelling) ?_
        exact (only_note trivial).bind fun _ => (only_reportLogged trivial fun _ => trivial).bind fun _ => trivial
    · cases ho
  · cases ho

/-- Left to itself the engine has saved the id right after the image was downloaded. -/
theorem ran_carryOut_downloaded {a : Admission A} (ha : a.handler = none)
    (h : Ran (carryOut a job) t (some (.ok .applied))) :
    ∃ before image s, Downloaded job image before ∧ t = before ++ [⟨s, .saveJobId job.id, .ok ()⟩] := by
  obtain _ | _ | ⟨s, _, h⟩ := h
  rcases Ran.of_bind (p := reportLogged job.id .accepted "Job accepted") h with
    ⟨_, told, rest, -, happly, rfl⟩ | ⟨-, ho⟩
  · obtain ⟨s₁, rest, rfl, hsettle⟩ := ran_applyJob_applied happly
    obtain ⟨handled, s', rfl, hdecide⟩ := ran_settle_applied hsettle
    rw [ha] at hdecide
    obtain ⟨image, hdownloaded⟩ := ran_flashImage hdecide
    have hafter := (hdownloaded.after [⟨s₁, .startApplyTask a.config.applyTaskStackSize.toNat, .ok ()⟩]).after
      (⟨s, .note (.jobAccepted job.id job.url job.size), ()⟩ :: told)
    exact ⟨_, image, s', hafter, by simp⟩
  · cases ho

end Activity

/-- What a fetch that has asked for a restart has done before: the image was downloaded, the id saved, and then
what the next boot finds was left alone. -/
theorem Activity.AppliedCourse.saved {s₁ s : World A} {a : Admission A} {job : Job} {t : List (Deed A)}
    (h : AppliedCourse s₁ a job (t ++ [⟨s, .restart, ()⟩])) (ha : a.handler = none) :
    ∃ downloading image s' leaving, Downloaded job image downloading ∧
      t = downloading ++ ⟨s', .saveJobId job.id, .ok ()⟩ :: leaving ∧ (∀ d ∈ leaving, d.request.Quiet) ∧
      ∃ s, ⟨s, .takeUp job, ()⟩ ∈ downloading := by
  generalize ht : t ++ [(⟨s, .restart, ()⟩ : Deed A)] = t' at h
  obtain ⟨s₀, s₂, s₃, s₄, s₅, s₆, s₇, response, hcarry, hend⟩ := h
  rename_i during ending
  obtain ⟨downloading, image, s', hdownloaded, rfl⟩ := ran_carryOut_downloaded ha hcarry
  have hquiet : ∀ d ∈ ending, d.request.Quiet := fun d hd =>
    (hend.only (only_conclude a.config job.id .applied) d hd).quiet
  rcases List.eq_nil_or_concat ending with rfl | ⟨leaving, last, rfl⟩
  · cases hend
  · rw [List.concat_eq_append] at ht hquiet
    have hbefore : t ++ [(⟨s, .restart, ()⟩ : Deed A)] =
        ((⟨s₀, .inProgress, false⟩ :: ⟨s₁, .admission, .ok a⟩ :: ⟨s₂, .note .fetching, ()⟩ ::
          ⟨s₃, .get (fetchPath a.version), some (.ok response)⟩ :: ⟨s₄, .claim, true⟩ :: ⟨s₅, .takeUp job, ()⟩ ::
          downloading) ++ ⟨s', .saveJobId job.id, .ok ()⟩ :: ⟨s₆, .putDown, ()⟩ :: ⟨s₇, .release, ()⟩ :: leaving) ++
            [last] := ht.trans (by simp)
    refine ⟨_, image, s', _, hdownloaded.after [_, _, _, _, _, _], (List.append_inj' hbefore rfl).1, ?_, s₅, by simp⟩
    rw [List.forall_mem_cons, List.forall_mem_cons]
    exact ⟨trivial, trivial, fun d hd => hquiet d (List.mem_append_left _ hd)⟩

theorem NextBoot.since_quiet {n : NextBoot} {later : List (Happening A)} (earlier : List (Happening A))
    (h : ∀ i d, .did i d ∈ later → d.request.Quiet) : n.since (later ++ earlier) = n.since earlier := by
  induction later with
  | nil => rfl
  | cons x later ih =>
    have hrest := ih fun i d hd => h i d (List.mem_cons_of_mem _ hd)
    cases x with
    | fired => exact hrest
    | did i d =>
      rw [List.cons_append, since, hrest]
      exact after_quiet _ (h i d List.mem_cons_self) d.reply

theorem NextBoot.staged_since {n : NextBoot} {later : List (Happening A)} (earlier : List (Happening A))
    (h : ∀ i d, .did i d ∈ later → ∀ image, d.request ≠ .stage image) :
    (n.since (later ++ earlier)).staged = (n.since earlier).staged := by
  induction later with
  | nil => rfl
  | cons x later ih =>
    have hrest := ih fun i d hd => h i d (List.mem_cons_of_mem _ hd)
    cases x with
    | fired => exact hrest
    | did i d =>
      rw [List.cons_append, since, ← hrest]
      have hstage := h i d List.mem_cons_self
      obtain ⟨s, e, r⟩ := d
      cases e with
      | stage image => exact absurd rfl (hstage image)
      | saveJobId => cases r <;> rfl
      | eraseJobId => cases r <;> rfl
      | _ => rfl

/-! ## After the id has been saved -/

def Effect.hosts : Effect A → Bool
  | .get _ | .post .. | .openImage _ | .loadJobId | .saveJobId _ | .eraseJobId | .openUpdate | .stage _ | .decide ..
  | .diagnose _ => true
  | _ => false

theorem holds_append {later past : List (Deed A)} (h : ∀ d ∈ later, ¬ d.request.OfClaim) :
    holds (later ++ past) = holds past := by
  induction later with
  | nil => rfl
  | cons d later ih =>
    rw [List.forall_mem_cons] at h
    exact (holds_cons h.1).trans (ih h.2)

namespace TaskComes

variable {calls : Call A → Prop} {t : List (Deed A)} {e : Effect A}

/-- From the moment it has saved an id a task calls nobody who might call back. -/
theorem hosts (h : TaskComes calls t e) (ht : ¬ Unsaved t) : e.hosts = false := by
  cases h with
  | noting => rfl
  | other hu => exact absurd hu ht
  | @fetching before t e hb h =>
    have hbefore : Unsaved before := by
      rcases hb with rfl | ⟨s, rfl⟩
      · exact unsaved_nil
      · simp [Unsaved]
    cases h with
    | asking hasked he =>
      refine absurd (hbefore.append (unsaved_of_requests fun d hd id hsaves => ?_)) ht
      have hd := hasked d hd
      rw [hsaves] at hd
      exact hd
    | claiming he => cases e <;> first | rfl | exact he.elim
    | carrying s s' job hu hd hheld he =>
      refine absurd (hbefore.append (hu.append ?_)) ht
      exact Unsaved.append (t := [_, _]) (by simp [Unsaved]) hd
    | concluding s a job outcome hadmitted hrest h =>
      have he := (h.only (only_conclude a.config job.id outcome)).1
      cases e <;> first | rfl | exact he.elim

/-- Who stages an image has claimed the engine. -/
theorem claimed {image : Bytes} (h : TaskComes calls t (.stage image))
    (hcalls : ∀ job chunkSize, ¬ calls (.download job chunkSize)) : holds t.reverse = true := by
  cases h with
  | other hu hr hs =>
    obtain ⟨job, chunkSize, hdownload⟩ := hs image rfl
    exact absurd hdownload (hcalls job chunkSize)
  | fetching hb h =>
    cases h with
    | asking ht he => exact he.elim
    | claiming he => exact he.elim
    | carrying s s' job hu hd hheld =>
      rw [List.reverse_append, List.reverse_append, List.reverse_cons, List.reverse_cons, List.append_assoc,
        List.append_assoc, List.append_assoc, holds_append fun d hd => hheld d (List.mem_reverse.mp hd)]
      rfl
    | concluding s a job outcome hadmitted hrest h =>
      exact (h.only (only_conclude a.config job.id outcome)).1.elim

theorem installs {config : Config} {handler : Option A.Handler} (h : TaskComes calls t (.install config handler)) :
    ∃ config test, calls (.enable config handler test) := by
  cases h with
  | other hu hr hs hi => exact hi config handler rfl
  | fetching hb h =>
    cases h with
    | asking ht he => exact he.elim
    | claiming he => exact he.elim
    | carrying s s' job hu hd hheld he => exact he.elim
    | concluding s a job outcome hadmitted hrest h =>
      exact (h.only (only_conclude a.config job.id outcome)).1.elim

end TaskComes

/-- Since the task saved an id, no other has done anything. -/
def Alone (task : Nat) (history : List (Happening A)) : Prop :=
  ∀ later s id earlier, history = later ++ .did task ⟨s, .saveJobId id, .ok ()⟩ :: earlier →
    ∀ i d, .did i d ∈ later → i = task

namespace Alone

variable {task : Nat} {history : List (Happening A)}

theorem of_unsaved (h : Unsaved (deedsBy task history)) : Alone task history := by
  rintro later s id earlier rfl
  exact absurd (mem_deedsBy.mpr (by simp)) (h s id)

theorem cons (h : Alone task history) {x : Happening A} (hx : ∀ i d, x = .did i d → i = task) :
    Alone task (x :: history) := by
  intro later s id earlier he i d hd
  cases later with
  | nil => cases hd
  | cons y later =>
    obtain ⟨rfl, hrest⟩ := List.cons.inj he
    rcases List.mem_cons.mp hd with rfl | hd
    · exact hx i d rfl
    · exact h later s id earlier hrest i d hd

end Alone

theorem Task.next?_of_advance {s : Saying} {w w' : World A} {t t' : Task A} {d : Deed A}
    (h : t.advance s w = some (d, t', w')) : t.next? = some d.request := by
  unfold advance at h
  split at h
  · cases h
    rfl
  · cases h
    rfl
  · cases h

namespace Boot

variable {b : Boot A}

/-- The task has not begun, or has ended, or comes to something in which others may have their turn. -/
def waits (b : Boot A) (task : Nat) : Bool :=
  (deedsBy task b.history).isEmpty || (b.tasks[task]?.bind Task.next?).all Effect.hosts

/-- While a task has its turn all others wait, as callers do for those they have called. -/
def reentrant : Boot A → List (Move A) → Bool
  | _, [] => true
  | b, .go task s :: ms =>
    (List.range b.tasks.length).all (fun i => i == task || b.waits i) && (b.step (.go task s)).reentrant ms
  | b, m :: ms => (b.step m).reentrant ms

theorem reentrant_cons {m : Move A} {ms : List (Move A)} (h : b.reentrant (m :: ms) = true) :
    (∀ task s, m = .go task s → ∀ i < b.tasks.length, i ≠ task → b.waits i = true) ∧
      (b.step m).reentrant ms = true := by
  cases m with
  | go task s =>
    obtain ⟨hwait, hafter⟩ := Bool.and_eq_true_iff.mp h
    refine ⟨?_, hafter⟩
    rintro _ _ ⟨⟩ i hi hne
    have hw := List.all_eq_true.mp hwait i (List.mem_range.mpr hi)
    simpa [hne] using hw
  | _ => exact ⟨(fun _ _ he => nomatch he), h⟩

/-- A task that is not done yet has been alone since it saved an id, and so had all that went on. -/
structure Secluded (b : Boot A) : Prop where
  tasks : ∀ i task e, b.tasks[i]? = some task → task.next? = some e → Alone i b.history
  history : Throughout (fun x earlier => ∀ i d, x = .did i d → Alone i earlier) b.history

theorem Secluded.add (h : b.Secluded) (hbegun : ∀ i d, .did i d ∈ b.history → i < b.tasks.length) (t : Task A) :
    Secluded { b with tasks := b.tasks ++ [t] } where
  tasks i task e hi he := by
    rw [List.getElem?_append] at hi
    split at hi
    · exact h.tasks i task e hi he
    · rename_i hlt
      refine .of_unsaved fun s id hd => hlt (hbegun i _ (mem_deedsBy.mp hd))
  history := h.history

/-- Who has saved an id would not wait for the others. -/
theorem unsaved_of_waits {calls : Call A → Prop}
    (hcomes : b.Heeding (fun past e => TaskComes calls past.reverse e) fun _ => True) {i : Nat} {t : Task A}
    {e : Effect A} (ht : b.tasks[i]? = some t) (he : t.next? = some e) (hw : b.waits i = true) :
    Unsaved (deedsBy i b.history) := by
  refine Classical.byContradiction fun hsaved => ?_
  have hbegun : (deedsBy i b.history).isEmpty = false := by
    rw [List.isEmpty_eq_false_iff]
    intro hnil
    exact hsaved (hnil ▸ unsaved_nil)
  have hhosts : e.hosts = true := by simpa [waits, hbegun, ht, he] using hw
  rcases (hcomes.tasks i t ht).next with ⟨hend, -⟩ | ⟨e', he', hcomes'⟩
  · cases hend.symm.trans he
  · cases he'.symm.trans he
    have hsaved' : ¬ Unsaved (deedsBy i b.history).reverse := fun hu =>
      hsaved fun s id hd => hu s id (List.mem_reverse.mpr hd)
    exact Bool.false_ne_true ((hcomes'.hosts hsaved').symm.trans hhosts)

theorem Secluded.step {calls : Call A → Prop} (h : b.Secluded)
    (hcomes : b.Heeding (fun past e => TaskComes calls past.reverse e) fun _ => True) {m : Move A}
    (hwait : ∀ task s, m = .go task s → ∀ i < b.tasks.length, i ≠ task → b.waits i = true) :
    (b.step m).Secluded := by
  cases m with
  | call c => exact h.add hcomes.begun _
  | attempt =>
    change b.beginAttempt.Secluded
    unfold beginAttempt
    split
    · split
      · exact h.add hcomes.begun _
      · exact h
    · exact h
  | wake =>
    change b.wake.Secluded
    unfold wake
    dsimp only
    split
    · split
      · exact ⟨h.tasks, h.history⟩
      · exact h
    · exact h
  | go task s =>
    change (b.advance task s).Secluded
    unfold advance
    split
    · rename_i d t' w' hb
      obtain ⟨t, ht, hadvance⟩ := Option.bind_eq_some_iff.mp hb
      have halone := h.tasks task t _ ht (Task.next?_of_advance hadvance)
      refine ⟨fun i t₁ e hi he => ?_, fun i d' he => ?_, h.history⟩
      · by_cases hj : i = task
        · subst hj
          refine halone.cons fun i' d' he => ?_
          cases he
          rfl
        · rw [List.getElem?_set_ne (Ne.symm hj)] at hi
          refine .of_unsaved ?_
          rw [deedsBy_did_ne (Ne.symm hj)]
          have hw := hwait task s rfl i (List.getElem?_eq_some_iff.mp hi).1 hj
          exact unsaved_of_waits hcomes hi he hw
      · cases he
        exact halone
    · exact h
  | fire id =>
    change (b.fire id).Secluded
    unfold fire
    split
    · have hfired (i : Nat) (d : Deed A) : Happening.fired b.world id ≠ .did i d := fun he => nomatch he
      refine ⟨fun i task e hi he => ?_, (fun i d he => absurd he (hfired i d)), h.history⟩
      exact (h.tasks i task e hi he).cons fun i d he => absurd he (hfired i d)
    · exact h
  | disturb s => exact ⟨h.tasks, h.history⟩

theorem secluded_run (d : Device) (version : String) {ms : List (Move A)}
    (h : (start A d version).reentrant ms = true) : ((start A d version).run ms).Secluded := by
  have hrest (before after : List (Move A)) (hb : ((start A d version).run before).Secluded)
      (ha : ((start A d version).run before).reentrant after = true) :
      ((start A d version).run (before ++ after)).Secluded := by
    induction after generalizing before with
    | nil => simpa using hb
    | cons m after ih =>
      obtain ⟨hwait, hafter⟩ := reentrant_cons ha
      have hstep : (start A d version).run (before ++ [m]) = ((start A d version).run before).step m :=
        run_append _ before [m]
      rw [← hstep] at hafter
      rw [← List.singleton_append, ← List.append_assoc]
      exact ih _ (hstep ▸ hb.step (comes_run d version before) hwait) hafter
  exact hrest [] ms ⟨(fun _ _ _ h => nomatch h), trivial⟩ h

end Boot

/-! ## The engine's own handler -/

/-- The calls that leave it to the engine to handle a job. -/
def Call.Plain : Call A → Prop
  | .enable _ handler _ => handler = none
  | .download .. => False
  | _ => True

namespace World

theorem admission_eq_ok {w : World A} {a : Admission A} (h : w.admission = .ok a) :
    ∃ e, w.engine.enabled = some e ∧ a = ⟨e.handler, e.config, w.engine.version⟩ := by
  unfold admission at h
  split at h
  · cases h
  · rename_i e he
    cases h
    exact ⟨e, he, rfl⟩

theorem unattended_undergo {w : World A} (h : w.Unattended) (s : Saying) {e : Effect A}
    (hi : ∀ config handler, e = .install config handler → handler = none) : (w.undergo s e).2.Unattended := by
  have hsame {w' : World A} (he : w'.engine.enabled = w.engine.enabled) : w'.Unattended := fun e hw => h e (he ▸ hw)
  rw [undergo_snd]
  cases e with
  | install config handler =>
    obtain rfl := hi config handler rfl
    have hinstalling := w.installing config none
    change (w.install config none).2.Unattended
    generalize (w.install config none).1 = r, (w.install config none).2 = w' at hinstalling
    cases hinstalling with
    | refused => exact h
    | silent | polling =>
      rintro e ⟨⟩
      rfl
  | uninstall =>
    have huninstalling := w.uninstalling
    change w.uninstall.2.Unattended
    generalize w.uninstall.1 = r, w.uninstall.2 = w' at huninstalling
    cases huninstalling with
    | refused => exact h
    | silent | polling => exact fun e he => nomatch he
  | beginValidation seconds => exact hsame (w.trialStep_beginValidation seconds).enabled
  | markValid => exact hsame w.trialStep_markValid.enabled
  | markInvalid => exact hsame w.trialStep_markInvalid.enabled
  | settleTrial => exact hsame w.trialStep_settleTrial.enabled
  | joinConfirmation => exact hsame w.trialStep_joinConfirmation.enabled
  | claim =>
    refine hsame ?_
    change w.claim.2.engine.enabled = _
    unfold claim
    split <;> rfl
  | _ => exact h

end World

theorem Network.openImage_eq_ok {n : Network} {url : String} {source : Source} (h : n.openImage url = .ok source) :
    ∃ served, n.images.lookup url = some served ∧ source = served.source := by
  unfold openImage at h
  split at h
  · rename_i served hlookup
    cases h
    exact ⟨served, hlookup, rfl⟩
  · cases h

theorem Device.openUpdate_eq_ok {d : Device} {flash : Flash} (h : d.openUpdate = .ok flash) :
    flash = .opened d.slots.failWrites := by
  unfold openUpdate at h
  split at h
  · cases h
  · cases h
    rfl

/-- The image is what the network served for the job when it was opened, as much of it as was expected. -/
def ImageFor (job : Job) (image : Bytes) (t : List (Deed A)) : Prop :=
  ∃ s served, ⟨s, .openImage job.url, .ok served.source⟩ ∈ t ∧ s.device.network.images.lookup job.url = some served ∧
    image = served.data.take job.size ∧ image.length = job.size

namespace Boot

variable {d : Device} {version : String} {ms : List (Move A)}

theorem unattended_run (hcalls : ∀ c, .call c ∈ ms → c.Plain) :
    Throughout (fun x _ => x.found.Unattended) ((start A d version).run ms).history := by
  refine (run_throughout_heeding (P := fun w _ => w.Unattended) (fun ht hw hg => ?_) d version
    (fun e he => nomatch he) (comes_run d version ms).history).2
  cases ht with
  | paced | surrounded => exact hw
  | fired id => exact fun e he => hw e (((World.trialStep_fireOnce _ id).enabled).symm.trans he)
  | did task s e c =>
    refine World.unattended_undergo hw s fun config handler he => ?_
    have hcomes := hg.1 task _ rfl
    dsimp only at hcomes
    rw [he] at hcomes
    obtain ⟨config, test, hcall⟩ := hcomes.installs
    exact hcalls _ hcall

/-- Nobody but the task that has staged an image stages another as long as that task holds the engine. -/
theorem unstaged_while_held (hcalls : ∀ c, .call c ∈ ms → c.Plain) {later mid earlier : List (Happening A)}
    {i : Nat} {s : World A} {image : Bytes}
    (h : ((start A d version).run ms).history = later ++ (mid ++ .did i ⟨s, .stage image, ()⟩ :: earlier))
    (hmid : ∀ x ∈ deedsBy i mid, x.request.OfTelling) :
    ∀ j x, .did j x ∈ mid → ∀ image', x.request ≠ .stage image' := by
  have hcomes := (comes_run d version ms).history
  have hclaimed := (claimed_run d version ms).2
  have hdownload (job : Job) (chunkSize : Nat) : Move.call (.download job chunkSize) ∉ ms := fun hc => hcalls _ hc
  rw [h] at hcomes hclaimed
  intro j x hx image' he
  obtain ⟨m₁, m₂, rfl⟩ := List.append_of_mem hx
  rw [List.append_assoc] at hcomes hclaimed
  have hj : holds (deedsBy j (m₂ ++ .did i ⟨s, .stage image, ()⟩ :: earlier)) = true := by
    have hstage := hcomes.drop.split j x rfl
    rw [he] at hstage
    have hheld := hstage.claimed hdownload
    rwa [List.reverse_reverse] at hheld
  have hi : holds (deedsBy i (m₂ ++ .did i ⟨s, .stage image, ()⟩ :: earlier)) = true := by
    have hstage : TaskComes _ (deedsBy i earlier).reverse (.stage image) := hcomes.drop.drop.2.split i _ rfl
    have hheld := hstage.claimed hdownload
    rw [List.reverse_reverse] at hheld
    rw [deedsBy_append, deedsBy_did, holds_append, holds_cons]
    · exact hheld
    · exact id
    · intro y hy
      have hold : .did i y ∈ m₁ ++ .did j x :: m₂ :=
        List.mem_append_right _ (List.mem_cons_of_mem _ (mem_deedsBy.mp hy))
      exact (hmid y (mem_deedsBy.mpr hold)).not_ofClaim
  obtain rfl := hclaimed.drop.split.unique _ _ hj hi
  have htold := hmid x (mem_deedsBy.mpr hx)
  rw [he] at htold
  exact htold

/-- What a task has staged and then saved stays for the next boot as long as that task is not interrupted. -/
theorem nextBoot_of_saved (hcalls : ∀ c, .call c ∈ ms → c.Plain) {later earlier : List (Happening A)} {i : Nat}
    {s₁ s₂ : World A} {image : Bytes} {id : String} {leaving telling past : List (Deed A)}
    (h : ((start A d version).run ms).history = later ++ earlier)
    (hdeeds : deedsBy i earlier =
      leaving ++ ⟨s₂, .saveJobId id, .ok ()⟩ :: (telling ++ ⟨s₁, .stage image, ()⟩ :: past))
    (halone : Alone i earlier) (hquiet : ∀ x ∈ leaving, x.request.Quiet)
    (htold : ∀ x ∈ telling, x.request.OfTelling) :
    d.nextBoot.since earlier = ⟨some image, some (Bytes.ofText id)⟩ := by
  obtain ⟨between, saved, rfl, hbetween, hsaved⟩ := split_of_deedsBy leaving hdeeds
  obtain ⟨mid, staged, rfl, hmid, -⟩ := split_of_deedsBy telling hsaved
  have hbetween : ∀ j x, .did j x ∈ between → x.request.Quiet := by
    intro j x hx
    obtain rfl := halone between _ _ _ rfl j x hx
    exact hquiet x (hbetween ▸ mem_deedsBy.mpr hx)
  have hwhole : ((start A d version).run ms).history =
      (later ++ between ++ [.did i ⟨s₂, .saveJobId id, .ok ()⟩]) ++
        (mid ++ .did i ⟨s₁, .stage image, ()⟩ :: staged) := by
    rw [h]
    simp
  have hmid : ∀ j x, .did j x ∈ mid → ∀ image, x.request ≠ .stage image :=
    unstaged_while_held hcalls hwhole (hmid ▸ htold)
  rw [NextBoot.since_quiet _ hbetween]
  exact congrArg (NextBoot.mk · _) ((NextBoot.staged_since _ hmid).trans rfl)

/-- If calls are made within calls, a restart finds the image of its own fetch staged and its id on record. -/
theorem durable_of_restart (hcalls : ∀ c, .call c ∈ ms → c.Plain) (hre : (start A d version).reentrant ms = true)
    {later earlier : List (Happening A)} {i : Nat} {s s₁ : World A} {before t : List (Deed A)} {a : Admission A}
    {job : Job} (h : ((start A d version).run ms).history = later ++ .did i ⟨s, .restart, ()⟩ :: earlier)
    (hdeeds : (deedsBy i earlier).reverse = before ++ t)
    (hcourse : Activity.AppliedCourse s₁ a job (t ++ [⟨s, .restart, ()⟩])) :
    (∃ s, ⟨s, .takeUp job, ()⟩ ∈ t) ∧
      ∃ image, s.nextBoot = ⟨some image, some (Bytes.ofText job.id)⟩ ∧ ImageFor job image t := by
  have hgenuine := (genuine_run d version ms).2
  have hunattended : Throughout _ ((start A d version).run ms).history := unattended_run hcalls
  have halone := (secluded_run d version hre).history
  rw [h] at hgenuine hunattended halone
  have hdid {x : Deed A} (hx : x ∈ t) : ∃ l r, earlier = l ++ .did i x :: r :=
    List.append_of_mem (mem_deedsBy.mp (List.mem_reverse.mp (hdeeds ▸ List.mem_append_right _ hx)))
  have hreplied {x : Deed A} (hx : x ∈ t) : ∃ saying, x.reply = (x.found.undergo saying x.request).1 := by
    obtain ⟨l, r, rfl⟩ := hdid hx
    exact hgenuine.drop.2.split.2
  have ha : a.handler = none := by
    have hadmitted : ⟨s₁, .admission, .ok a⟩ ∈ t := by
      simpa using hcourse.admitted.mpr ⟨rfl, rfl⟩
    obtain ⟨l, r, rfl⟩ := hdid hadmitted
    have hun : s₁.Unattended := hunattended.drop.2.split
    obtain ⟨saying, hr⟩ := hreplied hadmitted
    have hr : s₁.admission = .ok a := hr.symm
    obtain ⟨e, he, rfl⟩ := World.admission_eq_ok hr
    exact hun e he
  obtain ⟨downloading, image, s', leaving, hdownloaded, rfl, hquiet, ⟨s₅, htake⟩⟩ := hcourse.saved ha
  refine ⟨⟨s₅, List.mem_append_left _ htake⟩, image, ?_, ?_⟩
  · obtain ⟨x, s₂, source, s₃, flash, room, dl, notes, s₄, rest, rfl, -, -, -, hrest⟩ := hdownloaded
    have hpast : deedsBy i earlier = leaving.reverse ++ ⟨s', .saveJobId job.id, .ok ()⟩ ::
        (rest.reverse ++ ⟨s₄, .stage image, ()⟩ :: (notes.reverse ++
          ⟨s₃, .openUpdate, .ok flash⟩ :: ⟨s₂, .openImage job.url, .ok source⟩ :: x.reverse ++ before.reverse)) := by
      rw [← List.reverse_reverse (deedsBy i earlier), hdeeds]
      simp
    have hwhole : ((start A d version).run ms).history = (later ++ [.did i ⟨s, .restart, ()⟩]) ++ earlier := by
      rw [h, List.append_assoc]
      rfl
    exact hgenuine.split.1.trans (nextBoot_of_saved hcalls hwhole hpast (halone.split i _ rfl)
      (by simpa using hquiet) (by simpa using hrest))
  · obtain ⟨x, s₂, source, s₃, flash, room, dl, notes, s₄, rest, rfl, hroom, hrun, rfl, -⟩ := hdownloaded
    obtain ⟨_, hsource⟩ := hreplied (x := ⟨s₂, .openImage job.url, .ok source⟩) (by simp)
    obtain ⟨_, hflash⟩ := hreplied (x := ⟨s₃, .openUpdate, .ok flash⟩) (by simp)
    have hsource : s₂.device.network.openImage job.url = .ok source := hsource.symm
    have hflash : s₃.device.openUpdate = .ok flash := hflash.symm
    obtain ⟨served, hlookup, rfl⟩ := Network.openImage_eq_ok hsource
    obtain rfl := Device.openUpdate_eq_ok hflash
    obtain ⟨himage, hlength, -⟩ := Download.complete hroom hrun
    exact ⟨s₂, served, by simp, hlookup, himage, hlength⟩

end Boot

/-! ## Restarts and their fetches -/

def Happening.restartedBy (task : Nat) : Happening A → Bool
  | .did i d => i == task && d.request.restarts
  | .fired .. => false

theorem exists_restart {history : List (Happening A)} {task : Nat}
    (h : history.any (Happening.restartedBy task) = true) :
    ∃ later s earlier, history = later ++ .did task ⟨s, .restart, ()⟩ :: earlier := by
  obtain ⟨x, hx, hrestarted⟩ := List.any_eq_true.mp h
  obtain ⟨later, earlier, rfl⟩ := List.append_of_mem hx
  cases x with
  | fired => cases hrestarted
  | did i d =>
    obtain ⟨hi, hd⟩ := Bool.and_eq_true_iff.mp hrestarted
    obtain rfl := eq_of_beq hi
    obtain ⟨s, e, r⟩ := d
    obtain rfl : e = .restart := Effect.eq_restart hd
    exact ⟨later, s, earlier, rfl⟩

def AsksRestart (t : List (Deed A)) : Prop :=
  ∃ s e r, (⟨s, .admission, r⟩ : Deed A) ∈ t ∧ s.engine.enabled = some e ∧ e.config.restartAfterApply = true

theorem Activity.AppliedCourse.asksRestart_iff {s₁ : World A} {a : Admission A} {job : Job} {t : List (Deed A)}
    (h : AppliedCourse s₁ a job t) (hreplied : s₁.admission = .ok a) :
    AsksRestart t ↔ a.config.restartAfterApply = true := by
  obtain ⟨e, he, rfl⟩ := World.admission_eq_ok hreplied
  constructor
  · rintro ⟨s, e', r, hd, he', hasked⟩
    obtain ⟨rfl, -⟩ := h.admitted.mp hd
    obtain rfl := Option.some.inj (he.symm.trans he')
    exact hasked
  · exact fun hasked => ⟨s₁, e, _, h.admitted.mpr ⟨rfl, rfl⟩, he, hasked⟩

namespace Boot

variable {d : Device} {version : String} {ms : List (Move A)}

/-- No task asks for a restart twice. -/
theorem restarted_once {i : Nat} {s : World A} {later earlier : List (Happening A)}
    (h : ((start A d version).run ms).history = later ++ .did i ⟨s, .restart, ()⟩ :: earlier) :
    (deedsBy i ((start A d version).run ms).history).countP (·.request.restarts) = 1 := by
  have hcomes := (comes_run d version ms).history
  rw [h] at hcomes
  have hearlier : (deedsBy i earlier).countP (·.request.restarts) = 0 := by
    have hrestart : TaskComes _ (deedsBy i earlier).reverse .restart := hcomes.split i _ rfl
    refine List.countP_eq_zero.mpr fun x hx => ?_
    rw [hrestart.first_restart x (List.mem_reverse.mpr hx)]
    exact Bool.false_ne_true
  have hlater : (deedsBy i later).countP (·.request.restarts) = 0 := by
    refine List.countP_eq_zero.mpr fun x hx hagain => ?_
    obtain ⟨l, r, rfl⟩ := List.append_of_mem (mem_deedsBy.mp hx)
    rw [List.append_assoc] at hcomes
    have hx := hcomes.split i x rfl
    rw [Effect.eq_restart hagain] at hx
    have hfirst := hx.first_restart ⟨s, .restart, ()⟩ (by simp [deedsBy_append, deedsBy_did])
    cases hfirst
  rw [h, deedsBy_append, deedsBy_did, List.countP_append, List.countP_cons, hlater, hearlier]
  rfl

/-- A fetch within a task is a whole fetch and the task has no other. -/
theorem restarted_fetch {i : Nat} {s : World A} {later earlier : List (Happening A)}
    (h : ((start A d version).run ms).history = later ++ .did i ⟨s, .restart, ()⟩ :: earlier) :
    ∃ before t id, (deedsBy i earlier).reverse = before ++ t ∧
      Ran Activity.fetch (t ++ [⟨s, .restart, ()⟩]) (some (.ok (.applied id))) ∧
      ∀ t' o, Ran Activity.fetch t' o → t' <:+: (deedsBy i ((start A d version).run ms).history).reverse →
        ⟨s, .restart, ()⟩ ∈ t' → t' = t ++ [⟨s, .restart, ()⟩] := by
  have hcomes := (comes_run d version ms).history
  rw [h] at hcomes
  have hrestart : TaskComes _ (deedsBy i earlier).reverse .restart := hcomes.split i _ rfl
  obtain ⟨before, t, id, hdeeds, -, hran⟩ := hrestart.restart s
  refine ⟨before, t, id, hdeeds, hran, fun t' o hran' hin hmem => ?_⟩
  obtain ⟨u, v, rfl⟩ := List.append_of_mem hmem
  obtain ⟨id', hagain⟩ := (Activity.comes_fetch hran'.comes).restart s
  have hlast : u ++ ⟨s, .restart, ()⟩ :: v = (u ++ [⟨s, .restart, ()⟩]) ++ v := by simp
  rw [hlast] at hran'
  obtain rfl := hagain.eq_nil hran'
  obtain ⟨x, y, hxy⟩ := hin
  have hwhole : (x ++ u) ++ ⟨s, .restart, ()⟩ :: y = (deedsBy i ((start A d version).run ms).history).reverse := by
    simpa using hxy
  have hsplit : (x ++ u) ++ ⟨s, .restart, ()⟩ :: y =
      (before ++ t) ++ ⟨s, .restart, ()⟩ :: (deedsBy i later).reverse := by
    rw [hwhole, h, deedsBy_append, deedsBy_did, ← hdeeds]
    simp
  have hfirst : ∀ d ∈ x ++ u, d.request.restarts = false := by
    have hone : ((x ++ u) ++ ⟨s, .restart, ()⟩ :: y).countP (·.request.restarts) = 1 := by
      rw [hwhole, List.countP_reverse, restarted_once h]
    have hrestarts : (⟨s, .restart, ()⟩ : Deed A).request.restarts = true := rfl
    rw [List.countP_append, List.countP_cons, if_pos hrestarts] at hone
    have hnone : (x ++ u).countP (·.request.restarts) = 0 := by omega
    exact fun d hd => Bool.eq_false_iff.mpr (List.countP_eq_zero.mp hnone d hd)
  have hfirst' : ∀ d ∈ before ++ t, d.request.restarts = false := hdeeds ▸ hrestart.first_restart
  obtain ⟨hsame, -, -⟩ := append_cons_inj (p := (·.request.restarts)) hsplit rfl rfl hfirst hfirst'
  obtain ⟨_, _, _, -, hcourse⟩ := Activity.ran_applied hran
  obtain ⟨_, _, _, -, hcourse'⟩ := Activity.ran_applied hagain
  refine hcourse'.eq_of_append hcourse (x := x) (y := before) ?_
  rw [← List.append_assoc, hsame, List.append_assoc]

theorem admitted_run {i : Nat} {t : List (Deed A)} {s : World A} {a : Admission A}
    (ht : t <:+: (deedsBy i ((start A d version).run ms).history).reverse) (hd : ⟨s, .admission, .ok a⟩ ∈ t) :
    s.admission = .ok a := by
  have hdid : .did i ⟨s, .admission, .ok a⟩ ∈ ((start A d version).run ms).history :=
    mem_deedsBy.mp (List.mem_reverse.mp (ht.subset hd))
  obtain ⟨l, r, hsplit⟩ := List.append_of_mem hdid
  have hgenuine := (genuine_run d version ms).2
  rw [hsplit] at hgenuine
  obtain ⟨-, _, hreply⟩ := hgenuine.split
  exact hreply.symm

/-- A fetch that applies a job asks for a restart once if it was let in under a configuration that asks for it, and
never otherwise. Every restart is asked for by just one fetch, which has applied a job under such a configuration.
If calls are made within calls, it finds that job's id on record and that job's image staged. -/
theorem restarts_into_applied_job (d : Device) (version : String) (ms : List (Move A)) :
    (∀ i t id, Ran Activity.fetch t (some (.ok (.applied id))) →
      t <:+: (deedsBy i ((start A d version).run ms).history).reverse →
      (AsksRestart t → t.countP (·.request.restarts) = 1) ∧
        (¬ AsksRestart t → t.countP (·.request.restarts) = 0)) ∧
    ∀ later i s earlier, ((start A d version).run ms).history = later ++ .did i ⟨s, .restart, ()⟩ :: earlier →
      ∃ t id, Ran Activity.fetch t (some (.ok (.applied id))) ∧
        t <:+: (deedsBy i ((start A d version).run ms).history).reverse ∧ ⟨s, .restart, ()⟩ ∈ t ∧ AsksRestart t ∧
        (deedsBy i ((start A d version).run ms).history).countP (·.request.restarts) = 1 ∧
        (∀ t' o, Ran Activity.fetch t' o → t' <:+: (deedsBy i ((start A d version).run ms).history).reverse →
          ⟨s, .restart, ()⟩ ∈ t' → t' = t) ∧
        ((∀ c, .call c ∈ ms → c.Plain) → (start A d version).reentrant ms = true →
          s.nextBoot.jobId = some (Bytes.ofText id) ∧ ∃ job image, job.id = id ∧ (∃ s, ⟨s, .takeUp job, ()⟩ ∈ t) ∧
            ImageFor job image t ∧ s.nextBoot.staged = some image) := by
  refine ⟨fun i t id hran ht => ?_, fun later i s earlier h => ?_⟩
  · obtain ⟨s₁, a, job, -, hcourse⟩ := Activity.ran_applied hran
    have hasks := hcourse.asksRestart_iff (admitted_run ht (hcourse.admitted.mpr ⟨rfl, rfl⟩))
    rw [hasks, hcourse.countP_restarts]
    cases a.config.restartAfterApply <;> simp
  · obtain ⟨before, t, id, hdeeds, hran, hunique⟩ := restarted_fetch h
    have hin : t ++ [⟨s, .restart, ()⟩] <:+: (deedsBy i ((start A d version).run ms).history).reverse := by
      refine ⟨before, (deedsBy i later).reverse, ?_⟩
      rw [h, deedsBy_append, deedsBy_did, List.reverse_append, List.reverse_cons, hdeeds]
      simp
    obtain ⟨s₁, a, job, rfl, hcourse⟩ := Activity.ran_applied hran
    have hasks := hcourse.asksRestart_iff (admitted_run hin (hcourse.admitted.mpr ⟨rfl, rfl⟩))
    have hasked : a.config.restartAfterApply = true := by
      have hpos : 0 < (t ++ [(⟨s, .restart, ()⟩ : Deed A)]).countP (·.request.restarts) :=
        List.countP_pos_iff.mpr ⟨_, List.mem_append_right _ List.mem_cons_self, rfl⟩
      rw [hcourse.countP_restarts] at hpos
      cases hasked : a.config.restartAfterApply with
      | true => rfl
      | false => simp [hasked] at hpos
    refine ⟨_, _, hran, hin, by simp, hasks.mpr hasked, restarted_once h, hunique, fun hcalls hre => ?_⟩
    obtain ⟨⟨s₅, htake⟩, image, hnext, hs, served, hopen, himage⟩ := durable_of_restart hcalls hre h hdeeds hcourse
    rw [hnext]
    exact ⟨rfl, job, image, rfl, ⟨s₅, List.mem_append_left _ htake⟩,
      ⟨hs, served, List.mem_append_left _ hopen, himage⟩, rfl⟩

/-- A job is offered, and a fetch has come to report that it is accepted. -/
def accepting : List (Move Agent.application) :=
  enabling ++ [.disturb ⟨[.answer offeredJob, .answer offeredJob], [], [("u", .plain [1, 2, 3, 4])], .none,
    false, false, false⟩, .call .fetch] ++ List.replicate 7 (.go 1 obliging)

/-- While that report is on its way the engine is disabled and enabled again without restarts, and a second fetch
is called for; then the first one goes on. -/
def reconfiguring : List (Move Agent.application) :=
  accepting ++ [.call .disable, .go 2 obliging,
      .call (.enable { Config.default with restartAfterApply := false } none none)] ++
    List.replicate 8 (.go 3 obliging) ++ [.call .fetch, .go 4 obliging] ++ List.replicate 40 (.go 1 obliging)

theorem restarts_into_applied_job_reconfiguring :
    (∀ c, .call c ∈ reconfiguring → c.Plain) ∧
    (start Agent.application (.fresh .valid) "1.0.0").reentrant reconfiguring = true ∧
    ((start Agent.application (.fresh .valid) "1.0.0").run reconfiguring).world.engine.enabled.map
      (·.config.restartAfterApply) = some false ∧
    ∃ later s earlier t id, ((start Agent.application (.fresh .valid) "1.0.0").run reconfiguring).history =
        later ++ .did 1 ⟨s, .restart, ()⟩ :: earlier ∧
      Ran Activity.fetch t (some (.ok (.applied id))) ∧
      t <:+: (deedsBy 1 ((start Agent.application (.fresh .valid) "1.0.0").run reconfiguring).history).reverse ∧
      AsksRestart t ∧ t.countP (·.request.restarts) = 1 ∧ s.nextBoot.jobId = some (Bytes.ofText id) ∧
      ∃ job image, job.id = id ∧ ImageFor job image t ∧ s.nextBoot.staged = some image := by
  obtain ⟨honce, hrestart⟩ := restarts_into_applied_job (A := Agent.application) (.fresh .valid) "1.0.0" reconfiguring
  have hcalls : ∀ c, .call c ∈ reconfiguring → c.Plain := by
    intro c hc
    simp [reconfiguring, accepting, enabling] at hc
    rcases hc with rfl | rfl | rfl | rfl | rfl <;> first | rfl | trivial
  have hre : (start Agent.application (.fresh .valid) "1.0.0").reentrant reconfiguring = true := by decide +kernel
  have hsome : ((start Agent.application (.fresh .valid) "1.0.0").run reconfiguring).history.any
      (Happening.restartedBy 1) = true := by decide +kernel
  obtain ⟨later, s, earlier, h⟩ := exists_restart hsome
  obtain ⟨t, id, hran, hin, -, hasks, -, -, hdurable⟩ := hrestart later 1 s earlier h
  obtain ⟨hid, job, image, hjob, -, himage, hstaged⟩ := hdurable hcalls hre
  exact ⟨hcalls, hre, by decide +kernel, later, s, earlier, t, id, h, hran, hin, hasks,
    (honce 1 t id hran hin).1 hasks, hid, job, image, hjob, himage, hstaged⟩

/-- A fetch on another thread stages an image after the first one has let its job go, and before that restarts. -/
def overtaken : List (Move Agent.application) :=
  enabling ++ [.disturb ⟨[.answer offeredJob, .answer offeredJob], [], [("u", .plain [1, 2, 3, 4])], .none,
    false, false, false⟩, .call .fetch] ++ List.replicate 23 (.go 1 obliging) ++
    [.disturb ⟨[.answer offeredJob], [], [("u", .plain [5, 6, 7, 8])], .none, false, false, false⟩, .call .fetch] ++
    List.replicate 40 (.go 2 obliging) ++ List.replicate 3 (.go 1 obliging)

-- Between threads a restart may find the image of another fetch.
example :
    (start Agent.application (.fresh .valid) "1.0.0").reentrant overtaken = false ∧
    (((start Agent.application (.fresh .valid) "1.0.0").run overtaken).history.any fun x =>
      x.restartedBy 1 && x.found.nextBoot.staged == some [5, 6, 7, 8]) = true := by decide +kernel

end Boot

end FirmwareUpdate
