import FirmwareUpdate.Proofs.Examinations
import FirmwareUpdate.Proofs.Ledger
import FirmwareUpdate.Proofs.Lives
import FirmwareUpdate.Proofs.TrialDecisions

/-!
# The job id in a rollback and after it

An image on trial is rolled back: its self-test fails, the rollback timer fires, or the application asks
for it. Whatever still runs on that boot leaves the job id where it is, unless the trial has been settled
before. An id that is lost on a later boot stays lost, and the boots after that have nothing to report.
-/

namespace FirmwareUpdate

open Routine

variable {A : Application}

namespace Happening

def rollsBack (x : Happening A) : Bool :=
  match x with
  | did _ ⟨_, .markInvalid, _⟩ | fired .. => x.succeeds
  | _ => false

/-- The trial is settled in the image's favour; what is left for whoever settled it is to forget the job. -/
def settles : Happening A → Bool
  | did _ ⟨_, .settleTrial, true⟩ => true
  | _ => false

end Happening

/-! ## The boot that is rolled back -/

theorem Device.rollback_of_ok {d : Device} (h : d.rollback.1 = .ok ()) : d.faults.rollback = false := by
  rw [Bool.eq_false_iff]
  intro hf
  simp [rollback, hf] at h

theorem Happening.succeeds_iff {x : Happening A} : x.succeeds = true ↔ x.call = some (.ok ()) := by
  unfold succeeds
  rcases x.call with _ | ⟨c⟩ | ⟨⟩ <;> simp

open World

theorem Turn.rolledBack {w w' : World A} {h h' : List (Happening A)} (ht : Turn w h w' h')
    (hw : (∃ x ∈ h, x.rollsBack = true) → RolledBack w) : (∃ x ∈ h', x.rollsBack = true) → RolledBack w' := by
  cases ht with
  | paced c => exact fun hx => (hw hx).of_untouched (w.untouched_withConfirmation c)
  | surrounded s => exact fun hx => (hw hx).of_untouched ⟨rfl, rfl, rfl, rfl, rfl, rfl, rfl, rfl⟩
  | fired id hf =>
    rw [fireOnce_of_fuse hf]
    rintro ⟨x, hx, hrolls⟩
    rcases List.mem_cons.mp hx with rfl | hx
    · have hcall := Happening.succeeds_iff.mp hrolls
      by_cases hon : w.OnTrial
      · have hok : w.device.rollback.1 = .ok () := by simpa [Happening.call, hon] using hcall
        have hf := Device.rollback_of_ok hok
        exact (rolledBack_rollbackDue (w := w.expire id) hon hf).1
      · simp [Happening.call, hon] at hcall
    · have hrolled := (hw ⟨x, hx, hrolls⟩).of_untouched (w.untouched_expire id)
      rw [rollbackDue_of_not_onTrial _ hrolled.not_onTrial]
      exact hrolled
  | did task s e c =>
    rintro ⟨x, hx, hrolls⟩
    refine RolledBack.of_untouched ?_ (untouched_withConfirmation _ c)
    rcases List.mem_cons.mp hx with rfl | hx
    · unfold Happening.rollsBack at hrolls
      split at hrolls
      · rename_i hd
        cases hd
        have hok : w.device.rollback.1 = .ok () := Option.some.inj (Happening.succeeds_iff.mp hrolls)
        apply rolledBack_markInvalid
        rw [Device.rollback_ok (Device.rollback_of_ok hok)]
        exact ⟨rfl, rfl⟩
      · rename_i hd
        cases hd
      · cases hrolls
    · exact (hw ⟨x, hx, hrolls⟩).undergo s e

namespace Boot

theorem rolledBack_run (d : Device) (version : String) (ms : List (Move A)) :
    ((∃ x ∈ ((start A d version).run ms).history, x.rollsBack = true) →
      RolledBack ((start A d version).run ms).world) ∧
    Throughout (fun x earlier => (∃ y ∈ earlier, y.rollsBack = true) → RolledBack x.found)
      ((start A d version).run ms).history :=
  run_throughout (P := fun w h => (∃ x ∈ h, x.rollsBack = true) → RolledBack w) (fun ht hw => ht.rolledBack hw)
    d version (fun ⟨_, hx, _⟩ => nomatch hx) ms

/-- If an image on trial is rolled back before its trial is settled, nobody erases the id of its job. -/
theorem unerased_of_rolledBack {d : Device} (hd : d.slots.running = .pendingVerify) (version : String)
    (ms : List (Move A)) {later : List (Happening A)} {x : Happening A} {earlier : List (Happening A)}
    (h : ((start A d version).run ms).history = later ++ x :: earlier) (hx : x.rollsBack = true)
    (hu : ∀ y ∈ earlier, y.settles = false) :
    ∀ y ∈ ((start A d version).run ms).history, y.erases = false := by
  have hg := (genuine_run d version ms).2
  have hrolled := (rolledBack_run d version ms).2
  -- whoever wants to settle the trial later on finds the image condemned
  have hunsettled : ∀ y ∈ ((start A d version).run ms).history, y.settles = false := by
    intro y hy
    rw [Bool.eq_false_iff]
    intro hsettles
    unfold Happening.settles at hsettles
    split at hsettles
    · rename_i task s
      have hi := ne_invalid_of_settled hg hy
      rw [h] at hy hrolled
      rcases List.mem_append.mp hy with hlater | hrest
      · obtain ⟨later', between, rfl⟩ := List.append_of_mem hlater
        rw [List.append_assoc] at hrolled
        exact hi (hrolled.split ⟨x, by simp, hx⟩).state
      · rcases List.mem_cons.mp hrest with rfl | hearlier
        · cases hx
        · exact absurd (hu _ hearlier) nofun
    · cases hsettles
  intro y hy
  rw [Bool.eq_false_iff]
  intro herases
  unfold Happening.erases at herases
  split at herases
  · rename_i task s
    obtain ⟨later', earlier', h'⟩ := List.append_of_mem hy
    have hconcluding := concluding_of_erased (by simp [hd]) version ms h'
    generalize hp : deedsBy task earlier' = past at hconcluding
    obtain ⟨s₀, -⟩ := hconcluding
    have hsettled : .did task ⟨s₀, .settleTrial, true⟩ ∈ earlier' := mem_deedsBy.mp (hp ▸ List.mem_cons_self)
    have hmem : .did task ⟨s₀, .settleTrial, true⟩ ∈ ((start A d version).run ms).history := by
      rw [h']
      exact List.mem_append_right _ (List.mem_cons_of_mem _ hsettled)
    exact absurd (hunsettled _ hmem) nofun
  · cases herases

end Boot

/-- What a boot that was rolled back leaves for the next one. -/
theorem Session.leaves_of_rolledBack {d : Device} (hd : d.slots.running = .pendingVerify) {id : String}
    (hid : d.nextBoot.jobId = some (Bytes.ofText id)) (s : Session A) {later : List (Happening A)}
    {x : Happening A} {earlier : List (Happening A)} (h : (s.boot d).history = later ++ x :: earlier)
    (hx : x.rollsBack = true) (hu : ∀ y ∈ earlier, y.settles = false)
    (hs : ∀ y ∈ (s.boot d).history, y.saved? = none) :
    (s.boot d).world.nextBoot.jobId = some (Bytes.ofText id) ∧ (d.after [s]).slots.running = .valid := by
  have hunerased := Boot.unerased_of_rolledBack hd s.version s.moves h hx hu
  have hrecord := (Boot.genuine_run (A := A) d s.version s.moves).1
  have hrolled := (Boot.rolledBack_run (A := A) d s.version s.moves).1
    ⟨x, (h : (Boot.run _ _).history = _) ▸ by simp, hx⟩
  refine ⟨?_, ?_⟩
  · refine (congrArg NextBoot.jobId hrecord).trans ?_
    exact (jobId_since_kept fun y hy => ⟨hs y hy, hunerased y hy⟩).trans hid
  · have hrequested : (s.boot d).world.device.slots.rollbackRequested = true := hrolled.requested
    simp [Device.after, Device.reboot, Slots.reboot, hrequested, Device.note]

/-! ## The next boot -/

theorem jobId_since_lost {n : NextBoot} {later earlier : List (Happening A)}
    (h : (n.since earlier).jobId = none) (hs : ∀ x ∈ later, x.saved? = none) :
    (n.since (later ++ earlier)).jobId = none := by
  induction later with
  | nil => exact h
  | cons x later ih =>
    rw [List.forall_mem_cons] at hs
    rw [List.cons_append, jobId_since_cons, hs.1, ih hs.2]
    cases x.erases <;> rfl

theorem Happening.saved?_of_not_outward (task : Nat) {d : Deed A} (h : ¬ d.request.Outward) :
    (did task d).saved? = none := by
  obtain ⟨s, e, r⟩ := d
  cases e <;> first | rfl | exact absurd trivial h

namespace Retracts

variable {id : String} {erased : Except Cause Unit} {t : List (Deed A)}

theorem posts (h : Retracts id erased t) : t.filterMap (·.request.post?) =
    [⟨Report.path, Report.body id .rejected rollbackInfo⟩] := by
  obtain ⟨before, s, between, s', r, after, rfl, hout⟩ := h
  simp only [List.forall_mem_append] at hout
  simp [List.filterMap_cons, filterMap_post?_of_not_outward hout.1.1, filterMap_post?_of_not_outward hout.1.2,
    filterMap_post?_of_not_outward hout.2, retraction]

theorem erasures (h : Retracts id (.ok ()) t) (task : Nat) :
    (t.map (Happening.did task)).countP Happening.erases = 1 := by
  obtain ⟨before, s, between, s', r, after, rfl, hout⟩ := h
  have hnone {u : List (Deed A)} (hu : ∀ d ∈ u, ¬ d.request.Outward) :
      (u.map (Happening.did task)).countP Happening.erases = 0 := by
    rw [List.countP_eq_zero]
    intro x hx
    obtain ⟨d, hd, rfl⟩ := List.mem_map.mp hx
    simp [Happening.erases_of_not_outward task (hu d hd)]
  have herase : (Happening.did task ⟨s, .eraseJobId, .ok ()⟩).erases = true := rfl
  have hpost : ¬ (Happening.did task ⟨s', retraction id, r⟩).erases = true := nofun
  simp only [List.forall_mem_append] at hout
  simp only [List.map_append, List.map_cons, List.countP_append, List.countP_cons_of_pos herase,
    List.countP_cons_of_neg hpost, hnone hout.1.1, hnone hout.1.2, hnone hout.2]

/-- In a history of its own, with the newest first. -/
theorem unsaved (h : Retracts id erased t) (task : Nat) :
    ∀ x ∈ (t.map (Happening.did task)).reverse, x.saved? = none := by
  obtain ⟨before, s, between, s', r, after, rfl, hout⟩ := h
  have hnone : ∀ d ∈ before ++ between ++ after, (Happening.did task d).saved? = none := fun d hd =>
    Happening.saved?_of_not_outward task (hout d hd)
  simp only [List.forall_mem_append] at hnone
  simp only [List.mem_reverse, List.forall_mem_map, List.forall_mem_append, List.forall_mem_cons]
  exact ⟨hnone.1.1, rfl, hnone.1.2, rfl, hnone.2⟩

theorem forgotten (h : Retracts id (.ok ()) t) (task : Nat) (n : NextBoot) :
    (n.since (t.map (Happening.did task)).reverse).jobId = none := by
  have hunsaved := h.unsaved task
  obtain ⟨before, s, between, s', r, after, rfl, hout⟩ := h
  have hlost : (n.since (.did task ⟨s, .eraseJobId, .ok ()⟩ ::
    (before.map (Happening.did task)).reverse)).jobId = none := rfl
  rw [List.map_append, List.map_cons, List.reverse_append, List.reverse_cons, List.append_assoc] at hunsaved ⊢
  exact jobId_since_lost hlost (List.forall_mem_append.mp hunsaved).1

end Retracts

def Session.goingOn (s : Session A) (more : List (Move A)) : Session A := ⟨s.version, s.moves ++ more⟩

theorem Session.boot_goingOn (s : Session A) (more : List (Move A)) (d : Device) :
    (s.goingOn more).boot d = (s.boot d).run more := Boot.run_append _ _ _

def Session.enablingIn (surr : Surroundings) (version : String) (config : Config) (handler : Option A.Handler)
    (test : Option A.SelfTest) (turns : Nat) (s : Saying) : Session A :=
  ⟨version, .disturb surr :: (Session.enabling version config handler test turns s).moves⟩

theorem Session.boot_enablingIn (d : Device) (surr : Surroundings) (version : String) (config : Config)
    (handler : Option A.Handler) (test : Option A.SelfTest) (turns : Nat) (s : Saying) :
    (Session.enablingIn surr version config handler test turns s).boot d =
      (Session.enabling version config handler test turns s).boot (d.surround surr) := rfl

/-! ## The boots after that -/

/-- The task has read an id before it reports anything. -/
def Prompted (past : List (Deed A)) (e : Effect A) : Prop :=
  ∀ path body, e = .post path body → ∃ s id, (⟨s, .loadJobId, .ok (some id)⟩ : Deed A) ∈ past

theorem Prompted.silent (past : List (Deed A)) (e : Effect A) (h : e.post? = none) : Prompted past e := by
  intro path body he
  subst he
  cases h

theorem Effect.OfTrial.post? {e : Effect A} (h : e.OfTrial) : e.post? = none := by
  cases e <;> first | rfl | exact h.elim

namespace Activity

/-- Once an id has been read it stays read. -/
theorem heeds_prompted {past : List (Deed A)} (h : ∃ s id, (⟨s, .loadJobId, .ok (some id)⟩ : Deed A) ∈ past)
    {α : Type} (p : Activity A α) : p.Heeds Prompted (fun _ _ => True) past := by
  induction p generalizing past with
  | done a => trivial
  | died => trivial
  | step e next ih =>
    refine ⟨fun _ _ _ => h, fun s r => ih r ?_⟩
    obtain ⟨s₀, id, hmem⟩ := h
    exact ⟨s₀, id, List.mem_cons_of_mem _ hmem⟩

theorem heeds_enable_prompted (config : Config) (handler : Option A.Handler) (test : Option A.SelfTest) :
    (enable config handler test).Heeds Prompted (fun _ _ => True) [] := by
  have hsilent {α : Type} {p : Activity A α} {past : List (Deed A)} (h : p.Only fun e => e.post? = none) :
      p.Heeds Prompted (fun _ _ => True) past := .of_only h Prompted.silent
  have hnote {past : List (Deed A)} (e : Event) : (note e : Activity A _).Heeds Prompted (fun _ _ => True) past :=
    hsilent (only_note rfl)
  have hreconcile (past : List (Deed A)) :
      (reconcile : Activity A _).Heeds Prompted (fun _ _ => True) past := by
    refine ⟨.silent _ _ rfl, fun s r => ?_⟩
    match r with
    | .error c => exact hnote _
    | .ok none => trivial
    | .ok (some id) =>
      exact heeds_prompted ⟨s, id, List.mem_cons_self⟩ _
  have hvalidate (past : List (Deed A)) : (validate test config).Heeds Prompted (fun _ _ => True) past := by
    refine ⟨.silent _ _ rfl, fun s r => ?_⟩
    match r with
    | none => trivial
    | some (.error e) => trivial
    | some (.ok .foreign) => trivial
    | some (.ok .settled) => exact (hreconcile _).andThen fun _ _ _ => trivial
    | some (.ok .trial) =>
      have htrial : (testTrial test config.confirmRetryIntervalMs.toNat).Only fun e => e.post? = none :=
        (only_testTrial test _).mono fun _ => Effect.OfTrial.post?
      exact (hsilent htrial).andThen fun _ _ _ => trivial
  refine ⟨.silent _ _ rfl, fun s r => ?_⟩
  match r with
  | .error e => trivial
  | .ok () =>
    refine (hvalidate _).andThen fun r past _ => ?_
    split
    · trivial
    · exact (hnote _).andThen fun _ _ _ => trivial
    · exact (hnote _).andThen fun _ _ _ => trivial

end Activity

def Session.EnablesSilently (u : Session A) (d : Device) : Prop :=
  ∀ before config handler test after, u.moves = before ++ .call (.enable config handler test) :: after →
    ∀ deed ∈ deedsBy ((Boot.start A d u.version).run before).tasks.length (u.boot d).history,
      ∀ path body, deed.request ≠ .post path body

theorem Session.enablesSilently_of_lost {d : Device} (hd : d.nextBoot.jobId = none) (u : Session A)
    (hs : ∀ x ∈ (u.boot d).history, x.saved? = none) : u.EnablesSilently d := by
  intro before config handler test after hu deed hdeed path body hpost
  have hcall : (Task.call (Call.enable config handler test).activity).Heeds Prompted (fun _ => True) [] :=
    (Activity.heeds_enable_prompted config handler test).andThen fun _ _ _ => trivial
  have hminding := (Boot.minding_run d u.version hcall before after).history
  have hg := (Boot.genuine_run (A := A) d u.version u.moves).2
  rw [← hu] at hminding
  obtain ⟨later, earlier, hsplit⟩ := List.append_of_mem (mem_deedsBy.mp hdeed)
  unfold Session.boot at hs hsplit
  rw [hsplit] at hminding hg hs
  obtain ⟨s₁, id, hread⟩ := hminding.split _ rfl path body hpost
  -- the id that was read would have been on record all along
  obtain ⟨between, prior, rfl⟩ := List.append_of_mem (mem_deedsBy.mp hread)
  obtain ⟨hfound, _, hreply⟩ := hg.drop.2.split
  have hraw : s₁.nextBoot.jobId = some (Bytes.ofText id) := Store.raw_of_loadJobId hreply.symm
  have hlost : (d.nextBoot.since (prior ++ [])).jobId = none :=
    jobId_since_lost hd fun x hx => hs x (by simp [hx])
  rw [hfound, ← List.append_nil prior, hlost] at hraw
  cases hraw

namespace Device

theorem after_append (d : Device) (life earlier : List (Session A)) :
    d.after (life ++ earlier) = (d.after earlier).after life := by
  induction life with
  | nil => rfl
  | cons s life ih => rw [List.cons_append, after, after, ih]

theorem past_append (d : Device) (life earlier : List (Session A)) :
    d.past (life ++ earlier) = (d.after earlier).past life ++ d.past earlier := by
  induction life with
  | nil => rfl
  | cons s life ih => rw [List.cons_append, past, past, ih, after_append, List.append_assoc]

/-- An id that was lost in a session does not come back, neither later in that session nor after it. -/
theorem lost_after {d : Device} {s : Session A} (h : (s.boot d).world.nextBoot.jobId = none)
    (more : List (Move A)) (life : List (Session A))
    (hs : ∀ x ∈ d.past (life ++ [s.goingOn more]), x.saved? = none) :
    (d.after (life ++ [s.goingOn more])).nextBoot.jobId = none := by
  obtain ⟨later, hlater⟩ := (s.boot d).history_run more
  have hhistory : d.past [s.goingOn more] = later ++ (s.boot d).history := by
    rw [past, past, List.append_nil, after, s.boot_goingOn, hlater]
  have hrecord : (s.boot d).world.nextBoot = d.nextBoot.since (s.boot d).history :=
    (Boot.genuine_run (A := A) d s.version s.moves).1
  rw [hrecord] at h
  rw [past_append, hhistory, List.forall_mem_append, List.forall_mem_append] at hs
  rw [jobId_after, past_append, hhistory]
  exact jobId_since_lost (jobId_since_lost h hs.2.1) hs.1

def cutOff : Surroundings := ⟨[], [.lost "no route"], [], .none, false, false, false⟩

end Device

end FirmwareUpdate
