import FirmwareUpdate.Proofs.Acceptance
import FirmwareUpdate.Proofs.Disabling

/-!
# Early marks

While the confirmation of a new image still tries to report its success, the application may mark the image valid,
as often as it likes. The report that is acknowledged in the end finds the trial settled, settles it once more, and
leaves all as it would have been.
-/

namespace FirmwareUpdate

open Routine Activity

variable {A : Application}

/-! ## What an activity makes of the validation -/

namespace Activity

/-- The activities request the same, but for the lines of the journal, as long as they are answered the same; what
they learn of the validation may differ. What they end in is related. -/
inductive Like {α : Type} (S : α → α → Prop) : Activity A α → Activity A α → Prop
  | done {a a' : α} (h : S a a') : Like S (.done a) (.done a')
  | died : Like S .died .died
  | noting {e e' : Event} {next next' : Unit → Activity A α} (h : Like S (next ()) (next' ())) :
      Like S (.step (.note e) next) (.step (.note e') next')
  | step {e : Effect A} {next next' : e.Reply → Activity A α}
      (h : ∀ r r', e.Inquires ∨ r' = r → Like S (next r) (next' r')) : Like S (.step e next) (.step e next')

namespace Like

variable {α β : Type} {S : α → α → Prop} {T : β → β → Prop} {p p' : Activity A α}

theorem bind {f f' : α → Activity A β} (h : Like S p p') (hf : ∀ a a', S a a' → Like T (f a) (f' a')) :
    Like T (p >>= f) (p' >>= f') := by
  induction h with
  | done hs => exact hf _ _ hs
  | died => exact .died
  | noting _ ih => exact .noting ih
  | step _ ih => exact .step ih

theorem rest {e : Effect A} {next : e.Reply → Activity A α} (h : Like S (.step e next) (.step e next)) (r : e.Reply) :
    Like S (next r) (next r) := by
  cases h with
  | noting h => exact h
  | step h => exact h r r (.inr rfl)

/-- Who does not ask does the same. -/
theorem of_only (hp : p.Only fun e => ¬ e.Inquires) : Like Eq p p := by
  induction p with
  | done a => exact .done rfl
  | died => exact .died
  | step e next ih =>
    refine .step fun r r' hr => ?_
    obtain rfl := hr.resolve_left hp.1
    exact ih r' (hp.2 r')

/-- Who asks only later goes on alike. -/
theorem after {f : α → Activity A β} (hp : p.Only fun e => ¬ e.Inquires) (hf : ∀ a, Like T (f a) (f a)) :
    Like T (p >>= f) (p >>= f) := by
  refine (of_only hp).bind fun a a' he => ?_
  subst he
  exact hf a

end Like

/-- The outcomes are the same, but for the state of the validation that they tell. -/
def Agree : Except UpdateError ValidationState → Except UpdateError ValidationState → Prop
  | .ok _, .ok _ => True
  | r, r' => r = r'

theorem Agree.refl (r : Except UpdateError ValidationState) : Agree r r := by
  cases r with
  | error => rfl
  | ok => trivial

theorem like_confirmTrial (interval : Nat) :
    Like Agree (confirmTrial interval : Activity A _) (confirmTrial interval) := by
  have hlook : Like (A := A) Agree (do return .ok (← perform .validationState))
      (do return .ok (← perform .validationState)) := .step fun _ _ _ => .done trivial
  have hstart : (perform (.startConfirmation interval) : Activity A _).Only fun e => ¬ e.Inquires := only_perform id
  have hnote (e : Event) : (note e : Activity A _).Only fun e => ¬ e.Inquires := only_note id
  apply Like.after (p := perform .loadJobId) (only_perform id)
  intro r
  split
  · have hconclude : (concludeTrial : Activity A _).Only fun e => ¬ e.Inquires := only_concludeTrial id id fun _ => id
    exact .after (hnote _) fun _ => .after hconclude fun _ => hlook
  · exact .after hstart fun _ => hlook
  · exact .after (hnote _) fun _ => .after hstart fun _ => hlook

theorem like_testTrial (test : Option A.SelfTest) (interval : Nat) :
    Like Agree (testTrial test interval) (testTrial test interval) := by
  unfold testTrial
  split
  · exact like_confirmTrial interval
  · apply Like.after (only_perform id)
    intro r
    split
    · exact .died
    · exact .after (only_note id) fun _ => like_confirmTrial interval
    · refine .after (only_note id) fun _ => ?_
      apply Like.after (p := perform .markInvalid) (only_perform id)
      intro r
      split <;> exact .done (.refl _)

theorem like_enable (config : Config) (handler : Option A.Handler) (test : Option A.SelfTest) :
    Like Eq (enable config handler test) (enable config handler test) := by
  have hvalidate : Like (Option.Rel Agree) (validate test config) (validate test config) := by
    apply Like.after (p := perform _) (only_perform id)
    intro r
    split
    · exact .done .none
    · exact .done (.some (.refl _))
    · exact (like_testTrial test _).bind fun _ _ h => .done (.some h)
    · have hreconcile : (reconcile : Activity A _).Only fun e => ¬ e.Inquires :=
        only_reconcile id id (fun _ _ => id) fun _ => id
      exact .after hreconcile fun _ => .done (.some (.refl _))
    · exact .done (.some (.refl _))
  apply Like.after (p := perform _) (only_perform id)
  intro r
  split
  · exact .done rfl
  · refine hvalidate.bind fun o o' h => ?_
    cases h with
    | none => exact .done rfl
    | @some r r' h =>
      cases r with
      | error e =>
        obtain rfl : Except.error e = r' := h
        exact .noting (.done rfl)
      | ok state =>
        cases r' with
        | error e => cases h
        | ok state' => exact .noting (.done rfl)

end Activity

theorem Call.like (c : Call A) : Activity.Like Eq c.activity c.activity := by
  have hsingle {e : Effect A} : Like Eq (do let _ ← perform e) (do let _ ← perform e) :=
    .step fun _ _ _ => .done rfl
  have hfetches {α : Type} {p : Activity A α} (hp : p.Fetches) : p.Only fun e => ¬ e.Inquires :=
    ((hp []).only fun _ _ hs => hs.kind).mono fun e he hl => by cases e <;> first | exact hl | exact he
  cases c with
  | enable config handler test => exact (like_enable config handler test).bind fun _ _ _ => .done rfl
  | fetch => exact .after (hfetches fetches_fetch) fun _ => .done rfl
  | autofetch => exact .of_only (hfetches fetches_autofetchRound)
  | report id status info => exact .after (only_reportFor (fun h => h) fun _ h => h) fun _ => .done rfl
  | download job chunkSize =>
    exact .after (hfetches (fetches_downloadAndFlash job chunkSize)) fun _ => .done rfl
  | disable | markValid | markInvalid | joinConfirmation => exact hsingle

theorem Activity.like_confirmAttempt (attempt interval : Nat) :
    Like Eq (confirmAttempt attempt interval : Activity A _) (confirmAttempt attempt interval) :=
  .of_only ((only_confirmAttempt attempt interval).mono fun e he hl => by cases e <;> first | exact hl | exact he)

/-! ## Tasks -/

/-- An attempt ends in both worlds alike. -/
theorem World.Ahead.afterAttempt {w w' : World A} {calls : Nat} (h : w.Ahead calls w') {p p' : Activity A Attempt}
    (hp : Activity.Like Eq p p') : (w.afterAttempt p).Ahead calls (w'.afterAttempt p') := by
  cases hp with
  | @done a a' he =>
    subst he
    cases a <;> exact h.attempted _
  | died => exact h.attempted _
  | noting | step => exact h

namespace Task

inductive Like : Task A → Task A → Prop
  | call {rest rest' : Activity A Unit} (h : Activity.Like Eq rest rest') : Like (.call rest) (.call rest')
  | attempt {rest rest' : Activity A Attempt} (h : Activity.Like Eq rest rest') :
      Like (.attempt rest) (.attempt rest')

variable {t t' : Task A} {w w' : World A} {calls : Nat}

theorem Like.attempting (h : t.Like t') : t'.attempting = t.attempting := by
  cases h with
  | call h => rfl
  | attempt h => cases h <;> rfl

/-- One effect of a task, in the one world and in the other. -/
theorem Like.advance (ht : t.Like t') (hw : w.Ahead calls w') (ha : w.Acceptable)
    (hb : w.engine.validation.state ≠ .init) (s : Saying) (hn : t.next? ≠ some .markInvalid) :
    (t.advance s w = none ∧ t'.advance s w' = none) ∨ ∃ d d' t₁ t₁' w₁ w₁', t.advance s w = some (d, t₁, w₁) ∧
      t'.advance s w' = some (d', t₁', w₁') ∧ t₁.Like t₁' ∧ w₁.Ahead calls w₁' := by
  cases ht with
  | call h =>
    cases h with
    | done | died => exact .inl ⟨rfl, rfl⟩
    | noting h => exact .inr ⟨_, _, _, _, _, _, rfl, rfl, .call h, hw.note _ _⟩
    | @step e next next' h =>
      obtain ⟨hreply, hahead⟩ := hw.undergo ha hb s fun he => hn (he ▸ rfl)
      exact .inr ⟨_, _, _, _, _, _, rfl, rfl, .call (h _ _ hreply), hahead⟩
  | attempt h =>
    cases h with
    | done | died => exact .inl ⟨rfl, rfl⟩
    | noting h => exact .inr ⟨_, _, _, _, _, _, rfl, rfl, .attempt h, (hw.note _ _).afterAttempt h⟩
    | @step e next next' h =>
      obtain ⟨hreply, hahead⟩ := hw.undergo ha hb s fun he => hn (he ▸ rfl)
      exact .inr ⟨_, _, _, _, _, _, rfl, rfl, .attempt (h _ _ hreply), hahead.afterAttempt (h _ _ hreply)⟩

theorem Like.next {s : Saying} {d : Deed A} {t₁ : Task A} {w₁ : World A} (ht : t.Like t)
    (h : t.advance s w = some (d, t₁, w₁)) : t₁.Like t₁ := by
  unfold Task.advance at h
  split at h
  · cases h
    cases ht with
    | call hl => exact .call (hl.rest _)
  · cases h
    cases ht with
    | attempt hl => exact .attempt (hl.rest _)
  · cases h

end Task

namespace Activity

/-- Before it confirms anything the attempt has yet to settle the trial. -/
def Unsettled : Activity A Attempt → Prop
  | .done a => a ≠ .confirmed
  | .died => True
  | .step e next => e = .settleTrial ∨ ∀ r, Unsettled (next r)

theorem unsettled_bind {α : Type} (p : Activity A α) {f : α → Activity A Attempt} (h : ∀ a, Unsettled (f a)) :
    Unsettled (p >>= f) := by
  induction p with
  | done a => exact h a
  | died => trivial
  | step e next ih => exact .inr ih

theorem unsettled_confirmAttempt (attempt interval : Nat) :
    Unsettled (confirmAttempt attempt interval : Activity A _) := by
  refine unsettled_bind (reportSuccess attempt interval) fun acknowledged => ?_
  split
  · exact .inl rfl
  · refine .inr fun cancelled => ?_
    cases cancelled <;> exact nofun

end Activity

namespace Task

def Unsettled : Task A → Prop
  | call _ => True
  | attempt rest => Activity.Unsettled rest

def confirmed : Task A → Bool
  | attempt (.done .confirmed) => true
  | _ => false

theorem Unsettled.not_confirmed {t : Task A} (h : t.Unsettled) : t.confirmed = false := by
  cases t with
  | call rest => rfl
  | attempt rest =>
    cases rest with
    | done a =>
      cases a with
      | confirmed => exact absurd rfl h
      | cancelled | retry => rfl
    | died | step => rfl

theorem Unsettled.next {t t₁ : Task A} {s : Saying} {w w₁ : World A} {d : Deed A} (h : t.Unsettled)
    (ha : t.advance s w = some (d, t₁, w₁)) : d.request = .settleTrial ∨ t₁.Unsettled := by
  unfold advance at ha
  split at ha
  · cases ha
    exact .inr trivial
  · cases ha
    exact h.imp_right fun hnext => hnext _
  · cases ha

end Task

def Happening.opposes : Happening A → Bool
  | did _ ⟨_, .markInvalid, _⟩ | fired .. => true
  | _ => false

namespace Boot

variable {b b' : Boot A} {calls : Nat}

/-- Nothing speaks against the image; an attempt that has confirmed it has settled its trial. -/
structure OnCourse (b : Boot A) : Prop where
  acceptable : b.world.Acceptable
  tasks : ∀ t ∈ b.tasks, t.Like t
  settled : b.world.Settled ∨ ∀ t ∈ b.tasks, t.Unsettled

theorem next_ne_of_unopposed {task : Nat} {s : Saying} {t : Task A} (ht : b.tasks[task]? = some t)
    (hc : ∀ x ∈ (b.step (.go task s)).history, x.opposes = false) : t.next? ≠ some .markInvalid := by
  intro hn
  change ∀ x ∈ (b.advance task s).history, _ at hc
  unfold advance at hc
  rw [ht] at hc
  cases t with
  | call rest | attempt rest =>
    cases rest with
    | done | died => cases hn
    | step e next =>
      cases hn
      exact absurd (hc _ List.mem_cons_self) nofun

theorem fuse_of_unopposed {id : TimerId} (hc : ∀ x ∈ (b.step (.fire id)).history, x.opposes = false) :
    b.world.device.timers.fuse id = false := by
  rw [Bool.eq_false_iff]
  intro hf
  change ∀ x ∈ (b.fire id).history, _ at hc
  unfold fire at hc
  rw [if_pos hf] at hc
  exact absurd (hc _ List.mem_cons_self) nofun

theorem OnCourse.add (h : b.OnCourse) {t : Task A} (ht : t.Like t) (hu : t.Unsettled) :
    OnCourse { b with tasks := b.tasks ++ [t] } where
  acceptable := h.acceptable
  tasks := List.forall_mem_append.mpr ⟨h.tasks, List.forall_mem_singleton.mpr ht⟩
  settled := h.settled.imp_right fun hs => List.forall_mem_append.mpr ⟨hs, List.forall_mem_singleton.mpr hu⟩

theorem OnCourse.go (h : b.OnCourse) {task : Nat} {s : Saying}
    (hc : ∀ x ∈ (b.advance task s).history, x.opposes = false) : (b.advance task s).OnCourse := by
  unfold advance at hc ⊢
  split at hc
  · rename_i d t₁ w₁ hgo
    obtain ⟨t, ht, hadvance⟩ := Option.bind_eq_some_iff.mp hgo
    obtain ⟨e, c, rfl, rfl⟩ := Task.advance_eq_some hadvance
    have he : e ≠ .markInvalid := by
      rintro rfl
      exact absurd (hc _ List.mem_cons_self) nofun
    have hmem := List.mem_of_getElem? ht
    have hsettled : (b.world.undergo s e).2.Settled ∨ ∀ t ∈ b.tasks.set task t₁, t.Unsettled := by
      rcases h.settled with hs | hs
      · exact .inl (hs.undergo h.acceptable s he)
      · rcases (hs t hmem).next hadvance with rfl | hu
        · left
          change b.world.settleTrial.2.Settled
          rw [h.acceptable.settleTrial.2]
          exact World.settled_accepted _ 1 _
        · right
          intro t' ht'
          rcases List.mem_or_eq_of_mem_set ht' with ht' | rfl
          · exact hs t' ht'
          · exact hu
    refine ⟨(h.acceptable.undergo s he).withConfirmation c, fun t' ht' => ?_, ?_⟩
    · rcases List.mem_or_eq_of_mem_set ht' with ht' | rfl
      · exact h.tasks t' ht'
      · exact (h.tasks t hmem).next hadvance
    · exact hsettled.imp_left fun hs => hs.of_untouched (World.untouched_withConfirmation _ c)
  · exact h

theorem tasks_wake (b : Boot A) : b.wake.tasks = b.tasks := by
  unfold wake
  dsimp only
  split
  · split <;> rfl
  · rfl

theorem OnCourse.step (h : b.OnCourse) {m : Move A} (hm : ∀ s, m = .disturb s → s.faults.markValid = false)
    (hc : ∀ x ∈ (b.step m).history, x.opposes = false) : (b.step m).OnCourse := by
  cases m with
  | call c => exact h.add (.call c.like) trivial
  | attempt =>
    change b.beginAttempt.OnCourse
    unfold beginAttempt
    split
    · split
      · exact h.add (.attempt (like_confirmAttempt _ _)) (unsettled_confirmAttempt _ _)
      · exact h
    · exact h
  | wake =>
    obtain ⟨c, hworld⟩ := world_wake b
    change b.wake.OnCourse
    refine ⟨hworld ▸ h.acceptable.withConfirmation c, b.tasks_wake ▸ h.tasks, ?_⟩
    rw [hworld, tasks_wake]
    exact h.settled.imp_left fun hs => hs.of_untouched (World.untouched_withConfirmation _ c)
  | go task s => exact h.go hc
  | fire id =>
    change (b.fire id).OnCourse
    unfold fire
    rw [if_neg (by simp [fuse_of_unopposed hc])]
    exact h
  | disturb s =>
    refine ⟨h.acceptable.surround (hm s rfl), h.tasks, h.settled.imp_left fun hs => ?_⟩
    exact hs.of_untouched ⟨rfl, rfl, rfl, rfl, rfl, rfl, rfl, rfl⟩

theorem unopposed_of_run (ms rest : List (Move A)) (hc : ∀ x ∈ (b.run (ms ++ rest)).history, x.opposes = false) :
    ∀ x ∈ (b.run ms).history, x.opposes = false := by
  obtain ⟨later, hlater⟩ := (b.run ms).history_run rest
  rw [run_append, hlater] at hc
  exact fun x hx => hc x (List.mem_append_right _ hx)

theorem OnCourse.run (h : b.OnCourse) {ms : List (Move A)}
    (hs : ∀ s, .disturb s ∈ ms → s.faults.markValid = false)
    (hc : ∀ x ∈ (b.run ms).history, x.opposes = false) : (b.run ms).OnCourse := by
  induction ms generalizing b with
  | nil => exact h
  | cons m rest ih =>
    have hbefore := unopposed_of_run [m] rest hc
    exact ih (h.step (fun s he => hs s (he ▸ List.mem_cons_self)) hbefore)
      (fun s hmem => hs s (List.mem_cons_of_mem _ hmem)) hc

theorem onCourse_start {d : Device} (hd : d.slots.running = .pendingVerify) (hf : d.faults.markValid = false)
    (version : String) : (start A d version).OnCourse where
  acceptable := ⟨⟨.inl hd, nofun, nofun⟩, World.timed_boot d version, hf⟩
  tasks _ ht := nomatch ht
  settled := .inr fun _ ht => nomatch ht

/-! ## Two boots at once -/

structure Ahead (calls : Nat) (b b' : Boot A) : Prop where
  world : b.world.Ahead calls b'.world
  tasks : ∃ pairs : List (Task A × Task A), b.tasks = pairs.map (·.1) ∧ b'.tasks = pairs.map (·.2) ∧
    ∀ p ∈ pairs, p.1.Like p.2

namespace Ahead

theorem refl (h : b.OnCourse) : b.Ahead 0 b where
  world := .level b.world.device.journal
  tasks := by
    refine ⟨b.tasks.map fun t => (t, t), by simp [Function.comp_def], by simp [Function.comp_def], fun p hp => ?_⟩
    obtain ⟨t, ht, rfl⟩ := List.mem_map.mp hp
    exact h.tasks t ht

theorem any_attempting (h : b.Ahead calls b') : b'.tasks.any Task.attempting = b.tasks.any Task.attempting := by
  obtain ⟨pairs, hpairs, hpairs', hlike⟩ := h.tasks
  have hsame : pairs.map (·.2.attempting) = pairs.map (·.1.attempting) :=
    List.map_congr_left fun p hp => (hlike p hp).attempting
  rw [hpairs, hpairs']
  simpa [List.any_map, Function.comp_def] using congrArg (List.any · id) hsame

theorem add (h : b.Ahead calls b') {t : Task A} (ht : t.Like t) :
    Ahead calls { b with tasks := b.tasks ++ [t] } { b' with tasks := b'.tasks ++ [t] } := by
  obtain ⟨pairs, hpairs, hpairs', hlike⟩ := h.tasks
  refine ⟨h.world, pairs ++ [(t, t)], by simp [hpairs], by simp [hpairs'], ?_⟩
  exact List.forall_mem_append.mpr ⟨hlike, List.forall_mem_singleton.mpr ht⟩

theorem go (h : b.Ahead calls b') (ha : b.OnCourse) (hb : b.world.engine.validation.state ≠ .init) {task : Nat}
    {s : Saying} (hc : ∀ x ∈ (b.step (.go task s)).history, x.opposes = false) :
    (b.advance task s).Ahead calls (b'.advance task s) := by
  obtain ⟨pairs, hpairs, hpairs', hlike⟩ := h.tasks
  cases hi : pairs[task]? with
  | none =>
    rw [advance_of_none (b := b) (by rw [hpairs, List.getElem?_map, hi]; rfl),
      advance_of_none (b := b') (by rw [hpairs', List.getElem?_map, hi]; rfl)]
    exact h
  | some p =>
    obtain ⟨t, t'⟩ := p
    have ht : b.tasks[task]? = some t := by rw [hpairs, List.getElem?_map, hi, Option.map_some]
    have ht' : b'.tasks[task]? = some t' := by rw [hpairs', List.getElem?_map, hi, Option.map_some]
    have hlike' : t.Like t' := hlike _ (List.mem_of_getElem? hi)
    rcases hlike'.advance h.world ha.acceptable hb s (next_ne_of_unopposed ht hc) with
      ⟨hover, hover'⟩ | ⟨d, d', t₁, t₁', w₁, w₁', hgo, hgo', ht₁, hw₁⟩
    · rw [advance_of_none (b := b) (by rw [ht]; exact hover), advance_of_none (b := b') (by rw [ht']; exact hover')]
      exact h
    · rw [advance_of_some (b := b) (by rw [ht]; exact hgo), advance_of_some (b := b') (by rw [ht']; exact hgo')]
      refine ⟨hw₁, pairs.set task (t₁, t₁'), by simp [hpairs, List.map_set], by simp [hpairs', List.map_set], ?_⟩
      intro p hp
      rcases List.mem_or_eq_of_mem_set hp with hp | rfl
      · exact hlike p hp
      · exact ht₁

theorem step (h : b.Ahead calls b') (ha : b.OnCourse) (hb : b.world.engine.validation.state ≠ .init) {m : Move A}
    (hc : ∀ x ∈ (b.step m).history, x.opposes = false) : (b.step m).Ahead calls (b'.step m) := by
  cases m with
  | call c => exact h.add (.call c.like)
  | attempt =>
    change b.beginAttempt.Ahead calls b'.beginAttempt
    unfold beginAttempt
    rw [h.any_attempting, h.world.confirmation.1]
    cases b.world.engine.validation.confirmation with
    | none => exact h
    | some c =>
      dsimp only
      split
      · exact h.add (.attempt (like_confirmAttempt _ _))
      · exact h
  | wake =>
    change b.wake.Ahead calls b'.wake
    unfold wake
    dsimp only
    rw [h.any_attempting, h.world.confirmation.1, h.world.confirmation.2]
    cases b.world.engine.validation.confirmation with
    | none => exact h
    | some c =>
      dsimp only
      split
      · exact ⟨h.world.withConfirmation _, h.tasks⟩
      · exact h
  | go task s => exact h.go ha hb hc
  | fire id =>
    have hf := fuse_of_unopposed hc
    change (b.fire id).Ahead calls (b'.fire id)
    unfold fire
    rw [if_neg (by simp [hf]), if_neg (by simp [h.world.fuse ha.acceptable.timed hf])]
    exact h
  | disturb s => exact ⟨h.world.surround s, h.tasks⟩

end Ahead

end Boot

/-! ## Marks in between -/

/-- A move of the boot, or a mark that the application makes in between. -/
inductive Interlude (A : Application) where
  | move (m : Move A)
  | mark

namespace Interlude

def move? : Interlude A → Option (Move A)
  | move m => some m
  | mark => none

def isMark : Interlude A → Bool
  | move _ => false
  | mark => true

def moves (parts : List (Interlude A)) : List (Move A) := parts.filterMap move?

def marks (parts : List (Interlude A)) : Nat := parts.countP isMark

end Interlude

open Interlude

namespace Boot

variable {b b' : Boot A} {calls : Nat}

def mark (b : Boot A) : Boot A := { b with world := b.world.markValid.2 }

def runMarking : Boot A → List (Interlude A) → Boot A × List (Except UpdateError Unit)
  | b, [] => (b, [])
  | b, .move m :: rest => (b.step m).runMarking rest
  | b, .mark :: rest => ((b.mark.runMarking rest).1, b.world.markValid.1 :: (b.mark.runMarking rest).2)

/-- A mark is a call that is done at once. -/
theorem run_markValid (b : Boot A) (s : Saying) : b.run [.call .markValid, .go b.tasks.length s] =
    { b.mark with
      tasks := b.tasks ++ [.call (.done ())]
      history := .did b.tasks.length ⟨b.world, .markValid, b.world.markValid.1⟩ :: b.history } := by
  have hset (t t' : Task A) : (b.tasks ++ [t]).set b.tasks.length t' = b.tasks ++ [t'] := by simp
  have hnew : (b.step (.call .markValid)).tasks[b.tasks.length]? = some (.call (Call.activity .markValid)) :=
    List.getElem?_concat_length
  change (b.step (.call .markValid)).advance b.tasks.length s = _
  rw [advance_of_some (by rw [hnew]; rfl)]
  exact congrArg (fun tasks => Boot.mk _ tasks _) (hset _ _)

theorem Ahead.runMarking (h : b.Ahead calls b') (ha : b.OnCourse) (hb : b.world.engine.validation.state ≠ .init)
    {parts : List (Interlude A)} (hs : ∀ s, .disturb s ∈ moves parts → s.faults.markValid = false)
    (hc : ∀ x ∈ (b.run (moves parts)).history, x.opposes = false) :
    (∀ r ∈ (b'.runMarking parts).2, r = .ok ()) ∧ (b'.runMarking parts).2.length = marks parts ∧
    (b.run (moves parts)).Ahead (calls + marks parts) (b'.runMarking parts).1 := by
  induction parts generalizing b b' calls with
  | nil => exact ⟨(fun _ hr => nomatch hr), rfl, h⟩
  | cons part rest ih =>
    cases part with
    | move m =>
      have hbefore := unopposed_of_run [m] (moves rest) hc
      have hbegun := (((b.turn_step m).net ha.acceptable.timed).2 hb).1
      have hmarks : marks (.move m :: rest) = marks rest := List.countP_cons_of_neg nofun
      rw [hmarks]
      exact ih (h.step ha hb hbefore) (ha.step (fun s he => hs s (he ▸ List.mem_cons_self)) hbefore) hbegun
        (fun s hmem => hs s (List.mem_cons_of_mem _ hmem)) hc
    | mark =>
      obtain ⟨hok, hmarked⟩ := h.world.marked ha.acceptable
      have hnext : b.Ahead (calls + 1) b'.mark := ⟨hmarked, h.tasks⟩
      obtain ⟨hreturned, hlength, hahead⟩ := ih hnext ha hb hs hc
      have hmarks : marks (.mark :: rest) = marks rest + 1 := List.countP_cons_of_pos rfl
      refine ⟨List.forall_mem_cons.mpr ⟨hok, hreturned⟩, ?_, ?_⟩
      · rw [Boot.runMarking, List.length_cons, hlength, hmarks]
      · rw [hmarks, Nat.add_comm (marks rest), ← Nat.add_assoc]
        exact hahead

/-- A new image boots, the bootloader does not fail to mark it valid, the rollback timer does not fire, nobody marks
the image invalid, and in the end an attempt to confirm it is answered. Marks that the application makes in between,
at any points after the validation has begun, all succeed. They leave the world as it would be without them, but for
the lines of the journal and the count of marks. One that comes right after the effect of a POST is made inside it. -/
theorem marks_unnoticed {d : Device} {version : String} {before : List (Move A)} {parts : List (Interlude A)}
    (hd : d.slots.running = .pendingVerify) (hf : d.faults.markValid = false)
    (hs : ∀ s, .disturb s ∈ before ++ moves parts → s.faults.markValid = false)
    (hb : ((start A d version).run before).world.engine.validation.state ≠ .init)
    (hc : ∀ x ∈ ((start A d version).run (before ++ moves parts)).history, x.opposes = false)
    (ha : ((start A d version).run (before ++ moves parts)).tasks.any Task.confirmed = true) :
    let marked := ((start A d version).run before).runMarking parts
    let unmarked := (start A d version).run (before ++ moves parts)
    (∀ r ∈ marked.2, r = .ok ()) ∧ marked.2.length = marks parts ∧
      marked.1.world = unmarked.world.recounted (marks parts) marked.1.world.device.journal := by
  rw [run_append] at hc ha
  have hbefore := unopposed_of_run before (moves parts) (by rwa [run_append])
  have hcourse := (onCourse_start hd hf version).run (fun s hmem => hs s (List.mem_append_left _ hmem)) hbefore
  have hrest (s : Surroundings) (hmem : .disturb s ∈ moves parts) : s.faults.markValid = false :=
    hs s (List.mem_append_right _ hmem)
  have hsettled : (((start A d version).run before).run (moves parts)).world.Settled := by
    refine (hcourse.run hrest hc).settled.resolve_right fun hu => ?_
    obtain ⟨t, ht, hconfirmed⟩ := List.any_eq_true.mp ha
    exact absurd hconfirmed (by simp [(hu t ht).not_confirmed])
  obtain ⟨hreturned, hlength, hahead⟩ := (Ahead.refl hcourse).runMarking hcourse hb hrest hc
  refine ⟨hreturned, hlength, ?_⟩
  rw [run_append]
  have hworld := hahead.world
  rw [Nat.zero_add] at hworld
  generalize (((start A d version).run before).runMarking parts).1.world = w' at hworld ⊢
  cases hworld with
  | level journal => rfl
  | early journal =>
    rw [hsettled.accepted_eq]
    rfl

/-- The image is marked valid as soon as its trial has begun, twice inside the POST of an attempt that fails, before
the next attempt, inside its POST, and after it was answered. -/
def marking : List (Interlude Agent.application) :=
  [.mark] ++ List.replicate 6 (.move (.go 0 obliging)) ++
    [.move (.disturb ⟨[], [.lost "down"], [], .none, false, false, false⟩), .move .attempt, .move (.go 1 obliging),
      .move (.go 1 obliging), .mark, .mark] ++ List.replicate 4 (.move (.go 1 obliging)) ++
    [.move .wake, .mark, .move .attempt, .move (.go 2 obliging), .move (.go 2 obliging), .mark] ++
    List.replicate 6 (.move (.go 2 obliging)) ++ [.mark]

theorem marks_unnoticed_inside_posts :
    let marked := ((start Agent.application trialDevice "1.0.0").run (enabling.take 3)).runMarking marking
    let unmarked := (start Agent.application trialDevice "1.0.0").run (enabling.take 3 ++ moves marking)
    trialDevice.slots.running = .pendingVerify ∧ trialDevice.nextBoot.jobId = some (Bytes.ofText "A") ∧
    ((start Agent.application trialDevice "1.0.0").run (enabling.take 3)).world.engine.validation.state ≠ .init ∧
    (∀ x ∈ unmarked.history, x.opposes = false) ∧ unmarked.tasks.any Task.confirmed = true ∧
    unmarked.world.device.network.posts.length = 2 ∧ unmarked.world.device.slots.markValidCalls = 1 ∧
    marks marking = 6 ∧ (∀ r ∈ marked.2, r = .ok ()) ∧ marked.2.length = marks marking ∧
    marked.1.world = unmarked.world.recounted (marks marking) marked.1.world.device.journal := by
  have hd : trialDevice.slots.running = .pendingVerify := by decide
  have hs : ∀ s, .disturb s ∈ enabling.take 3 ++ moves marking → s.faults.markValid = false := by
    intro s hmem
    simp [enabling, marking, moves, move?] at hmem
    subst hmem
    rfl
  have hb : ((start Agent.application trialDevice "1.0.0").run (enabling.take 3)).world.engine.validation.state ≠
      .init := by decide +kernel
  have hc : ∀ x ∈ ((start Agent.application trialDevice "1.0.0").run (enabling.take 3 ++ moves marking)).history,
      x.opposes = false := by decide +kernel
  have ha : ((start Agent.application trialDevice "1.0.0").run (enabling.take 3 ++ moves marking)).tasks.any
      Task.confirmed = true := by decide +kernel
  obtain ⟨hreturned, hlength, hworld⟩ := marks_unnoticed hd rfl hs hb hc ha
  exact ⟨hd, by decide +kernel, hb, hc, ha, by decide +kernel, by decide +kernel, by decide, hreturned, hlength,
    hworld⟩

end Boot

end FirmwareUpdate
