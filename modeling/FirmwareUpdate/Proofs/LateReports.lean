import FirmwareUpdate.Proofs.Races
import FirmwareUpdate.Proofs.Repertoires

/-!
# Reports after the cancellation

The confirmation task looks whether it was cancelled before an attempt and after it. An attempt that has
begun may therefore still send its report, but no other follows.
-/

namespace FirmwareUpdate

open Routine

variable {A : Application}

def Effect.posts : Effect A → Bool
  | .post .. => true
  | _ => false

namespace Activity

theorem atMost_reportFor (id : String) (status : JobStatus) (info : String) :
    (reportFor id status info : Activity A _).AtMost Effect.posts 1 := by
  have hpost : (post Report.path (Report.body id status info) : Activity A _).AtMost Effect.posts 1 := by
    refine (AtMost.spend rfl).mpr fun r => ?_
    cases r <;> trivial
  apply hpost.bind
  intro r
  split
  · trivial
  · split
    · exact (only_note (P := fun e => e.posts = false) rfl).bind fun _ => trivial
    · trivial

/-- An attempt reports once. -/
theorem atMost_confirmAttempt (attempt interval : Nat) :
    (confirmAttempt attempt interval : Activity A _).AtMost Effect.posts 1 := by
  have hnote (e : Event) : (note e : Activity A _).Only fun e => e.posts = false := only_note rfl
  have hreport : (reportPersisted .success confirmationInfo : Activity A _).AtMost Effect.posts 1 := by
    refine (AtMost.skip rfl).mpr fun r => ?_
    match r with
    | .error c => trivial
    | .ok none => trivial
    | .ok (some id) => exact atMost_reportFor id _ _
  have hsuccess : (reportSuccess attempt interval : Activity A _).AtMost Effect.posts 1 := by
    apply hreport.bind
    intro r
    split <;> exact (hnote _).bind fun _ => trivial
  have hconclude : (concludeTrial : Activity A _).Only fun e => e.posts = false :=
    only_concludeTrial rfl rfl fun _ => rfl
  apply hsuccess.bind
  intro acknowledged
  split
  · exact hconclude.bind fun _ => trivial
  · refine Only.bind (only_perform (P := fun e => e.posts = false) rfl) fun r => ?_
    split <;> trivial

end Activity

/-! ## The engine's side -/

namespace World

def Poised (w : World A) : Prop := ∃ c, w.engine.validation.confirmation = some c ∧ c.phase = .poised

variable (w : World A)

theorem confirmation_beginValidation (seconds : Nat) :
    (w.beginValidation seconds).2.engine.validation.confirmCancelled = w.engine.validation.confirmCancelled ∧
    (w.beginValidation seconds).2.engine.validation.confirmation = w.engine.validation.confirmation := by
  have hb := w.beginning seconds
  generalize (w.beginValidation seconds).1 = r, (w.beginValidation seconds).2 = w' at hb ⊢
  cases hb with
  | trial =>
    rw [validation_beginTrial]
    exact ⟨rfl, rfl⟩
  | _ => exact ⟨rfl, rfl⟩

theorem cancelled_undergo (s : Saying) (e : Effect A) (h : w.engine.validation.confirmCancelled = true) :
    (w.undergo s e).2.engine.validation.confirmCancelled = true := by
  by_cases he : e.Judges
  · rw [undergo_snd]
    cases e with
    | markValid =>
      rw [perform, validation_markValid]
      split <;> exact h
    | markInvalid => rw [perform, validation_markInvalid]
    | settleTrial =>
      by_cases hi : w.engine.validation.state = .invalid
      · rw [perform, settleTrial_invalid w hi]
        exact h
      · rw [perform, validation_settleTrial hi]
        exact h
    | beginValidation seconds =>
      rw [perform, (w.confirmation_beginValidation seconds).1]
      exact h
    | _ => exact he.elim
  · rw [(w.untouched_undergo s he).cancelled]
    exact h

theorem confirmation_undergo (s : Saying) {e : Effect A} (hs : ∀ interval, e ≠ .startConfirmation interval)
    (hj : e ≠ .joinConfirmation) :
    (w.undergo s e).2.engine.validation.confirmation = w.engine.validation.confirmation := by
  rw [undergo_snd]
  cases e with
  | startConfirmation interval => exact absurd rfl (hs interval)
  | joinConfirmation => exact absurd rfl hj
  | beginValidation seconds => exact (w.confirmation_beginValidation seconds).2
  | markValid =>
    rw [perform, validation_markValid]
    split <;> rfl
  | markInvalid => rw [perform, validation_markInvalid]
  | settleTrial =>
    rw [perform]
    by_cases hi : w.engine.validation.state = .invalid
    · rw [settleTrial_invalid w hi]
      rfl
    · rw [validation_settleTrial hi]
  | install config handler => exact congrArg (·.confirmation) (w.reconfigured_install config handler).validation
  | uninstall => exact congrArg (·.confirmation) w.reconfigured_uninstall.validation
  | claim =>
    rw [perform]
    unfold claim
    split <;> rfl
  | _ => rfl

/-- Once cancelled, the confirmation gets no further attempts. -/
theorem poised_undergo (s : Saying) (e : Effect A) (hc : w.engine.validation.confirmCancelled = true)
    (h : (w.undergo s e).2.Poised) : w.Poised := by
  by_cases hs : ∃ interval, e = .startConfirmation interval
  · obtain ⟨interval, rfl⟩ := hs
    obtain ⟨c, hc', hphase⟩ := h
    simp only [undergo, perform, startConfirmation, withValidation, hc, if_true] at hc'
    cases hc'
    cases hphase
  · by_cases hj : e = .joinConfirmation
    · subst hj
      obtain ⟨c, hc', hphase⟩ := h
      simp only [undergo, perform, joinConfirmation] at hc'
      split at hc'
      · cases hc'
        cases hphase
      · exact ⟨c, hc', hphase⟩
    · unfold Poised at h
      rwa [w.confirmation_undergo s (not_exists.mp hs) hj] at h

theorem poised_rollbackDue (h : w.engine.validation.confirmCancelled = true) :
    w.rollbackDue.engine.validation.confirmCancelled = true ∧ (w.rollbackDue.Poised → w.Poised) := by
  by_cases ht : w.OnTrial
  · unfold Poised
    rw [validation_rollbackDue ht]
    exact ⟨rfl, fun hp => hp⟩
  · rw [rollbackDue_of_not_onTrial w ht]
    exact ⟨h, fun hp => hp⟩

theorem not_poised_afterAttempt {p : Activity A Activity.Attempt} (h : ∀ e next, p ≠ .step e next) :
    ¬ (w.afterAttempt p).Poised := by
  have hattempted {phase : ConfirmPhase} (hp : phase ≠ .poised) : ¬ (w.attempted phase).Poised := by
    rintro ⟨c, hc, hphase⟩
    obtain ⟨c₀, -, rfl⟩ := Option.map_eq_some_iff.mp hc
    exact hp hphase
  cases p with
  | step e next => exact absurd rfl (h e next)
  | done a => cases a <;> exact hattempted nofun
  | died => exact hattempted nofun

end World

/-! ## Attempts -/

namespace Boot

def attempt? (b : Boot A) (i : Nat) : Option (Activity A Activity.Attempt) :=
  match b.tasks[i]? with
  | some (.attempt rest) => some rest
  | _ => none

def confirms (b : Boot A) : Happening A → Bool
  | .did i d => d.request.posts && (b.attempt? i).isSome
  | .fired .. => false

def confirmsLate (b : Boot A) (x : Happening A) : Bool :=
  b.confirms x && x.found.engine.validation.confirmCancelled

section
variable {b b' : Boot A}

theorem attempt?_append (w : World A) (t : Task A) (history : List (Happening A)) {i : Nat}
    (h : i ≠ b.tasks.length) : attempt? ⟨w, b.tasks ++ [t], history⟩ i = b.attempt? i := by
  unfold attempt?
  rcases Nat.lt_or_gt_of_ne h with hlt | hgt
  · rw [List.getElem?_append_left hlt]
  · have hlong : (b.tasks ++ [t]).length ≤ i := by
      rw [List.length_append]
      exact hgt
    rw [List.getElem?_eq_none hlong, List.getElem?_eq_none (Nat.le_of_lt hgt)]

theorem attempt?_length : b.attempt? b.tasks.length = none := by
  unfold attempt?
  rw [List.getElem?_eq_none (Nat.le_refl _)]

theorem confirmsLate_congr (h : ∀ i d, .did i d ∈ b.history → (b'.attempt? i).isSome = (b.attempt? i).isSome) :
    b.history.countP b'.confirmsLate = b.history.countP b.confirmsLate := by
  apply List.countP_congr
  intro x hx
  suffices hsame : b'.confirms x = b.confirms x by unfold confirmsLate; rw [hsame]
  cases x with
  | did i d => simp only [confirms, h i d hx]
  | fired => rfl

theorem attempt?_eq_step (hb : b.tasks.any Task.attempting = false) {i : Nat} {e : Effect A}
    {next : e.Reply → Activity A Activity.Attempt} : b.attempt? i ≠ some (.step e next) := by
  intro h
  unfold attempt? at h
  split at h
  · rename_i rest ht
    cases h
    have hall := List.any_eq_false.mp hb _ (List.mem_of_getElem? ht)
    exact hall rfl
  · cases h

end

/-! ## What an attempt may still send -/

/-- The confirmation task may send so many reports before it sees a cancellation. -/
structure Reserve (b : Boot A) (k : Nat) : Prop where
  single : ∀ i j e f next next', b.attempt? i = some (.step e next) → b.attempt? j = some (.step f next') →
    i = j
  underWay : ∀ i p, b.attempt? i = some p → p.AtMost Effect.posts k
  poised : b.world.Poised → (∀ i e next, b.attempt? i ≠ some (.step e next)) → 1 ≤ k

/-- The confirmation task has sent at most one report since it was cancelled, those counted that it may
still send. -/
structure Winding (b : Boot A) : Prop where
  begun : ∀ i d, .did i d ∈ b.history → i < b.tasks.length
  before : b.world.engine.validation.confirmCancelled = false → b.history.countP b.confirmsLate = 0
  reserve : ∃ k, b.Reserve k ∧ b.history.countP b.confirmsLate + k ≤ 1

variable {b b' : Boot A}

/-- Before the cancellation one report may always be sent. -/
theorem Winding.reserve_one (h : b.Winding) : ∃ k, b.Reserve k ∧ b.history.countP b.confirmsLate + k ≤ 1 ∧
    (b.world.engine.validation.confirmCancelled = false → k = 1) := by
  obtain ⟨k, hk, hle⟩ := h.reserve
  cases hc : b.world.engine.validation.confirmCancelled with
  | true => exact ⟨k, hk, hle, nofun⟩
  | false =>
    refine ⟨1, ⟨hk.single, fun i p hp => (hk.underWay i p hp).mono (by omega), fun _ _ => Nat.le_refl 1⟩, ?_,
      fun _ => rfl⟩
    simp [h.before hc]

/-- A move that no attempt makes changes nothing, unless it starts one. -/
theorem Winding.aside (h : b.Winding) (hb : b'.attempt? = b.attempt?) (hl : b.tasks.length ≤ b'.tasks.length)
    (news : List (Happening A)) (hh : b'.history = news ++ b.history)
    (hn : ∀ x ∈ news, b'.confirms x = false) (hbegun : ∀ i d, .did i d ∈ news → i < b'.tasks.length)
    (hc : b.world.engine.validation.confirmCancelled = true →
      b'.world.engine.validation.confirmCancelled = true ∧ (b'.world.Poised → b.world.Poised)) :
    b'.Winding := by
  have hcount : b'.history.countP b'.confirmsLate = b.history.countP b.confirmsLate := by
    have hnone : news.countP b'.confirmsLate = 0 := by
      rw [List.countP_eq_zero]
      intro x hx
      simp [confirmsLate, hn x hx]
    rw [hh, List.countP_append, hnone, Nat.zero_add, confirmsLate_congr fun i d _ => by rw [hb]]
  obtain ⟨k, hk, hle, hone⟩ := h.reserve_one
  refine ⟨?_, ?_, k, ⟨?_, ?_, fun hp hnone => ?_⟩, ?_⟩
  · intro i d hd
    rw [hh] at hd
    rcases List.mem_append.mp hd with hd | hd
    · exact hbegun i d hd
    · exact Nat.lt_of_lt_of_le (h.begun i d hd) hl
  · intro hc'
    rw [hcount]
    apply h.before
    cases hcb : b.world.engine.validation.confirmCancelled with
    | false => rfl
    | true => exact absurd ((hc hcb).1.symm.trans hc') nofun
  · rw [hb]
    exact hk.single
  · rw [hb]
    exact hk.underWay
  · rw [hb] at hnone
    cases hcb : b.world.engine.validation.confirmCancelled with
    | false => exact Nat.le_of_eq (hone hcb).symm
    | true => exact hk.poised ((hc hcb).2 hp) hnone
  · rw [hcount]
    exact hle

/-- An attempt that sends its report has none left to send. -/
theorem Winding.attempt (h : b.Winding) {i : Nat} {e : Effect A} {next : e.Reply → Activity A Activity.Attempt}
    (hi : b.attempt? i = some (.step e next)) (s : Saying) :
    Winding ⟨(b.world.undergo s e).2.afterAttempt (next (b.world.undergo s e).1),
      b.tasks.set i (.attempt (next (b.world.undergo s e).1)),
      .did i ⟨b.world, e, (b.world.undergo s e).1⟩ :: b.history⟩ := by
  generalize hr : (b.world.undergo s e).1 = r
  generalize hw : (b.world.undergo s e).2 = w
  have hlt : i < b.tasks.length := by
    unfold attempt? at hi
    split at hi
    · rename_i ht
      exact (List.getElem?_eq_some_iff.mp ht).1
    · cases hi
  generalize hb : (⟨w.afterAttempt (next r), b.tasks.set i (.attempt (next r)),
    .did i ⟨b.world, e, r⟩ :: b.history⟩ : Boot A) = b'
  have hself : b'.attempt? i = some (next r) := by
    simp [← hb, attempt?, List.getElem?_set_self hlt]
  have hother (j : Nat) (hj : i ≠ j) : b'.attempt? j = b.attempt? j := by
    simp only [← hb, attempt?, List.getElem?_set_ne hj]
  have hcount : b'.history.countP b'.confirmsLate = b.history.countP b.confirmsLate +
      (e.posts && b.world.engine.validation.confirmCancelled).toNat := by
    have hsame : b.history.countP b'.confirmsLate = b.history.countP b.confirmsLate := by
      apply confirmsLate_congr
      intro j d _
      by_cases hj : i = j
      · rw [← hj, hself, hi]
        rfl
      · rw [hother j hj]
    have hlate : b'.confirmsLate (.did i ⟨b.world, e, r⟩) =
        (e.posts && b.world.engine.validation.confirmCancelled) := by
      simp [confirmsLate, confirms, Happening.found, hself]
    rw [← hsame, ← hlate, ← hb, countP_cons_toNat]
  obtain ⟨k, hk, hle⟩ := h.reserve
  obtain ⟨m, hm, hnext⟩ := (hk.underWay i _ hi).next r
  -- no other attempt is under way
  have hidle (j : Nat) (hj : i ≠ j) (f : Effect A) (next' : f.Reply → Activity A Activity.Attempt) :
      b'.attempt? j ≠ some (.step f next') := by
    rw [hother j hj]
    exact fun hs => hj (hk.single i j _ _ _ _ hi hs)
  refine ⟨?_, ?_, m, ⟨?_, ?_, ?_⟩, ?_⟩
  · intro j d hd
    rw [← hb] at hd ⊢
    rw [List.length_set]
    rcases List.mem_cons.mp hd with he | hd
    · cases he
      exact hlt
    · exact h.begun j d hd
  · intro hc'
    cases hc : b.world.engine.validation.confirmCancelled with
    | false => rw [hcount, h.before hc, hc, Bool.and_false, Bool.toNat_false]
    | true =>
      have hkept := b.world.cancelled_undergo s e hc
      obtain ⟨c, hafter⟩ := Turn.afterAttempt w (next r)
      rw [← hb, hafter, ← hw] at hc'
      cases hkept.symm.trans hc'
  · intro j j' f f' n n' hj hj'
    have hown {j : Nat} {f : Effect A} {n : f.Reply → Activity A Activity.Attempt}
        (hj : b'.attempt? j = some (.step f n)) : i = j := by
      by_cases hi : i = j
      · exact hi
      · exact absurd hj (hidle j hi f n)
    exact (hown hj).symm.trans (hown hj')
  · intro j p hp
    by_cases hj : i = j
    · rw [← hj, hself] at hp
      cases hp
      exact hnext
    · cases p with
      | step f next' => exact absurd hp (hidle j hj f next')
      | done | died => trivial
  · intro hp hnone
    rw [← hb] at hp
    refine absurd hp (w.not_poised_afterAttempt fun f n hs => ?_)
    exact hnone i f n (hself.trans (congrArg some hs))
  · have hspent : (e.posts && b.world.engine.validation.confirmCancelled).toNat ≤ e.posts.toNat := by
      cases e.posts <;> simp [Bool.toNat_le]
    omega

/-- With none under way, a confirmation that is poised may begin an attempt. -/
theorem Winding.begin (h : b.Winding) {p : Activity A Activity.Attempt} (hp : p.AtMost Effect.posts 1)
    (hpoised : b.world.Poised) (hnone : b.tasks.any Task.attempting = false) :
    Winding { b with tasks := b.tasks ++ [.attempt p] } := by
  generalize hb : ({ b with tasks := b.tasks ++ [.attempt p] } : Boot A) = b'
  have hidle (i : Nat) (e : Effect A) (next : e.Reply → Activity A Activity.Attempt) :
      b.attempt? i ≠ some (.step e next) := attempt?_eq_step hnone
  have hself : b'.attempt? b.tasks.length = some p := by simp [← hb, attempt?]
  have hother (i : Nat) (hi : i ≠ b.tasks.length) : b'.attempt? i = b.attempt? i := by
    rw [← hb, attempt?_append _ _ _ hi]
  have hcount : b.history.countP b'.confirmsLate = b.history.countP b.confirmsLate := by
    apply confirmsLate_congr
    intro i d hd
    rw [hother i (Nat.ne_of_lt (h.begun i d hd))]
  have hhistory : b'.history = b.history := by rw [← hb]
  obtain ⟨k, hk, hle⟩ := h.reserve
  have hone : 1 ≤ k := hk.poised hpoised hidle
  refine ⟨?_, ?_, k, ⟨?_, ?_, fun _ _ => hone⟩, ?_⟩
  · intro i d hd
    rw [hhistory] at hd
    rw [← hb, List.length_append]
    exact Nat.lt_succ_of_lt (h.begun i d hd)
  · rw [hhistory, hcount, ← hb]
    exact h.before
  · intro i j e f next next' hi hj
    have hown {i : Nat} {e : Effect A} {next : e.Reply → Activity A Activity.Attempt}
        (hi : b'.attempt? i = some (.step e next)) : i = b.tasks.length := by
      by_cases hlast : i = b.tasks.length
      · exact hlast
      · rw [hother i hlast] at hi
        exact absurd hi (hidle i e next)
    exact (hown hi).trans (hown hj).symm
  · intro i q hq
    by_cases hlast : i = b.tasks.length
    · rw [hlast, hself] at hq
      cases hq
      exact hp.mono hone
    · rw [hother i hlast] at hq
      exact hk.underWay i q hq
  · rw [hhistory, hcount]
    exact hle

/-- The world may change under the tasks, as long as nothing is poised again that was cancelled. -/
theorem Winding.withWorld (h : b.Winding) (w : World A)
    (hc : b.world.engine.validation.confirmCancelled = true →
      w.engine.validation.confirmCancelled = true ∧ (w.Poised → b.world.Poised)) :
    Winding { b with world := w } :=
  h.aside rfl (Nat.le_refl _) [] rfl (fun _ hx => nomatch hx) (fun _ _ hd => nomatch hd) hc

theorem Winding.fired (h : b.Winding) (w : World A) (id : TimerId)
    (hc : b.world.engine.validation.confirmCancelled = true →
      w.engine.validation.confirmCancelled = true ∧ (w.Poised → b.world.Poised)) :
    Winding ⟨w, b.tasks, .fired b.world id :: b.history⟩ := by
  refine h.aside rfl (Nat.le_refl _) [_] rfl ?_ ?_ hc
  · simp [confirms]
  · simp

theorem Winding.go (h : b.Winding) (task : Nat) (s : Saying) : (b.advance task s).Winding := by
  unfold advance
  cases ht : b.tasks[task]? with
  | none => exact h
  | some t =>
    have hlt : task < b.tasks.length := (List.getElem?_eq_some_iff.mp ht).1
    cases t with
    | attempt rest =>
      have hattempt : b.attempt? task = some rest := by simp [attempt?, ht]
      cases rest with
      | done a => exact h
      | died => exact h
      | step e next => exact h.attempt hattempt s
    | call rest =>
      have hcall : b.attempt? task = none := by simp [attempt?, ht]
      cases rest with
      | done a => exact h
      | died => exact h
      | step e next =>
        dsimp only [Option.bind_some, Task.advance]
        have hsame : attempt? ⟨(b.world.undergo s e).2,
            b.tasks.set task (.call (next (b.world.undergo s e).1)),
            .did task ⟨b.world, e, (b.world.undergo s e).1⟩ :: b.history⟩ = b.attempt? := by
          funext i
          by_cases hi : task = i
          · rw [← hi, hcall]
            simp [attempt?, List.getElem?_set_self hlt]
          · simp only [attempt?, List.getElem?_set_ne hi]
        refine h.aside hsame (by simp) [_] rfl ?_ ?_ fun hc => ?_
        · simp [confirms, hsame, hcall]
        · rintro i d hd
          cases List.mem_singleton.mp hd
          rwa [List.length_set]
        · exact ⟨b.world.cancelled_undergo s e hc, b.world.poised_undergo s e hc⟩

theorem Winding.step (h : b.Winding) (m : Move A) : (b.step m).Winding := by
  cases m with
  | call c =>
    have hsame : ({ b with tasks := b.tasks ++ [.call c.activity] } : Boot A).attempt? = b.attempt? := by
      funext i
      by_cases hi : i = b.tasks.length
      · rw [hi, attempt?_length]
        simp [attempt?]
      · exact attempt?_append _ _ _ hi
    exact h.aside hsame (by simp [Boot.step]) [] rfl (fun _ hx => nomatch hx) (fun _ _ hd => nomatch hd)
      fun hc => ⟨hc, id⟩
  | attempt =>
    change b.beginAttempt.Winding
    unfold beginAttempt
    split
    · rename_i c hc
      split
      · rename_i hidle
        exact h.begin (Activity.atMost_confirmAttempt _ _) ⟨c, hc, hidle.1⟩ (by simpa using hidle.2)
      · exact h
    · exact h
  | wake =>
    change b.wake.Winding
    unfold wake
    dsimp only
    split
    · split
      · refine h.withWorld _ fun hc => ⟨hc, ?_⟩
        rintro ⟨c, hsome, hphase⟩
        cases hsome
        simp [hc] at hphase
      · exact h
    · exact h
  | go task s => exact h.go task s
  | fire id =>
    change (b.fire id).Winding
    by_cases hf : b.world.device.timers.fuse id = true
    · rw [fire_of_fuse hf]
      exact h.fired _ id (World.poised_rollbackDue (b.world.expire id))
    · unfold fire
      rwa [if_neg hf]
  | disturb s => exact h.withWorld _ fun hc => ⟨hc, id⟩

/-! ## The end of the confirmation -/

/-- A confirmation that was cancelled ends when it looks. -/
theorem ended_wake (hc : b.world.engine.validation.confirmCancelled = true)
    (hn : b.tasks.any Task.attempting = false) {c : Confirmation}
    (h : b.wake.world.engine.validation.confirmation = some c) : c.phase = .ended ∨ c.phase = .broken := by
  unfold wake at h
  dsimp only at h
  split at h
  · rename_i c₀ hc₀
    split at h
    · cases h
      exact .inl rfl
    · rename_i hphase
      obtain rfl : c₀ = c := Option.some.inj (hc₀.symm.trans h)
      cases hp : c₀.phase with
      | poised | resting => exact absurd (by simp [hp, hn]) hphase
      | broken => exact .inr rfl
      | ended => exact .inl rfl
  · rename_i hnone
    rw [hnone] at h
    cases h

end Boot

/-- However its steps and those of the others come about, the confirmation task sends at most one report
after it has been cancelled. -/
theorem Race.winding_run (d : Device) (version : String) (steps : List (Race.Step A)) :
    ((Race.start A d version).run steps).boot.Winding := by
  have hstart : (Race.start A d version).boot.Winding := by
    refine ⟨(fun _ _ h => nomatch h), fun _ => rfl, 1, ⟨?_, ?_, fun _ _ => Nat.le_refl 1⟩, Nat.le_refl 1⟩
    · intro i j e f next next' h
      cases h
    · intro i p h
      cases h
  refine Race.run_induction hstart (fun b m h => h.step m) ?_ ?_ steps
  · intro b id h
    exact h.withWorld _ fun hc => ⟨hc, fun hp => hp⟩
  · intro b id h
    exact h.fired _ id (World.poised_rollbackDue b.world)

end FirmwareUpdate
