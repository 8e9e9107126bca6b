import FirmwareUpdate.Proofs.Interleaving

/-!
# Rules of conduct

A rule says what a routine may request next, after what it has done itself. That a routine keeps to a
rule does not depend on what it finds or is answered, so it can be checked along the routine, part by
part. In a boot many routines take turns; each of them still keeps to the rule, after its own deeds
alone.
-/

namespace FirmwareUpdate

/-! ## Along a routine -/

namespace Routine

variable {E : Type} {R : E → Type} {σ α β : Type}

/-- Whatever it finds and is answered, the routine requests what the rule allows after its past, the
newest deed first, and ends as described. -/
def Heeds (rule : List (Deed R σ) → E → Prop) (ends : Option α → List (Deed R σ) → Prop) :
    Routine R α → List (Deed R σ) → Prop
  | .done a, past => ends (some a) past
  | .died, past => ends none past
  | .step e next, past => rule past e ∧ ∀ s r, (next r).Heeds rule ends (⟨s, e, r⟩ :: past)

namespace Heeds

variable {rule rule' : List (Deed R σ) → E → Prop} {ends ends' : Option α → List (Deed R σ) → Prop}
  {p : Routine R α} {past : List (Deed R σ)}

theorem mono (h : p.Heeds rule ends past) (hr : ∀ past e, rule past e → rule' past e)
    (he : ∀ o past, ends o past → ends' o past) : p.Heeds rule' ends' past := by
  induction p generalizing past with
  | done a => exact he _ _ h
  | died => exact he _ _ h
  | step e next ih => exact ⟨hr _ _ h.1, fun s r => ih r (h.2 s r)⟩

/-- What deeds that keep to the rule preserve holds along the routine, and at its end. -/
theorem keeps {I : List (Deed R σ) → Prop} (h : p.Heeds rule ends past) (hi : I past)
    (hd : ∀ past d, rule past d.request → I past → I (d :: past)) :
    p.Heeds (fun past e => rule past e ∧ I past) (fun o past => ends o past ∧ I past) past := by
  induction p generalizing past with
  | done a => exact ⟨h, hi⟩
  | died => exact ⟨h, hi⟩
  | step e next ih => exact ⟨⟨h.1, hi⟩, fun s r => ih r (h.2 s r) (hd past ⟨s, e, r⟩ h.1 hi)⟩

theorem always (p : Routine R α) (past : List (Deed R σ)) :
    p.Heeds (fun _ _ => True) (fun _ _ => True) past := by
  induction p generalizing past with
  | done a => trivial
  | died => trivial
  | step e next ih => exact ⟨trivial, fun s r => ih r _⟩

/-- What a routine may request only where it is allowed anyway needs no look at its past. -/
theorem of_only {P : E → Prop} (h : p.Only P) (hr : ∀ past e, P e → rule past e) :
    p.Heeds rule (fun _ _ => True) past := by
  induction p generalizing past with
  | done a => trivial
  | died => trivial
  | step e next ih => exact ⟨hr past e h.1, fun s r => ih r (h.2 r)⟩

theorem request {e : E} {ends : Option (R e) → List (Deed R σ) → Prop} (h : rule past e)
    (he : ∀ s r, ends (some r) (⟨s, e, r⟩ :: past)) : (Routine.request e).Heeds rule ends past := ⟨h, he⟩

theorem bind {f : α → Routine R β} {ends' : Option β → List (Deed R σ) → Prop}
    (h : p.Heeds rule ends past) (hf : ∀ a past, ends (some a) past → (f a).Heeds rule ends' past)
    (hd : ∀ past, ends none past → ends' none past) : (p >>= f).Heeds rule ends' past := by
  induction p generalizing past with
  | done a => exact hf a past h
  | died => exact hd past h
  | step e next ih => exact ⟨h.1, fun s r => ih r (h.2 s r)⟩

/-- Ends that hang on the deeds alone are passed on from part to part. -/
theorem andThen {f : α → Routine R β} {ends : List (Deed R σ) → Prop} (h : p.Heeds rule (fun _ => ends) past)
    (hf : ∀ a past, ends past → (f a).Heeds rule (fun _ => ends) past) :
    (p >>= f).Heeds rule (fun _ => ends) past := h.bind hf fun _ h => h

theorem attempt {ends : Option (Option α) → List (Deed R σ) → Prop}
    (h : p.Heeds rule (fun o => ends (some o)) past) : p.attempt.Heeds rule ends past := by
  induction p generalizing past with
  | done a => exact h
  | died => exact h
  | step e next ih => exact ⟨h.1, fun s r => ih r (h.2 s r)⟩

theorem ensuring {after : Routine R Unit} (h : p.Heeds rule ends past)
    (ha : ∀ o past, ends o past → after.Heeds rule (fun _ => ends' o) past)
    (hd : ∀ a past, ends' (some a) past → ends' none past) : (p.ensuring after).Heeds rule ends' past := by
  have hattempt : p.attempt.Heeds rule (fun o past => ∃ o', o = some o' ∧ ends o' past) past :=
    attempt (h.mono (fun _ _ h => h) fun o _ h => ⟨o, rfl, h⟩)
  refine hattempt.bind ?_ (fun _ ⟨_, h, _⟩ => nomatch h)
  rintro o past ⟨o', ho, h⟩
  cases ho
  cases o with
  | none => exact (ha none past h).bind (fun _ _ h => h) fun _ h => h
  | some a => exact (ha (some a) past h).bind (fun _ _ h => h) fun past h => hd a past h

theorem only {P : E → Prop} [Nonempty σ] (h : p.Heeds rule ends past) (hp : ∀ past e, rule past e → P e) :
    p.Only P := by
  induction p generalizing past with
  | done a => trivial
  | died => trivial
  | step e next ih => exact ⟨hp _ _ h.1, fun r => ih r (h.2 (Classical.choice ‹_›) r)⟩

end Heeds

/-- The deeds, the oldest first, are those of a whole run of the routine with the given end. -/
inductive Ran : Routine R α → List (Deed R σ) → Option α → Prop
  | done (a : α) : Ran (.done a) [] (some a)
  | died : Ran .died [] none
  | step {e : E} {next : R e → Routine R α} {t : List (Deed R σ)} {o : Option α} (s : σ) (r : R e)
      (h : Ran (next r) t o) : Ran (.step e next) (⟨s, e, r⟩ :: t) o

theorem Ran.ends {rule : List (Deed R σ) → E → Prop} {ends : Option α → List (Deed R σ) → Prop}
    {p : Routine R α} {past t : List (Deed R σ)} {o : Option α} (hr : Ran p t o)
    (h : p.Heeds rule ends past) : ends o (t.reverse ++ past) := by
  induction hr generalizing past with
  | done a => exact h
  | died => exact h
  | step s r _ ih => simpa using ih (h.2 s r)

theorem Ran.of_bind {p : Routine R α} {f : α → Routine R β} {t : List (Deed R σ)} {o : Option β}
    (h : Ran (p >>= f) t o) : (∃ a t₁ t₂, Ran p t₁ (some a) ∧ Ran (f a) t₂ o ∧ t = t₁ ++ t₂) ∨
      Ran p t none ∧ o = none := by
  induction p generalizing t with
  | done a => exact .inl ⟨a, [], t, .done a, h, rfl⟩
  | died =>
    cases h
    exact .inr ⟨.died, rfl⟩
  | step e next ih =>
    obtain _ | _ | ⟨s, r, hnext⟩ := h
    rcases ih r hnext with ⟨a, t₁, t₂, h₁, h₂, rfl⟩ | ⟨hdied, rfl⟩
    · exact .inl ⟨a, _, t₂, .step s r h₁, h₂, rfl⟩
    · exact .inr ⟨.step s r hdied, rfl⟩

theorem Ran.of_bind_done {p : Routine R α} {f : α → β} {t : List (Deed R σ)} {o : Option β}
    (h : Ran (p >>= fun a => .done (f a)) t o) : ∃ o', Ran p t o' ∧ o = o'.map f := by
  rcases h.of_bind with ⟨a, t₁, t₂, hp, hdone, rfl⟩ | ⟨hp, rfl⟩
  · cases hdone
    exact ⟨some a, by simpa using hp, rfl⟩
  · exact ⟨none, hp, rfl⟩

theorem Ran.of_attempt {p : Routine R α} {t : List (Deed R σ)} {o : Option (Option α)}
    (h : Ran p.attempt t o) : ∃ o', o = some o' ∧ Ran p t o' := by
  induction p generalizing t with
  | done a =>
    cases h
    exact ⟨_, rfl, .done a⟩
  | died =>
    cases h
    exact ⟨_, rfl, .died⟩
  | step e next ih =>
    obtain _ | _ | ⟨s, r, hnext⟩ := h
    obtain ⟨o', rfl, hp⟩ := ih r hnext
    exact ⟨o', rfl, .step s r hp⟩

theorem Ran.of_ensuring {p : Routine R α} {after : Routine R Unit} {t : List (Deed R σ)} {o : Option α}
    (h : Ran (p.ensuring after) t o) :
    ∃ o' t₁ t₂ u, Ran p t₁ o' ∧ Ran after t₂ u ∧ t = t₁ ++ t₂ ∧ o = u.bind fun _ => o' := by
  rcases h.of_bind with ⟨o', t₁, t₂, hp, ha, rfl⟩ | ⟨hp, -⟩
  · obtain ⟨_, ho, hp⟩ := hp.of_attempt
    cases ho
    -- what comes after is the same after an end and after a death
    cases o' with
    | none =>
      rcases Ran.of_bind (p := after) ha with ⟨u, t₂, t₃, hafter, hend, rfl⟩ | ⟨hafter, rfl⟩
      · cases hend
        exact ⟨_, t₁, t₂, some u, hp, hafter, by simp, rfl⟩
      · exact ⟨_, t₁, t₂, none, hp, hafter, rfl, rfl⟩
    | some a =>
      rcases Ran.of_bind (p := after) ha with ⟨u, t₂, t₃, hafter, hend, rfl⟩ | ⟨hafter, rfl⟩
      · cases hend
        exact ⟨_, t₁, t₂, some u, hp, hafter, by simp, rfl⟩
      · exact ⟨_, t₁, t₂, none, hp, hafter, rfl, rfl⟩
  · obtain ⟨_, ho, -⟩ := hp.of_attempt
    cases ho

theorem Ran.only {P : E → Prop} {p : Routine R α} {t : List (Deed R σ)} {o : Option α} (h : Ran p t o)
    (hp : p.Only P) : ∀ d ∈ t, P d.request := by
  induction h with
  | done | died => exact fun _ hd => nomatch hd
  | step s r _ ih => exact List.forall_mem_cons.mpr ⟨hp.1, ih (hp.2 r)⟩

theorem ran_trace (answer : (e : E) → σ → R e × σ) (p : Routine R α) (s : σ) :
    Ran p (p.trace answer s) (p.run answer s).1 := by
  induction p generalizing s with
  | done a => exact .done a
  | died => exact .died
  | step e next ih => exact .step s _ (ih _ _)

end Routine

/-! ## In a boot -/

open Routine

variable {A : Application}

def Happening.deedBy (task : Nat) : Happening A → Option (Deed A)
  | did i d => if i = task then some d else none
  | fired .. => none

def deedsBy (task : Nat) (history : List (Happening A)) : List (Deed A) :=
  history.filterMap (Happening.deedBy task)

section
variable {task : Nat} {d : Deed A} {history : List (Happening A)}

theorem deedsBy_append (later earlier : List (Happening A)) :
    deedsBy task (later ++ earlier) = deedsBy task later ++ deedsBy task earlier := List.filterMap_append

theorem deedsBy_did (earlier : List (Happening A)) :
    deedsBy task (.did task d :: earlier) = d :: deedsBy task earlier := by
  simp [deedsBy, Happening.deedBy]

theorem deedsBy_map_did (ds : List (Deed A)) : deedsBy task (ds.map (.did task)) = ds := by
  induction ds with
  | nil => rfl
  | cons d ds ih => rw [List.map_cons, deedsBy_did, ih]

theorem deedsBy_did_ne {i : Nat} (h : i ≠ task) (earlier : List (Happening A)) :
    deedsBy task (.did i d :: earlier) = deedsBy task earlier := by
  simp [deedsBy, Happening.deedBy, h]

theorem did_of_deedBy {x : Happening A} (h : x.deedBy task = some d) : x = .did task d := by
  cases x with
  | fired => cases h
  | did i d' =>
    change (if i = task then some d' else none) = some d at h
    split at h
    · rename_i hi
      cases h
      rw [hi]
    · cases h

theorem mem_deedsBy : d ∈ deedsBy task history ↔ .did task d ∈ history := by
  unfold deedsBy
  rw [List.mem_filterMap]
  constructor
  · rintro ⟨x, hx, hd⟩
    exact did_of_deedBy hd ▸ hx
  · intro h
    exact ⟨_, h, by simp [Happening.deedBy]⟩

/-- A deed of a task stands in the history with the deeds that the task has done before and since. -/
theorem split_of_deedsBy (recent : List (Deed A)) {past : List (Deed A)}
    (h : deedsBy task history = recent ++ d :: past) :
    ∃ between before, history = between ++ .did task d :: before ∧ deedsBy task between = recent ∧
      deedsBy task before = past := by
  induction history generalizing recent with
  | nil => cases recent <;> cases h
  | cons x earlier ih =>
    cases hx : x.deedBy task with
    | none =>
      have htail (l : List (Happening A)) : deedsBy task (x :: l) = deedsBy task l := by simp [deedsBy, hx]
      obtain ⟨between, before, rfl, hb, hp⟩ := ih recent ((htail earlier).symm.trans h)
      exact ⟨x :: between, before, rfl, (htail between).trans hb, hp⟩
    | some d' =>
      obtain rfl := did_of_deedBy hx
      rw [deedsBy_did] at h
      cases recent with
      | nil =>
        obtain ⟨rfl, hp⟩ := List.cons.inj h
        exact ⟨[], earlier, rfl, rfl, hp⟩
      | cons d'' recent =>
        obtain ⟨rfl, htail⟩ := List.cons.inj h
        obtain ⟨between, before, rfl, hb, hp⟩ := ih recent htail
        exact ⟨.did task d' :: between, before, rfl, by rw [deedsBy_did, hb], hp⟩

end

def Task.Heeds (rule : List (Deed A) → Effect A → Prop) (ends : List (Deed A) → Prop) :
    Task A → List (Deed A) → Prop
  | .call rest, past => Routine.Heeds rule (fun _ => ends) rest past
  | .attempt rest, past => Routine.Heeds rule (fun _ => ends) rest past

theorem Task.heeds_advance {rule : List (Deed A) → Effect A → Prop} {ends : List (Deed A) → Prop}
    {t t' : Task A} {past : List (Deed A)} {s : Saying} {w w' : World A} {d : Deed A}
    (h : t.Heeds rule ends past) (ha : t.advance s w = some (d, t', w')) :
    rule past d.request ∧ t'.Heeds rule ends (d :: past) := by
  unfold advance at ha
  split at ha
  · cases ha
    exact ⟨h.1, h.2 _ _⟩
  · cases ha
    exact ⟨h.1, h.2 _ _⟩
  · cases ha

def Task.next? : Task A → Option (Effect A)
  | .call (.step e _) | .attempt (.step e _) => some e
  | _ => none

theorem Task.Heeds.next {rule : List (Deed A) → Effect A → Prop} {ends : List (Deed A) → Prop} {t : Task A}
    {past : List (Deed A)} (h : t.Heeds rule ends past) :
    (t.next? = none ∧ ends past) ∨ ∃ e, t.next? = some e ∧ rule past e := by
  cases t with
  | call rest | attempt rest =>
    cases rest with
    | done a => exact .inl ⟨rfl, h⟩
    | died => exact .inl ⟨rfl, h⟩
    | step e next => exact .inr ⟨e, rfl, h.1⟩

def Happening.Heeds (rule : List (Deed A) → Effect A → Prop) (x : Happening A)
    (earlier : List (Happening A)) : Prop :=
  ∀ task d, x = .did task d → rule (deedsBy task earlier) d.request

namespace Boot

structure Heeding (rule : List (Deed A) → Effect A → Prop) (ends : List (Deed A) → Prop) (b : Boot A) :
    Prop where
  begun : ∀ task d, .did task d ∈ b.history → task < b.tasks.length
  tasks : ∀ i (t : Task A), b.tasks[i]? = some t → t.Heeds rule ends (deedsBy i b.history)
  history : Throughout (Happening.Heeds rule) b.history

variable {rule : List (Deed A) → Effect A → Prop} {ends : List (Deed A) → Prop} {b : Boot A}

theorem Heeding.add (h : b.Heeding rule ends) {t : Task A} (ht : t.Heeds rule ends []) :
    Heeding rule ends { b with tasks := b.tasks ++ [t] } where
  begun task d hd := by
    rw [List.length_append]
    exact Nat.lt_succ_of_lt (h.begun task d hd)
  tasks i t' hi := by
    rw [List.getElem?_append] at hi
    split at hi
    · exact h.tasks i t' hi
    · rename_i hlt
      obtain rfl : t = t' := List.mem_singleton.mp (List.mem_of_getElem? hi) |>.symm
      -- a task that is new has done nothing
      have hnone : deedsBy i b.history = [] := List.eq_nil_iff_forall_not_mem.mpr fun d hd =>
        hlt (h.begun i d (mem_deedsBy.mp hd))
      rw [hnone]
      exact ht
  history := h.history

theorem Heeding.fired (h : b.Heeding rule ends) (w : World A) (id : TimerId) :
    Heeding rule ends ⟨w, b.tasks, .fired b.world id :: b.history⟩ where
  begun task d hd := by
    rcases List.mem_cons.mp hd with he | hd
    · cases he
    · exact h.begun task d hd
  tasks := h.tasks
  history := ⟨(fun _ _ he => nomatch he), h.history⟩

theorem Heeding.step (h : b.Heeding rule ends) {m : Move A}
    (hc : ∀ c, m = .call c → (Task.call c.activity).Heeds rule ends [])
    (ha : ∀ attempt interval, (Task.attempt (Activity.confirmAttempt attempt interval)).Heeds rule ends []) :
    (b.step m).Heeding rule ends := by
  cases m with
  | call c => exact h.add (t := .call c.activity) (hc c rfl)
  | attempt =>
    change b.beginAttempt.Heeding rule ends
    unfold beginAttempt
    split
    · split
      · exact h.add (ha _ _)
      · exact h
    · exact h
  | wake =>
    change b.wake.Heeding rule ends
    unfold wake
    dsimp only
    split
    · split
      · exact ⟨h.begun, h.tasks, h.history⟩
      · exact h
    · exact h
  | go task s =>
    change (b.advance task s).Heeding rule ends
    unfold advance
    split
    · rename_i d t' w' hb
      obtain ⟨t, ht, hadvance⟩ := Option.bind_eq_some_iff.mp hb
      have hlt : task < b.tasks.length := (List.getElem?_eq_some_iff.mp ht).1
      obtain ⟨hrule, hnext⟩ := Task.heeds_advance (h.tasks task t ht) hadvance
      refine ⟨?_, ?_, ?_, h.history⟩
      · intro i d' hd
        rw [List.length_set]
        rcases List.mem_cons.mp hd with he | hd
        · cases he
          exact hlt
        · exact h.begun i d' hd
      · intro i t₁ hi
        by_cases hj : task = i
        · subst hj
          rw [List.getElem?_set_self hlt] at hi
          cases hi
          rw [deedsBy_did]
          exact hnext
        · rw [List.getElem?_set_ne hj] at hi
          rw [deedsBy_did_ne hj]
          exact h.tasks i t₁ hi
      · intro i d' he
        cases he
        exact hrule
    · exact h
  | fire id =>
    change (b.fire id).Heeding rule ends
    unfold fire
    split
    · exact h.fired _ id
    · exact h
  | disturb s => exact ⟨h.begun, h.tasks, h.history⟩

theorem heeding_run (d : Device) (version : String) {ms : List (Move A)}
    (hc : ∀ c, .call c ∈ ms → (Task.call c.activity).Heeds rule ends [])
    (ha : ∀ attempt interval, (Task.attempt (Activity.confirmAttempt attempt interval)).Heeds rule ends []) :
    ((start A d version).run ms).Heeding rule ends := by
  have hstart : (start A d version).Heeding rule ends :=
    ⟨(fun _ _ h => nomatch h), (fun _ _ h => nomatch h), trivial⟩
  apply run_induction hstart
  intro b m hmem h
  apply h.step _ ha
  rintro c rfl
  exact hc c hmem

/-- What every turn preserves that keeps to the rule held of what every happening found. -/
theorem run_throughout_heeding {P : World A → List (Happening A) → Prop}
    (ht : ∀ {w h w' h'}, Turn w h w' h' → P w h → Throughout (Happening.Heeds rule) h' → P w' h') (d : Device)
    (version : String) (hs : P (start A d version).world []) {ms : List (Move A)}
    (hh : Throughout (Happening.Heeds rule) ((start A d version).run ms).history) :
    P ((start A d version).run ms).world ((start A d version).run ms).history ∧
    Throughout (fun x earlier => P x.found earlier) ((start A d version).run ms).history := by
  have hturn {w w' : World A} {h h' : List (Happening A)} (hm : Turn w h w' h')
      (hp : Throughout (Happening.Heeds rule) h → P w h) (hg : Throughout (Happening.Heeds rule) h') : P w' h' := by
    refine ht hm (hp ?_) hg
    cases hm with
    | paced | surrounded => exact hg
    | did | fired => exact hg.2
  obtain ⟨hworld, hfound⟩ := run_throughout (P := fun w h => Throughout (Happening.Heeds rule) h → P w h) hturn d
    version (fun _ => hs) ms
  refine ⟨hworld hh, ?_⟩
  generalize ((start A d version).run ms).history = history at hfound hh
  induction history with
  | nil => trivial
  | cons x earlier ih => exact ⟨hfound.1 hh.2, ih hfound.2 hh.2⟩

structure Minding (rule : List (Deed A) → Effect A → Prop) (ends : List (Deed A) → Prop) (task : Nat)
    (b : Boot A) : Prop where
  undone : ∃ t : Task A, b.tasks[task]? = some t ∧ t.Heeds rule ends (deedsBy task b.history)
  history : Throughout (fun x earlier => ∀ d, x = .did task d → rule (deedsBy task earlier) d.request)
    b.history

theorem Minding.step {task : Nat} (h : b.Minding rule ends task) (m : Move A) :
    (b.step m).Minding rule ends task := by
  obtain ⟨t, ht, hheeds⟩ := h.undone
  have hlt : task < b.tasks.length := (List.getElem?_eq_some_iff.mp ht).1
  have hadd (t' : Task A) : Minding rule ends task { b with tasks := b.tasks ++ [t'] } :=
    ⟨⟨t, by rw [List.getElem?_append_left hlt, ht], hheeds⟩, h.history⟩
  cases m with
  | call c => exact hadd _
  | attempt =>
    change b.beginAttempt.Minding rule ends task
    unfold beginAttempt
    split
    · split
      · exact hadd _
      · exact h
    · exact h
  | wake =>
    change b.wake.Minding rule ends task
    unfold wake
    dsimp only
    split
    · split
      · exact ⟨h.undone, h.history⟩
      · exact h
    · exact h
  | go i s =>
    change (b.advance i s).Minding rule ends task
    unfold advance
    split
    · rename_i d t' w' hb
      obtain ⟨t₀, ht₀, hadvance⟩ := Option.bind_eq_some_iff.mp hb
      by_cases hi : i = task
      · subst hi
        obtain rfl : t = t₀ := Option.some.inj (ht.symm.trans ht₀)
        obtain ⟨hrule, hnext⟩ := Task.heeds_advance hheeds hadvance
        refine ⟨⟨t', List.getElem?_set_self hlt, ?_⟩, ?_, h.history⟩
        · rw [deedsBy_did]
          exact hnext
        · rintro d' he
          cases he
          exact hrule
      · refine ⟨⟨t, ?_, ?_⟩, ?_, h.history⟩
        · rw [List.getElem?_set_ne hi, ht]
        · rw [deedsBy_did_ne hi]
          exact hheeds
        · rintro d' he
          cases he
          exact absurd rfl hi
    · exact h
  | fire id =>
    change (b.fire id).Minding rule ends task
    unfold fire
    split
    · exact ⟨h.undone, (fun _ he => nomatch he), h.history⟩
    · exact h
  | disturb s => exact ⟨h.undone, h.history⟩

/-- A call that is made now has done nothing yet, and keeps to its own rule. -/
theorem Minding.call (hb : ∀ task d, .did task d ∈ b.history → task < b.tasks.length) {c : Call A}
    (hc : (Task.call c.activity).Heeds rule ends []) : (b.step (.call c)).Minding rule ends b.tasks.length := by
  have hnone (d : Deed A) : .did b.tasks.length d ∉ b.history := fun hd => Nat.lt_irrefl _ (hb _ d hd)
  refine ⟨⟨.call c.activity, List.getElem?_concat_length, ?_⟩, ?_⟩
  · have hnew : deedsBy b.tasks.length b.history = [] :=
      List.eq_nil_iff_forall_not_mem.mpr fun d hd => hnone d (mem_deedsBy.mp hd)
    change Task.Heeds rule ends _ (deedsBy _ b.history)
    rw [hnew]
    exact hc
  · refine Throughout.of_forall fun x hx earlier d he => ?_
    subst he
    exact absurd hx (hnone d)

/-- A call keeps to its own rule, from wherever the boot is when it is made. -/
theorem minding_run (d : Device) (version : String) {c : Call A} (hc : (Task.call c.activity).Heeds rule ends [])
    (before after : List (Move A)) : Minding rule ends ((start A d version).run before).tasks.length
      ((start A d version).run (before ++ .call c :: after)) := by
  have hall : ((start A d version).run before).Heeding (fun _ _ => True) fun _ => True :=
    heeding_run d version (fun _ _ => Routine.Heeds.always _ _) fun _ _ => Routine.Heeds.always _ _
  rw [run_append]
  generalize (start A d version).run before = b at hall ⊢
  exact run_induction (b := b.step (.call c)) (Minding.call hall.begun hc) after fun _ m _ h => h.step m

/-- What a task has done first in the later part of a history, or is about to do. -/
def nextOf (b : Boot A) (task : Nat) (later : List (Happening A)) : Option (Effect A) :=
  match (deedsBy task later).getLast? with
  | some d => some d.request
  | none => b.tasks[task]?.bind Task.next?

theorem Heeding.next (h : b.Heeding rule ends) {task : Nat} {later earlier : List (Happening A)}
    (hh : b.history = later ++ earlier) (hd : deedsBy task earlier ≠ []) :
    (b.nextOf task later = none ∧ ends (deedsBy task earlier)) ∨
      ∃ e, b.nextOf task later = some e ∧ rule (deedsBy task earlier) e := by
  unfold nextOf
  cases hl : (deedsBy task later).getLast? with
  | some d =>
    obtain ⟨recent, hr⟩ := List.getLast?_eq_some_iff.mp hl
    obtain ⟨between, before, rfl, -, hbefore⟩ := split_of_deedsBy recent hr
    refine .inr ⟨d.request, rfl, ?_⟩
    have hrule := h.history
    rw [hh, List.append_assoc, List.cons_append] at hrule
    have hrule := hrule.split task d rfl
    rwa [deedsBy_append, hbefore, List.nil_append] at hrule
  | none =>
    obtain ⟨d, past, hp⟩ := List.exists_cons_of_ne_nil hd
    have hmem : .did task d ∈ b.history := by
      rw [hh]
      exact List.mem_append_right _ (mem_deedsBy.mp (hp ▸ List.mem_cons_self))
    have hlt := h.begun task d hmem
    have ht : b.tasks[task]? = some b.tasks[task] := List.getElem?_eq_getElem hlt
    have htask := h.tasks task _ ht
    rw [hh, deedsBy_append, List.getLast?_eq_none_iff.mp hl, List.nil_append] at htask
    rw [ht]
    exact htask.next

/-! ## Undisturbed -/

theorem history_run (b : Boot A) (ms : List (Move A)) : ∃ later, (b.run ms).history = later ++ b.history := by
  refine run_turns (P := fun _ h => ∃ later, h = later ++ b.history) ?_ ⟨[], rfl⟩ ms
  rintro w h w' h' ht ⟨later, rfl⟩
  cases ht with
  | paced | surrounded => exact ⟨later, rfl⟩
  | did | fired => exact ⟨_ :: later, rfl⟩

abbrev undergoing (s : Saying) (e : Effect A) (w : World A) : e.Reply × World A := w.undergo s e

end Boot

open Boot

def Routine.ended {E : Type} {R : E → Type} {α : Type} : Option α → Routine R α
  | some a => .done a
  | none => .died

namespace Task

/-- With nothing in between the task does these deeds, and then it is over. -/
inductive Alone (s : Saying) : Task A → World A → List (Deed A) → Task A → World A → Prop
  | ended {t : Task A} {w : World A} (h : ∀ w, t.advance s w = none) : Alone s t w [] t w
  | go {t t' t'' : Task A} {w w' w'' : World A} {d : Deed A} {ds : List (Deed A)}
      (h : t.advance s w = some (d, t', w')) (h' : Alone s t' w' ds t'' w'') : Alone s t w (d :: ds) t'' w''

theorem alone_call (s : Saying) (p : Activity A Unit) (w : World A) :
    (call p).Alone s w (p.trace (undergoing s) w) (.call (ended (Routine.run (undergoing s) p w).1))
      (Routine.run (undergoing s) p w).2 := by
  induction p generalizing w with
  | done a => exact .ended fun _ => rfl
  | died => exact .ended fun _ => rfl
  | step e next ih => exact .go rfl (ih _ _)

/-- The world learns that an attempt is over together with its last effect. -/
theorem alone_attempt (s : Saying) (p : Activity A Activity.Attempt) (w : World A) :
    (attempt p).Alone s (w.afterAttempt p) (p.trace (undergoing s) w)
      (.attempt (ended (Routine.run (undergoing s) p w).1))
      ((Routine.run (undergoing s) p w).2.afterAttempt (ended (Routine.run (undergoing s) p w).1)) := by
  induction p generalizing w with
  | done a => exact .ended fun _ => rfl
  | died => exact .ended fun _ => rfl
  | step e next ih => exact .go rfl (ih _ _)

end Task

namespace Boot

/-- A task that has enough turns of its own, with none in between, runs to its end. -/
theorem run_task {b : Boot A} {task : Nat} {s : Saying} {t t' : Task A} {ds : List (Deed A)} {w' : World A}
    (hb : b.tasks[task]? = some t) (h : t.Alone s b.world ds t' w') {n : Nat} (hn : ds.length ≤ n) :
    b.run (List.replicate n (.go task s)) =
      ⟨w', b.tasks.set task t', (ds.map (Happening.did task)).reverse ++ b.history⟩ := by
  have hlt : task < b.tasks.length := (List.getElem?_eq_some_iff.mp hb).1
  generalize hw : b.world = w at h
  induction h generalizing b n with
  | @ended t w ht =>
    subst hw
    have hset : b.tasks.set task t = b.tasks := by
      rw [List.getElem?_eq_getElem hlt, Option.some.injEq] at hb
      rw [← hb, List.set_getElem_self hlt]
    have hstep : b.step (.go task s) = b := by
      change b.advance task s = b
      unfold advance
      rw [hb, Option.bind_some, ht]
    rw [hset]
    clear hn
    induction n with
    | zero => rfl
    | succ n ih => rwa [List.replicate_succ, run, List.foldl_cons, hstep]
  | @go t t₁ t' w w₁ w' d ds ht h' ih =>
    subst hw
    cases n with
    | zero => cases hn
    | succ n =>
      have hstep : b.step (.go task s) = ⟨w₁, b.tasks.set task t₁, .did task d :: b.history⟩ := by
        change b.advance task s = _
        unfold advance
        rw [hb, Option.bind_some, ht]
      have hrest := ih (b := b.step (.go task s)) (n := n)
        (by rw [hstep]; exact List.getElem?_set_self hlt) (Nat.le_of_succ_le_succ hn)
        (by rw [hstep, List.length_set]; exact hlt) (by rw [hstep])
      rw [List.replicate_succ, run, List.foldl_cons]
      change run _ _ = _
      rw [hrest, hstep]
      simp

/-- A call that has enough turns of its own, with none in between, runs to its end. -/
theorem run_alone {b : Boot A} {task : Nat} {p : Activity A Unit} (hb : b.tasks[task]? = some (.call p))
    (s : Saying) {n : Nat} (hn : (p.trace (undergoing s) b.world).length ≤ n) :
    b.run (List.replicate n (.go task s)) = ⟨(Routine.run (undergoing s) p b.world).2,
      b.tasks.set task (.call (ended (Routine.run (undergoing s) p b.world).1)),
      ((p.trace (undergoing s) b.world).map (Happening.did task)).reverse ++ b.history⟩ :=
  run_task hb (Task.alone_call s p b.world) hn

/-- What it has done stays a stretch of what the task has done, whatever comes after. -/
theorem infix_alone {b : Boot A} {task : Nat} {p : Activity A Unit} (hb : b.tasks[task]? = some (.call p))
    (s : Saying) {n : Nat} (hn : (p.trace (undergoing s) b.world).length ≤ n) (ms : List (Move A)) :
    p.trace (undergoing s) b.world <:+:
      (deedsBy task ((b.run (List.replicate n (.go task s))).run ms).history).reverse := by
  obtain ⟨later, hlater⟩ := (b.run (List.replicate n (.go task s))).history_run ms
  refine ⟨(deedsBy task b.history).reverse, (deedsBy task later).reverse, ?_⟩
  rw [hlater, run_alone hb s hn, deedsBy_append, deedsBy_append, ← List.map_reverse, deedsBy_map_did]
  simp

/-- A call that has enough turns of its own, with none in between, is made from its beginning to its end. -/
theorem infix_call {α : Type} {c : Call A} {p : Activity A α} (hc : c.activity = (p >>= fun _ => .done ()))
    (b : Boot A) (s : Saying) {n : Nat} (hn : (p.trace (undergoing s) b.world).length ≤ n) (ms : List (Move A)) :
    p.trace (undergoing s) b.world <:+: (deedsBy b.tasks.length
      (b.run (.call c :: List.replicate n (.go b.tasks.length s) ++ ms)).history).reverse := by
  have htask : (b.step (.call c)).tasks[b.tasks.length]? = some (.call c.activity) := List.getElem?_concat_length
  have htrace : c.activity.trace (undergoing s) (b.step (.call c)).world = p.trace (undergoing s) b.world := by
    rw [hc]
    exact trace_bind_done _ _ _
  rw [← htrace] at hn ⊢
  rw [run_append]
  exact infix_alone htask s hn ms

theorem infix_fetch (b : Boot A) (s : Saying) {n : Nat}
    (hn : (Activity.fetch.trace (undergoing s) b.world).length ≤ n) (ms : List (Move A)) :
    Activity.fetch.trace (undergoing s) b.world <:+: (deedsBy b.tasks.length
      (b.run (.call .fetch :: List.replicate n (.go b.tasks.length s) ++ ms)).history).reverse :=
  infix_call rfl b s hn ms

/-! ## While nothing is confirmed -/

structure Calling (P : World A → List (Happening A) → Prop) (R : Activity A Unit → Prop) (b : Boot A) :
    Prop where
  holds : P b.world b.history
  tasks : ∀ t ∈ b.tasks, ∃ rest, t = .call rest ∧ R rest

/-- A move begins a call, takes one a step further, or comes from outside; without a confirmation there is
no attempt to make. -/
theorem Calling.step {P : World A → List (Happening A) → Prop} {R : Activity A Unit → Prop} {b : Boot A}
    (h : b.Calling P R) (hu : b.world.engine.validation.confirmation = none) {m : Move A}
    (hcall : ∀ c, m = .call c → R c.activity)
    (hgo : ∀ task s e next, R (.step e next) →
      (b.step m).history = .did task ⟨b.world, e, (b.world.undergo s e).1⟩ :: b.history →
      P (b.world.undergo s e).2 (b.step m).history ∧ R (next (b.world.undergo s e).1))
    (hfire : ∀ id, b.world.device.timers.fuse id = true →
      P (b.world.fireOnce id).2 (.fired b.world id :: b.history))
    (hdisturb : ∀ s, P { b.world with device := b.world.device.surround s } b.history) :
    (b.step m).Calling P R := by
  cases m with
  | call c =>
    refine ⟨h.holds, ?_⟩
    intro t ht
    rcases List.mem_append.mp ht with ht | ht
    · exact h.tasks t ht
    · rw [List.mem_singleton.mp ht]
      exact ⟨_, rfl, hcall c rfl⟩
  | attempt =>
    change b.beginAttempt.Calling P R
    unfold beginAttempt
    rw [hu]
    exact h
  | wake =>
    change b.wake.Calling P R
    unfold wake
    dsimp only
    rw [hu]
    exact h
  | go task s =>
    change (b.advance task s).Calling P R
    replace hgo : ∀ task' s' e next, R (.step e next) →
      (b.advance task s).history = .did task' ⟨b.world, e, (b.world.undergo s' e).1⟩ :: b.history →
      P (b.world.undergo s' e).2 (b.advance task s).history ∧ R (next (b.world.undergo s' e).1) := hgo
    unfold advance at hgo ⊢
    cases ht : b.tasks[task]? with
    | none => exact h
    | some t =>
      rw [ht] at hgo
      obtain ⟨rest, rfl, hrest⟩ := h.tasks t (List.mem_of_getElem? ht)
      cases rest with
      | done a => exact h
      | died => exact h
      | step e next =>
        obtain ⟨hholds, hnext⟩ := hgo task s e next hrest rfl
        refine ⟨hholds, ?_⟩
        intro t ht
        rcases List.mem_or_eq_of_mem_set ht with ht | rfl
        · exact h.tasks t ht
        · exact ⟨_, rfl, hnext⟩
  | fire id =>
    change (b.fire id).Calling P R
    unfold fire
    split
    · rename_i hf
      exact ⟨hfire id hf, h.tasks⟩
    · exact h
  | disturb s => exact ⟨hdisturb s, h.tasks⟩

end Boot

end FirmwareUpdate
