import FirmwareUpdate.Proofs.AutofetchTimers
import FirmwareUpdate.Proofs.Leftovers

/-!
# Ticks that outlive the engine's disabling

Disabling the engine cancels the autofetch timer, so no further tick is accepted, unless the timer owes one
because its period was over by then. A tick that waits in the buffer stays there, and its round is begun all the
same. The round asks nothing of the service unless the engine has been enabled again when the round looks at it;
if it has, the round fetches.
-/

namespace FirmwareUpdate

open Routine

variable {A : Application}

/-! ## A timer that is gone -/

section
variable {w w' : World A} {h h' : List (Happening A)}

/-- A periodic timer stays as it is or is cancelled. -/
theorem Turn.entry (ht : Turn w h w' h') (hw : w.Timed) {id : TimerId} {t : Timer}
    (hi : w.device.timers[id]? = some t) (hk : t.kind = .periodic) : ∃ t', w'.device.timers[id]? = some t' ∧
      t'.kind = .periodic ∧ (t'.state = t.state ∨ t'.state = .cancelled) := by
  rcases ht.enabling hw with hs | ⟨config, handler, r, w₁, c, hinstall, rfl⟩ | ⟨r, w₁, c, huninstall, rfl⟩
  · have hentry := hs.timers.entry id (by simp [Timers.kind?, hi, hk])
    exact ⟨t, hentry.trans hi, hk, .inl rfl⟩
  · cases hinstall with
    | refused | silent => exact ⟨t, hi, hk, .inl rfl⟩
    | polling =>
      refine ⟨t, ?_, hk, .inl rfl⟩
      exact (List.getElem?_append_left (List.getElem?_eq_some_iff.mp hi).1).trans hi
  · cases huninstall with
    | refused | silent => exact ⟨t, hi, hk, .inl rfl⟩
    | @polling journal e j =>
      show ∃ t', (w.device.timers.cancel j).2[id]? = some t' ∧ _
      unfold Timers.cancel
      split
      · rw [Timers.getElem?_setState, hi]
        split
        · exact ⟨_, rfl, hk, .inr rfl⟩
        · exact ⟨t, rfl, hk, .inl rfl⟩
      · exact ⟨t, hi, hk, .inl rfl⟩

def World.Gone (w : World A) (id : TimerId) : Prop :=
  ∃ t, w.device.timers[id]? = some t ∧ t.kind = .periodic ∧ t.state ≠ .armed

theorem Turn.gone (ht : Turn w h w' h') (hw : w.Timed) {id : TimerId} (hg : w.Gone id) : w'.Gone id := by
  obtain ⟨t, hi, hk, hs⟩ := hg
  obtain ⟨t', hi', hk', hs'⟩ := ht.entry hw hi hk
  refine ⟨t', hi', hk', ?_⟩
  rcases hs' with hs' | hs'
  · rwa [hs']
  · rw [hs']
    exact nofun

namespace World

theorem Gone.unarmed {id : TimerId} (hg : w.Gone id) : w.device.timers.isArmed id = false := by
  obtain ⟨t, hi, -, hs⟩ := hg
  simpa [Timers.isArmed, hi] using hs

/-- When the engine is disabled, all its autofetch timers are gone. -/
theorem Polled.gone (hp : w.Polled) (hoff : w.engine.enabled = none) {id : TimerId}
    (hk : w.device.timers.kind? id = some .periodic) : w.Gone id := by
  obtain ⟨t, hi, hk⟩ := Option.map_eq_some_iff.mp hk
  refine ⟨t, hi, hk, fun hs => ?_⟩
  have hmem : t ∈ w.device.timers.polling :=
    List.mem_filter.mpr ⟨List.mem_of_getElem? hi, by simp [Timer.polls, hk, hs]⟩
  rw [hp.polling, duePolling, hoff] at hmem
  cases hmem

end World

end

/-! ## Rounds and ticks -/

namespace World

theorem worker_setWorker (w : World A) (id j : TimerId) (worker : Worker) :
    (w.setWorker id worker).worker j = if j = id then worker else w.worker j := by
  unfold World.worker setWorker
  rw [List.lookup_cons, Store.lookup_filter_ne]
  by_cases hj : j = id
  · simp [hj]
  · have hne : (j == id) = false := by simpa using hj
    simp [hj, hne]

/-- A tick that is accepted has gone to the worker. Any other changes nothing in the engine. -/
theorem offerTick_cases (w : World A) (id : TimerId) :
    ((w.offerTick id).1 ≠ .accepted ∧ (w.offerTick id).2.engine = w.engine) ∨ ((w.offerTick id).1 = .accepted ∧
      (w.worker id).offer.1 = true ∧ (w.offerTick id).2 = w.setWorker id (w.worker id).offer.2) := by
  unfold offerTick
  split
  · exact .inl ⟨nofun, rfl⟩
  cases ho : (w.worker id).offer with
  | mk taken worker =>
    cases taken with
    | false => exact .inl ⟨nofun, rfl⟩
    | true => exact .inr ⟨rfl, rfl, rfl⟩

end World

/-- A worker is as it was, or new together with its timer. -/
theorem Turn.worker {w w' : World A} {h h' : List (Happening A)} (ht : Turn w h w' h') (hw : w.Timed)
    (id : TimerId) : w'.worker id = w.worker id ∨ w'.worker id = .idle ∧ w.device.timers.kind? id = none := by
  rcases ht.enabling hw with hs | ⟨config, handler, r, w₁, c, hinstall, rfl⟩ | ⟨r, w₁, c, huninstall, rfl⟩
  · left
    unfold World.worker
    rw [hs.workers]
  · cases hinstall with
    | refused | silent => exact .inl rfl
    | polling =>
      by_cases hid : id = w.device.timers.length
      · right
        simp [hid, World.worker, World.withConfirmation, World.withValidation, Timers.kind?]
      · left
        have hne : (id == w.device.timers.length) = false := by simpa using hid
        simp [World.worker, World.withConfirmation, World.withValidation, List.lookup_cons, hne]
  · cases huninstall <;> exact .inl rfl

namespace Ticking

def accepted (r : Ticking A) (id : TimerId) : Nat := r.ticks.countP fun x => x.1 == id && x.2 == .accepted

def started (r : Ticking A) (id : TimerId) : Nat := r.rounds.countP (·.1 == id)

/-- Every worker accounts for the ticks of its timer. What never was an autofetch timer has no ticks, and owes
none. -/
structure Accounted (r : Ticking A) : Prop where
  account : ∀ id, ∃ finished, (r.boot.world.worker id).Account (r.accepted id) (r.started id) finished
  known : ∀ id, r.boot.world.device.timers.kind? id ≠ some .periodic → r.accepted id = 0
  owed : ∀ id ∈ r.owing, r.boot.world.device.timers.kind? id = some .periodic

namespace Accounted

variable {r : Ticking A}

theorem move (h : r.Accounted) (ht : r.boot.world.Timed) (m : Move A) : (r.step (.move m)).Accounted := by
  have hturn := r.boot.turn_step m
  have hkept {id : TimerId} (hp : r.boot.world.device.timers.kind? id = some .periodic) :
      (r.boot.step m).world.device.timers.kind? id = some .periodic := by
    obtain ⟨t, hi, hp⟩ := Option.map_eq_some_iff.mp hp
    obtain ⟨t', hi', hp', -⟩ := hturn.entry ht hi hp
    exact Option.map_eq_some_iff.mpr ⟨t', hi', hp'⟩
  refine ⟨fun id => ?_, fun id hk => h.known id fun hp => hk (hkept hp), fun id hid => hkept (h.owed id hid)⟩
  · show ∃ finished, ((r.boot.step m).world.worker id).Account (r.accepted id) (r.started id) finished
    rcases hturn.worker ht id with hsame | ⟨hidle, hnone⟩
    · rw [hsame]
      exact h.account id
    · -- a timer that is new has no ticks, and so no rounds
      obtain ⟨finished, ha, hs⟩ := h.account id
      have hzero : r.accepted id = 0 := h.known id (by rw [hnone]; nofun)
      have hstarted : r.started id = 0 := by omega
      rw [hidle, hzero, hstarted]
      exact ⟨0, Worker.account_idle 0⟩

theorem elapse (h : r.Accounted) (id : TimerId) : (r.step (.elapse id)).Accounted := by
  simp only [step, Ticking.elapse]
  split
  · rename_i hk
    exact ⟨h.account, h.known, List.forall_mem_cons.mpr ⟨hk.1, h.owed⟩⟩
  · exact h

theorem offer (h : r.Accounted) (id : TimerId) : (r.step (.offer id)).Accounted := by
  simp only [step, Ticking.offer]
  split
  · rename_i hid
    have hk := h.owed id hid
    have htimers := (r.boot.world.stirred_offerTick id).timers
    refine ⟨fun j => ?_, fun j hj => ?_, fun j hj => ?_⟩
    · obtain ⟨finished, ha⟩ := h.account j
      refine ⟨finished, ?_⟩
      show ((r.boot.world.offerTick id).2.worker j).Account
        (((id, (r.boot.world.offerTick id).1) :: r.ticks).countP _) (r.started j) finished
      rw [countP_cons_toNat]
      rcases r.boot.world.offerTick_cases id with ⟨hfate, hengine⟩ | ⟨hfate, hoffer, hworld⟩
      · have hnone : ((r.boot.world.offerTick id).1 == .accepted) = false := beq_false_of_ne hfate
        rw [hnone, Bool.and_false, World.worker, hengine]
        exact ha
      · rw [hfate, hworld, World.worker_setWorker]
        by_cases hj : j = id
        · subst hj
          simpa [hoffer, accepted] using ha.offer
        · have hne : (id == j) = false := beq_false_of_ne (Ne.symm hj)
          simpa [hj, hne, accepted] using ha
    · have hne : (id == j) = false := by
        refine beq_false_of_ne ?_
        rintro rfl
        exact hj (htimers ▸ hk)
      have hold : r.accepted j = 0 := h.known j (htimers ▸ hj)
      simpa [accepted, hne] using hold
    · have hj := h.owed j (List.mem_filter.mp hj).1
      exact htimers ▸ hj
  · exact h

theorem take (h : r.Accounted) (id : TimerId) : (r.step (.take id)).Accounted := by
  simp only [step, Ticking.take]
  split
  · exact h
  · rename_i w hw
    obtain ⟨htakes, rfl⟩ := Prod.mk.inj hw
    have htakes : (r.boot.world.worker id).take.1 = true := htakes
    refine ⟨fun j => ?_, h.known, h.owed⟩
    obtain ⟨finished, ha⟩ := h.account j
    refine ⟨finished, ?_⟩
    show ((r.boot.world.setWorker id (r.boot.world.worker id).take.2).worker j).Account (r.accepted j)
      (((id, r.boot.tasks.length) :: r.rounds).countP _) finished
    rw [countP_cons_toNat, World.worker_setWorker]
    by_cases hj : j = id
    · subst hj
      simpa [htakes, started] using ha.take
    · have hne : (id == j) = false := beq_false_of_ne (Ne.symm hj)
      simpa [hj, hne, started] using ha

theorem finish (h : r.Accounted) (id : TimerId) : (r.step (.finish id)).Accounted := by
  simp only [step, Ticking.finish]
  split
  · refine ⟨fun j => ?_, h.known, h.owed⟩
    obtain ⟨finished, ha⟩ := h.account j
    show ∃ finished, ((r.boot.world.setWorker id (r.boot.world.worker id).finish).worker j).Account
      (r.accepted j) (r.started j) finished
    rw [World.worker_setWorker]
    by_cases hj : j = id
    · subst hj
      exact ⟨_, by simpa using ha.finish⟩
    · exact ⟨finished, by simpa [hj] using ha⟩
  · exact ⟨h.account, h.known, h.owed⟩
  · exact h

end Accounted

theorem accounted_run (d : Device) (version : String) (steps : List (Step A)) :
    ((start A d version).run steps).Accounted := by
  have hrun : ((start A d version).run steps).boot.world.Timed ∧ ((start A d version).run steps).Accounted := by
    refine run_induction (P := fun r => r.boot.world.Timed ∧ r.Accounted) ?_ ?_ steps
    · exact ⟨World.timed_boot d version, fun id => ⟨0, Worker.account_idle 0⟩, fun _ _ => rfl,
        List.forall_mem_nil _⟩
    · rintro r st ⟨ht, h⟩
      refine ⟨?_, ?_⟩
      · exact boot_step (P := fun b => b.world.Timed) (fun b m hb => ((b.turn_step m).net hb).1)
          (fun b w hw hb => hw.keepsNet.timed hb) ht st
      · cases st with
        | move m => exact h.move ht m
        | elapse id => exact h.elapse id
        | offer id => exact h.offer id
        | take id => exact h.take id
        | finish id => exact h.finish id
  exact hrun.2

end Ticking

/-! ## What a round does -/

def Effect.online : Effect A → Bool
  | .get _ | .post .. | .openImage _ => true
  | _ => false

def admits : Deed A → Bool
  | ⟨_, .admission, .ok _⟩ => true
  | _ => false

/-- Nobody goes online who was not admitted, and nobody looks at the engine who has not looked at the flag. -/
structure Admitting (past : List (Deed A)) (e : Effect A) : Prop where
  online : e.online = true → ∃ d ∈ past, admits d = true
  admission : e = .admission → ∃ d ∈ past, d.request = .inProgress

def GoesOnline (past : List (Deed A)) : Prop :=
  (∃ d ∈ past, admits d = true) → ∃ d ∈ past, d.request.online = true

section
variable {past : List (Deed A)}

theorem GoesOnline.of_none (h : ∀ d ∈ past, admits d = false) : GoesOnline past := by
  rintro ⟨d, hd, ha⟩
  exact absurd ha (by simp [h d hd])

theorem GoesOnline.note {e : Event} {w : World A} (h : GoesOnline past) :
    GoesOnline (⟨w, .note e, ()⟩ :: past) := by
  rintro ⟨d, hd, ha⟩
  rcases List.mem_cons.mp hd with rfl | hd
  · cases ha
  · obtain ⟨x, hx, ho⟩ := h ⟨d, hd, ha⟩
    exact ⟨x, List.mem_cons_of_mem _ hx, ho⟩

end

namespace Activity

variable {α : Type} {past : List (Deed A)}

theorem heeds_note_admitting (e : Event) (h : GoesOnline past) :
    (note e : Activity A Unit).Heeds Admitting (fun _ => GoesOnline) past :=
  .request ⟨nofun, nofun⟩ fun _ _ => GoesOnline.note h

/-- Once admitted and online, whatever comes keeps to the rule. -/
theorem heeds_admitted (p : Activity A α) (hq : ∃ d ∈ past, d.request = .inProgress)
    (ha : ∃ d ∈ past, admits d = true) (ho : ∃ d ∈ past, d.request.online = true) :
    p.Heeds Admitting (fun _ => GoesOnline) past := by
  have hcons {P : Deed A → Prop} (x : Deed A) {past : List (Deed A)} (h : ∃ d ∈ past, P d) :
      ∃ d ∈ x :: past, P d := by
    obtain ⟨d, hd, hp⟩ := h
    exact ⟨d, List.mem_cons_of_mem _ hd, hp⟩
  induction p generalizing past with
  | done a => exact fun _ => ho
  | died => exact fun _ => ho
  | step e next ih => exact ⟨⟨fun _ => ha, fun _ => hq⟩, fun s r => ih r (hcons _ hq) (hcons _ ha) (hcons _ ho)⟩

theorem heeds_fetch_admitting (h : ∀ d ∈ past, admits d = false) :
    (fetch : Activity A _).Heeds Admitting (fun _ => GoesOnline) past := by
  refine ⟨⟨nofun, nofun⟩, fun w busy => ?_⟩
  have hlooked : ∀ d ∈ (⟨w, .inProgress, busy⟩ : Deed A) :: past, admits d = false :=
    List.forall_mem_cons.mpr ⟨rfl, h⟩
  cases busy with
  | true => exact GoesOnline.of_none hlooked
  | false =>
    refine ⟨⟨nofun, fun _ => ⟨_, List.mem_cons_self, rfl⟩⟩, fun w' r => ?_⟩
    cases r with
    | error e => exact GoesOnline.of_none (List.forall_mem_cons.mpr ⟨rfl, hlooked⟩)
    | ok a =>
      -- what is noted, then what is asked
      refine ⟨⟨nofun, nofun⟩, fun s _ => ⟨⟨fun _ => ⟨⟨w', .admission, .ok a⟩, by simp, rfl⟩, nofun⟩, fun s' r => ?_⟩⟩
      refine heeds_admitted _ ⟨⟨w, .inProgress, false⟩, by simp, rfl⟩ ⟨⟨w', .admission, .ok a⟩, by simp, rfl⟩
        ⟨_, List.mem_cons_self, rfl⟩

theorem heeds_autofetchRound_admitting :
    (autofetchRound : Activity A Unit).Heeds Admitting (fun _ => GoesOnline) [] := by
  have hchecking : (note .autofetchChecking : Activity A Unit).Heeds Admitting
      (fun _ past => ∀ d ∈ past, admits d = false) [] :=
    .request ⟨nofun, nofun⟩ fun _ _ => List.forall_mem_singleton.mpr rfl
  refine hchecking.bind (fun _ past h => ?_) fun _ h => GoesOnline.of_none h
  refine (heeds_fetch_admitting h).andThen fun r past h => ?_
  split
  · exact h
  · exact heeds_note_admitting _ h
  · exact heeds_note_admitting _ h

end Activity

/-! ## After the engine has been disabled -/

def World.Reenabled (earlier : List (Happening A)) (w : World A) (h : List (Happening A)) : Prop :=
  ∃ news, h = news ++ earlier ∧ (w.engine.enabled ≠ none → ∃ x ∈ news, x.enables = true) ∧
    ∀ x ∈ news, x.found.engine.enabled ≠ none → ∃ y ∈ news, y.enables = true

theorem Turn.reenabled {earlier : List (Happening A)} {w w' : World A} {h h' : List (Happening A)}
    (ht : Turn w h w' h') (hr : w.Reenabled earlier h) : w'.Reenabled earlier h' := by
  obtain ⟨news, rfl, hw, hfound⟩ := hr
  have hmore (x : Happening A) (hx : ∃ y ∈ news, y.enables = true) : ∃ y ∈ x :: news, y.enables = true := by
    obtain ⟨y, hy, he⟩ := hx
    exact ⟨y, List.mem_cons_of_mem _ hy, he⟩
  cases ht with
  | paced | surrounded => exact ⟨news, rfl, hw, hfound⟩
  | fired id =>
    refine ⟨.fired w id :: news, rfl, fun he => hmore _ (hw ?_), ?_⟩
    · rwa [(w.trialStep_fireOnce id).enabled] at he
    · rw [List.forall_mem_cons]
      exact ⟨fun he => hmore _ (hw he), fun x hx he => hmore _ (hfound x hx he)⟩
  | did task s e c =>
    refine ⟨.did task ⟨w, e, (w.undergo s e).1⟩ :: news, rfl, fun he => ?_, ?_⟩
    · cases hn : (Happening.did task ⟨w, e, (w.undergo s e).1⟩).enables with
      | true => exact ⟨_, List.mem_cons_self, hn⟩
      | false =>
        refine hmore _ (hw fun hnone => he ?_)
        exact World.unenabled_undergo hnone s (World.refuses_of_unenabled hnone s hn)
    · rw [List.forall_mem_cons]
      exact ⟨fun he => hmore _ (hw he), fun x hx he => hmore _ (hfound x hx he)⟩

namespace Ticking

structure Rounding (r : Ticking A) : Prop where
  begun : r.boot.Heeding (fun _ _ => True) fun _ => True
  rounds : ∀ x ∈ r.rounds, r.boot.Minding Admitting GoesOnline x.2

theorem Rounding.withWorld {r : Ticking A} (h : r.Rounding) (w : World A) : (r.withWorld w).Rounding where
  begun := ⟨h.begun.begun, h.begun.tasks, h.begun.history⟩
  rounds x hx := ⟨(h.rounds x hx).undone, (h.rounds x hx).history⟩

theorem Rounding.move {r : Ticking A} (h : r.Rounding) (m : Move A) : (r.step (.move m)).Rounding where
  begun := h.begun.step (fun _ _ => Routine.Heeds.always _ _) fun _ _ => Routine.Heeds.always _ _
  rounds x hx := (h.rounds x hx).step m

theorem Rounding.step {r : Ticking A} (h : r.Rounding) (st : Step A) : (r.step st).Rounding := by
  cases st with
  | move m => exact h.move m
  | elapse id =>
    simp only [Ticking.step, Ticking.elapse]
    split
    · exact ⟨h.begun, h.rounds⟩
    · exact h
  | offer id =>
    simp only [Ticking.step, Ticking.offer]
    split
    · have hnext := h.withWorld (r.boot.world.offerTick id).2
      exact ⟨hnext.begun, hnext.rounds⟩
    · exact h
  | take id =>
    simp only [Ticking.step, Ticking.take]
    split
    · exact h
    · rename_i w hw
      have hnext := h.withWorld w
      refine ⟨(hnext.move (.call .autofetch)).begun, List.forall_mem_cons.mpr ⟨?_, ?_⟩⟩
      · exact .call hnext.begun.begun Activity.heeds_autofetchRound_admitting
      · exact (hnext.move (.call .autofetch)).rounds
  | finish id =>
    simp only [Ticking.step, Ticking.finish]
    split
    · exact h.withWorld _
    · exact h.withWorld _
    · exact h

theorem rounding_run (d : Device) (version : String) (steps : List (Step A)) :
    ((start A d version).run steps).Rounding := by
  refine run_induction (P := Rounding) ?_ (fun r st h => h.step st) steps
  exact ⟨⟨(fun _ _ h => nomatch h), (fun _ _ h => nomatch h), trivial⟩, fun _ h => nomatch h⟩

def owed (r : Ticking A) (id : TimerId) : Nat := (r.owing.contains id).toNat

theorem accepted_offer {r : Ticking A} {j : TimerId} (hj : j ∈ r.owing) (id : TimerId) :
    (r.offer j).accepted id =
      r.accepted id + (j == id && (r.boot.world.offerTick j).1 == .accepted).toNat := by
  unfold offer
  rw [if_pos hj]
  exact countP_cons_toNat ..

theorem owed_offer {r : Ticking A} {j : TimerId} (hj : j ∈ r.owing) (id : TimerId) :
    (r.offer j).owed id = if id = j then 0 else r.owed id := by
  unfold offer
  rw [if_pos hj]
  by_cases hid : id = j <;> simp [owed, hid]

structure Spent (id : TimerId) (ticks due : Nat) (r : Ticking A) : Prop where
  timed : r.boot.world.Timed
  gone : r.boot.world.Gone id
  kept : ticks ≤ r.accepted id
  balance : r.accepted id + r.owed id ≤ ticks + due

theorem Spent.step {id : TimerId} {ticks due : Nat} {r : Ticking A} (h : r.Spent id ticks due) (st : Step A) :
    (r.step st).Spent id ticks due := by
  obtain ⟨htimed, hgone⟩ : (r.step st).boot.world.Timed ∧ (r.step st).boot.world.Gone id := by
    refine boot_step (P := fun b => b.world.Timed ∧ b.world.Gone id) (fun b m hb => ?_) (fun b w hw hb => ?_)
      ⟨h.timed, h.gone⟩ st
    · exact ⟨((b.turn_step m).net hb.1).1, (b.turn_step m).gone hb.1 hb.2⟩
    · refine ⟨hw.keepsNet.timed hb.1, ?_⟩
      show ∃ t, w.device.timers[id]? = some t ∧ _
      rw [hw.timers]
      exact hb.2
  have hsame {r' : Ticking A} (ha : r'.accepted id = r.accepted id) (ho : r'.owed id = r.owed id) :
      ticks ≤ r'.accepted id ∧ r'.accepted id + r'.owed id ≤ ticks + due := by
    rw [ha, ho]
    exact ⟨h.kept, h.balance⟩
  suffices hb : ticks ≤ (r.step st).accepted id ∧
      (r.step st).accepted id + (r.step st).owed id ≤ ticks + due from ⟨htimed, hgone, hb.1, hb.2⟩
  cases st with
  | move m => exact hsame rfl rfl
  | elapse j =>
    simp only [Ticking.step, Ticking.elapse]
    split
    · rename_i hj
      -- it is the period of another timer that is over
      have hne : id ≠ j := by
        rintro rfl
        cases hj.2.1.symm.trans h.gone.unarmed
      exact hsame rfl (by simp [owed, hne])
    · exact hsame rfl rfl
  | offer j =>
    show ticks ≤ (r.offer j).accepted id ∧ (r.offer j).accepted id + (r.offer j).owed id ≤ ticks + due
    by_cases hj : j ∈ r.owing
    · have haccepted := accepted_offer hj id
      have howed := owed_offer hj id
      by_cases hid : id = j
      · subst hid
        rw [if_pos rfl] at howed
        have hdue : r.owed id = 1 := by simp [owed, hj]
        have hone := Bool.toNat_le (id == id && (r.boot.world.offerTick id).1 == .accepted)
        have hkept := h.kept
        have hbalance := h.balance
        exact ⟨by omega, by omega⟩
      · rw [if_neg hid] at howed
        have hother : (j == id) = false := beq_false_of_ne (Ne.symm hid)
        rw [hother] at haccepted
        exact hsame haccepted howed
    · rw [Ticking.offer, if_neg hj]
      exact hsame rfl rfl
  | take j =>
    simp only [Ticking.step, Ticking.take]
    split <;> exact hsame rfl rfl
  | finish j =>
    simp only [Ticking.step, Ticking.finish]
    split <;> exact hsame rfl rfl

theorem spent_run {r : Ticking A} (ht : r.boot.world.Timed) (hp : r.boot.world.Polled)
    (hoff : r.boot.world.engine.enabled = none) {id : TimerId}
    (hk : r.boot.world.device.timers.kind? id = some .periodic) (after : List (Step A)) :
    (r.run after).Spent id (r.accepted id) (r.owed id) :=
  run_induction (P := Spent id (r.accepted id) (r.owed id)) ⟨ht, hp.gone hoff hk, Nat.le_refl _, Nat.le_refl _⟩
    (fun _ st h => h.step st) after

theorem reenabled_run {r : Ticking A} (hoff : r.boot.world.engine.enabled = none) (after : List (Step A)) :
    (r.run after).boot.world.Reenabled r.boot.history (r.run after).boot.history := by
  refine run_turns (P := World.Reenabled r.boot.history) (fun ht hr => ht.reenabled hr) ?_ ?_ after
  · rintro w h w' ⟨-, workers, deserted, he⟩ ⟨news, hn, hw, hfound⟩
    exact ⟨news, hn, fun hne => hw (by rwa [he] at hne), hfound⟩
  · exact ⟨[], rfl, fun hne => absurd hoff hne, List.forall_mem_nil _⟩

/-- The engine is disabled, and the round is for a tick of a timer that was set before and has not looked at
the engine yet. -/
structure Late (r q : Ticking A) (id : TimerId) (task : Nat) : Prop where
  disabled : r.boot.world.engine.enabled = none
  timer : r.boot.world.device.timers.kind? id = some .periodic
  round : (id, task) ∈ q.rounds
  unstarted : ∀ x ∈ deedsBy task r.boot.history, x.request ≠ .inProgress

end Ticking

/-- A task that has gone online was admitted, and that after it first looked at the engine. -/
theorem Boot.Minding.admitted {b : Boot A} {task : Nat} {ends : List (Deed A) → Prop}
    (h : b.Minding Admitting ends task) {later earlier : List (Happening A)} (hb : b.history = later ++ earlier)
    (hlate : ∀ x ∈ deedsBy task earlier, x.request ≠ .inProgress)
    (ho : ∃ x ∈ deedsBy task b.history, x.request.online = true) : ∃ x ∈ deedsBy task later, admits x = true := by
  obtain ⟨x, hx, ho⟩ := ho
  obtain ⟨l₁, l₂, hsplit⟩ := List.append_of_mem (mem_deedsBy.mp hx)
  have hrule := h.history
  rw [hsplit] at hrule
  obtain ⟨a, ha, hadmits⟩ := (hrule.split x rfl).online ho
  have hmem : .did task a ∈ later ++ earlier := by
    rw [← hb, hsplit]
    exact List.mem_append_right _ (List.mem_cons_of_mem _ (mem_deedsBy.mp ha))
  rcases List.mem_append.mp hmem with hmem | hmem
  · exact ⟨a, mem_deedsBy.mpr hmem, hadmits⟩
  · -- who was admitted has looked at the flag before
    obtain ⟨l₃, l₄, rfl⟩ := List.append_of_mem hmem
    have hrule := h.history
    rw [hb, ← List.append_assoc] at hrule
    have hrequest : a.request = .admission := by
      unfold admits at hadmits
      split at hadmits
      · rfl
      · cases hadmits
    obtain ⟨f, hf, hflag⟩ := (hrule.split a rfl).admission hrequest
    refine absurd hflag (hlate f ?_)
    rw [deedsBy_append, deedsBy_did]
    exact List.mem_append_right _ (List.mem_cons_of_mem _ hf)

/-- Who is admitted has found the engine enabled. -/
theorem enabled_of_admits {x : Deed A} (h : admits x = true)
    (hr : ∃ s, x.reply = (x.found.undergo s x.request).1) : x.found.engine.enabled ≠ none := by
  unfold admits at h
  split at h
  · rename_i w a
    obtain ⟨s, hr⟩ := hr
    have hr : .ok a = w.admission := hr
    intro hnone
    rw [World.admission, hnone] at hr
    cases hr
  · cases h

namespace Ticking

variable (d : Device) (version : String)

/-- After the engine has been disabled an old timer has no more ticks accepted than the one that it owes, and no
rounds but for the accepted ones. A round that is late goes online only if the engine has been enabled again, and
it does so just if it finds the engine enabled. -/
theorem late_round {before after : List (Step A)} {id : TimerId} {task : Nat}
    (h : Late ((start A d version).run before) ((start A d version).run (before ++ after)) id task) :
    (((start A d version).run before).accepted id ≤ ((start A d version).run (before ++ after)).accepted id ∧
      ((start A d version).run (before ++ after)).accepted id + ((start A d version).run (before ++ after)).owed id ≤
        ((start A d version).run before).accepted id + ((start A d version).run before).owed id) ∧
    ((start A d version).run (before ++ after)).started id ≤
      ((start A d version).run before).accepted id + ((start A d version).run before).owed id ∧
    ∃ later, ((start A d version).run (before ++ after)).boot.history =
        later ++ ((start A d version).run before).boot.history ∧
      ((∃ x ∈ deedsBy task ((start A d version).run (before ++ after)).boot.history, x.request.online = true) →
        (∃ x ∈ deedsBy task later, admits x = true) ∧ ∃ y ∈ later, y.enables = true) ∧
      (((start A d version).run (before ++ after)).boot.tasks[task]?.bind Task.next? = none →
        ((∃ x ∈ deedsBy task ((start A d version).run (before ++ after)).boot.history, x.request.online = true) ↔
          ∃ x ∈ deedsBy task later, admits x = true)) := by
  have hspent := spent_run (timed_run d version before) (polled_run d version before) h.disabled h.timer after
  have hreenabled := reenabled_run h.disabled after
  have hminding := (rounding_run d version (before ++ after)).rounds _ h.round
  rw [← run_append] at hspent hreenabled
  refine ⟨⟨hspent.kept, hspent.balance⟩, ?_, ?_⟩
  · obtain ⟨finished, ha, -⟩ := (accounted_run d version (before ++ after)).account id
    have hbalance := hspent.balance
    omega
  obtain ⟨later, hlater, -, hfound⟩ := hreenabled
  have hadmitted := hminding.admitted hlater h.unstarted
  refine ⟨later, hlater, fun ho => ⟨hadmitted ho, ?_⟩, fun hover => ⟨hadmitted, ?_⟩⟩
  · obtain ⟨a, ha, hadmits⟩ := hadmitted ho
    have ha := mem_deedsBy.mp ha
    refine hfound _ ha (enabled_of_admits hadmits (replied d version (before ++ after) (i := task) ?_))
    rw [hlater, deedsBy_append]
    exact List.mem_append_left _ (mem_deedsBy.mpr ha)
  · rintro ⟨a, ha, hadmits⟩
    obtain ⟨t, ht, hheeds⟩ := hminding.undone
    rw [ht] at hover
    rcases hheeds.next with ⟨-, hends⟩ | ⟨e, he, -⟩
    · refine hends ⟨a, ?_, hadmits⟩
      rw [hlater, deedsBy_append]
      exact List.mem_append_left _ ha
    · exact absurd (he.symm.trans hover) nofun

open Boot

def tickWaiting : List (Step Agent.application) :=
  enabling.map .move ++ [.elapse 0, .offer 0, .move (.call .disable), .move (.go 1 obliging)]

def enablingAgain (hours : UInt32) : List (Step Agent.application) :=
  .move (.call (.enable { Config.default with autofetchPeriodHours := hours } none none)) ::
    List.replicate 2 (.move (.go 2 obliging)) ++ .take 0 :: List.replicate 6 (.move (.go 3 obliging))

theorem late_enablingAgain {hours : UInt32} (h : hours = 0 ∨ hours = 24) :
    Late ((start Agent.application (.fresh .valid) "1.0.0").run tickWaiting)
      ((start Agent.application (.fresh .valid) "1.0.0").run (tickWaiting ++ enablingAgain hours)) 0 3 := by
  have hnone : deedsBy 3 ((start Agent.application (.fresh .valid) "1.0.0").run tickWaiting).boot.history = [] :=
    List.isEmpty_iff.mp (by decide +kernel)
  refine ⟨Option.isNone_iff_eq_none.mp (by decide +kernel), by decide +kernel, ?_, by simp [hnone]⟩
  rcases h with rfl | rfl
  · decide +kernel
  · decide +kernel

theorem late_round_enablingAgain :
    ((start Agent.application (.fresh .valid) "1.0.0").run (tickWaiting ++ enablingAgain 24)).accepted 0 =
      ((start Agent.application (.fresh .valid) "1.0.0").run tickWaiting).accepted 0 ∧
    ((start Agent.application (.fresh .valid) "1.0.0").run (tickWaiting ++ enablingAgain 24)).started 0 ≤
      ((start Agent.application (.fresh .valid) "1.0.0").run tickWaiting).accepted 0 ∧
    ∃ later, ((start Agent.application (.fresh .valid) "1.0.0").run
        (tickWaiting ++ enablingAgain 24)).boot.history =
        later ++ ((start Agent.application (.fresh .valid) "1.0.0").run tickWaiting).boot.history ∧
      (∃ x ∈ deedsBy 3 later, admits x = true) ∧ ∃ y ∈ later, y.enables = true := by
  obtain ⟨⟨hkept, hbalance⟩, hstarted, later, hlater, honline, -⟩ :=
    late_round (.fresh .valid) "1.0.0" (late_enablingAgain (.inr rfl))
  have hnothing : ((start Agent.application (.fresh .valid) "1.0.0").run tickWaiting).owed 0 = 0 := by
    decide +kernel
  exact ⟨by omega, by omega, later, hlater, honline (by decide +kernel)⟩

/-- With autofetch or without, the engine that is enabled again fetches for the old timer's tick. -/
theorem late_tick_goes_online :
    (((start Agent.application (.fresh .valid) "1.0.0").run tickWaiting).accepted 0 = 1 ∧
      ((start Agent.application (.fresh .valid) "1.0.0").run tickWaiting).started 0 = 0 ∧
      ((start Agent.application (.fresh .valid) "1.0.0").run tickWaiting).boot.tasks.all (·.next?.isNone) = true) ∧
    (Late ((start Agent.application (.fresh .valid) "1.0.0").run tickWaiting)
        ((start Agent.application (.fresh .valid) "1.0.0").run (tickWaiting ++ enablingAgain 0)) 0 3 ∧
      ∃ x ∈ deedsBy 3 ((start Agent.application (.fresh .valid) "1.0.0").run
        (tickWaiting ++ enablingAgain 0)).boot.history, x.request.online = true) ∧
    (Late ((start Agent.application (.fresh .valid) "1.0.0").run tickWaiting)
        ((start Agent.application (.fresh .valid) "1.0.0").run (tickWaiting ++ enablingAgain 24)) 0 3 ∧
      ∃ x ∈ deedsBy 3 ((start Agent.application (.fresh .valid) "1.0.0").run
        (tickWaiting ++ enablingAgain 24)).boot.history, x.request.online = true) := by
  refine ⟨by decide +kernel, ⟨late_enablingAgain (.inl rfl), ?_⟩, late_enablingAgain (.inr rfl), ?_⟩
  · decide +kernel
  · decide +kernel

end Ticking

end FirmwareUpdate
