import FirmwareUpdate.Proofs.Interleaving

/-!
# The rollback timer as a net

An image on trial is caught by the rollback timer. Every call to the bootloader gives the timer up
or uses it up before it is known whether the call succeeds, and nothing else touches it. So the net
is in place exactly as long as no such call has been made.
-/

namespace FirmwareUpdate

variable {A : Application}

/-! ## Timers -/

namespace Timers

def kind? (ts : Timers) (id : TimerId) : Option TimerKind := ts[id]?.map (·.kind)

variable (ts : Timers) (id j : TimerId)

theorem getElem?_setState (state : TimerState) :
    (ts.setState id state)[j]? = if id = j then ts[j]?.map ({ · with state := state }) else ts[j]? := by
  simp only [setState, List.getElem?_modify]
  split <;> simp

theorem kind?_setState (state : TimerState) : (ts.setState id state).kind? j = ts.kind? j := by
  simp only [kind?, getElem?_setState]
  split
  · cases ts[j]? <;> rfl
  · rfl

theorem fuse_setState {state : TimerState} (h : state ≠ .armed) :
    (ts.setState id state).fuse j = (ts.fuse j && id != j) := by
  simp only [fuse, getElem?_setState]
  by_cases hj : id = j
  · cases ts[j]? <;> simp [hj, h]
  · simp [hj]

theorem kind?_cancel : (ts.cancel id).2.kind? j = ts.kind? j := by
  unfold cancel
  split
  · exact kind?_setState ts id j _
  · rfl

theorem fuse_cancel : (ts.cancel id).2.fuse j = (ts.fuse j && id != j) := by
  unfold cancel
  split
  · exact fuse_setState ts id j (by decide)
  · rename_i h
    by_cases hj : id = j
    · subst hj
      simp only [isArmed] at h
      cases ht : ts[id]? with
      | none => simp [fuse, ht]
      | some t => simp_all [fuse]
    · simp [hj]

theorem kind?_add (kind : TimerKind) (span : Nat) {j : TimerId} {k : TimerKind} (h : ts.kind? j = some k) :
    (ts.add kind span).2.kind? j = some k := by
  obtain ⟨t, ht, rfl⟩ := Option.map_eq_some_iff.mp h
  have hlt : j < ts.length := (List.getElem?_eq_some_iff.mp ht).1
  simp only [add, kind?, List.getElem?_append_left hlt, ht, Option.map_some]

theorem kind?_add_new (kind : TimerKind) (span : Nat) :
    (ts.add kind span).2.kind? (ts.add kind span).1 = some kind := by
  simp [add, kind?]

theorem fuse_add (kind : TimerKind) (span : Nat) :
    (ts.add kind span).2.fuse j = (ts.fuse j || (j == ts.length && kind == .once)) := by
  rcases Nat.lt_trichotomy j ts.length with hj | rfl | hj
  · have hne : (j == ts.length) = false := by simpa using Nat.ne_of_lt hj
    simp [add, fuse, List.getElem?_append_left hj, hne]
  · simp [add, fuse]
  · have hne : (j == ts.length) = false := by simpa using Nat.ne_of_gt hj
    have hlen : (ts ++ [Timer.mk kind span .armed]).length ≤ j := by
      rw [List.length_append]; exact hj
    simp [add, fuse, hne, List.getElem?_eq_none (Nat.le_of_lt hj), List.getElem?_eq_none hlen]

theorem isArmed_of_fuse {ts : Timers} {id : TimerId} (h : ts.fuse id = true) : ts.isArmed id = true := by
  obtain ⟨t, hi, hk⟩ := Option.any_eq_true _ _ |>.mp h
  rw [Bool.and_eq_true] at hk
  simp only [isArmed, hi, hk.2]

end Timers

/-! ## Calls to the bootloader -/

/-- What the bootloader is asked for by an effect, if at all, and what comes of it. -/
def World.callOf (w : World A) : Effect A → Option (Except Cause Unit)
  | .markValid => some w.device.markValid.1
  | .markInvalid => some w.device.rollback.1
  | .settleTrial => if w.engine.validation.state = .invalid then none else some w.device.markValid.1
  | _ => none

namespace Happening

def call : Happening A → Option (Except Cause Unit)
  | did _ d => d.found.callOf d.request
  | fired w _ => if w.OnTrial then some w.device.rollback.1 else none

def succeeds (x : Happening A) : Bool :=
  match x.call with
  | some (.ok ()) => true
  | _ => false

def fails (x : Happening A) : Bool :=
  match x.call with
  | some (.error _) => true
  | _ => false

theorem call_eq_none_iff (x : Happening A) : x.call = none ↔ x.succeeds = false ∧ x.fails = false := by
  unfold succeeds fails
  rcases x.call with _ | ⟨c⟩ | ⟨⟩ <;> simp

end Happening

/-! ## What keeps the net and what drops it -/

namespace World

def rollbackPending (w : World A) : Bool := w.engine.validation.rollbackTimer.any w.device.timers.fuse

structure Timed (w : World A) : Prop where
  held : ∀ id, w.device.timers.fuse id = true → w.engine.validation.rollbackTimer = some id
  once : ∀ id, w.engine.validation.rollbackTimer = some id → w.device.timers.kind? id = some .once
  periodic : ∀ e id, w.engine.enabled = some e → e.autofetch = some id →
    w.device.timers.kind? id = some .periodic
  onTrial : ∀ id, w.device.timers.fuse id = true → w.OnTrial
  unstarted : w.engine.validation.state = .init →
    w.engine.validation.rollbackTimer = none ∧ w.engine.validation.valid = false

theorem timed_boot (d : Device) (version : String) : Timed (.boot d version : World A) where
  held _ h := by cases h
  once _ h := by cases h
  periodic _ _ h := by cases h
  onTrial _ h := by cases h
  unstarted _ := ⟨rfl, rfl⟩

theorem Timed.pending_iff {w : World A} (h : w.Timed) :
    w.rollbackPending = true ↔ ∃ id, w.device.timers.fuse id = true := by
  simp only [rollbackPending, Option.any_eq_true]
  exact ⟨fun ⟨id, _, hf⟩ => ⟨id, hf⟩, fun ⟨id, hf⟩ => ⟨id, h.held id hf, hf⟩⟩

/-- No timer but an autofetch timer comes or goes, and the verdict stands. -/
structure KeepsNet (w w' : World A) : Prop where
  fuse : ∀ id, w'.device.timers.fuse id = w.device.timers.fuse id
  kind : ∀ id k, w.device.timers.kind? id = some k → w'.device.timers.kind? id = some k
  periodic : ∀ e id, w'.engine.enabled = some e → e.autofetch = some id →
    w.engine.enabled = some e ∨ w'.device.timers.kind? id = some .periodic
  handle : w'.engine.validation.rollbackTimer = w.engine.validation.rollbackTimer
  state : w'.engine.validation.state = w.engine.validation.state
  valid : w'.engine.validation.valid = w.engine.validation.valid

/-- No one-shot timer is left, and the validation does not start anew. -/
structure DropsNet (w w' : World A) : Prop where
  fuse : ∀ id, w'.device.timers.fuse id = false
  kind : ∀ id k, w.device.timers.kind? id = some k → w'.device.timers.kind? id = some k
  enabled : w'.engine.enabled = w.engine.enabled
  handle : ∀ id, w'.engine.validation.rollbackTimer = some id → w.engine.validation.rollbackTimer = some id
  unstarted : w'.engine.validation.state = .init → w.engine.validation.state = .init ∧
    w'.engine.validation.rollbackTimer = none ∧ w'.engine.validation.valid = w.engine.validation.valid

variable {w w' : World A}

theorem KeepsNet.timed (h : KeepsNet w w') (ht : w.Timed) : w'.Timed where
  held id hf := by rw [h.handle]; exact ht.held id (h.fuse id ▸ hf)
  once id hi := h.kind id _ (ht.once id (h.handle ▸ hi))
  periodic e id he ha := by
    rcases h.periodic e id he ha with hold | hnew
    · exact h.kind id _ (ht.periodic e id hold ha)
    · exact hnew
  onTrial id hf := by
    have hw := ht.onTrial id (h.fuse id ▸ hf)
    exact ⟨h.state.trans hw.1, h.valid.trans hw.2⟩
  unstarted hs := by rw [h.handle, h.valid]; exact ht.unstarted (h.state ▸ hs)

theorem DropsNet.timed (h : DropsNet w w') (ht : w.Timed) : w'.Timed where
  held id hf := by rw [h.fuse] at hf; cases hf
  once id hi := h.kind id _ (ht.once id (h.handle id hi))
  periodic e id he ha := h.kind id _ (ht.periodic e id (h.enabled ▸ he) ha)
  onTrial id hf := by rw [h.fuse] at hf; cases hf
  unstarted hs := by
    obtain ⟨hs, hn, hv⟩ := h.unstarted hs
    exact ⟨hn, hv.trans (ht.unstarted hs).2⟩

theorem KeepsNet.pending (h : KeepsNet w w') : w'.rollbackPending = w.rollbackPending := by
  unfold rollbackPending
  rw [h.handle, funext h.fuse]

theorem DropsNet.pending (h : DropsNet w w') : w'.rollbackPending = false := by
  unfold rollbackPending
  rw [show w'.device.timers.fuse = fun _ => false from funext h.fuse]
  cases w'.engine.validation.rollbackTimer <;> rfl

theorem KeepsNet.of_eq (ht : w'.device.timers = w.device.timers) (he : w'.engine.enabled = w.engine.enabled)
    (hh : w'.engine.validation.rollbackTimer = w.engine.validation.rollbackTimer)
    (hs : w'.engine.validation.state = w.engine.validation.state)
    (hv : w'.engine.validation.valid = w.engine.validation.valid) : KeepsNet w w' where
  fuse id := by rw [ht]
  kind id k hk := by rw [ht]; exact hk
  periodic e id h _ := .inl (he ▸ h)
  handle := hh
  state := hs
  valid := hv

theorem KeepsNet.note (w : World A) (e : Event) : KeepsNet w (w.note e) := .of_eq rfl rfl rfl rfl rfl

/-! ## Enabling and disabling -/

theorem fuse_of_periodic {ts : Timers} {id : TimerId} (h : ts.kind? id = some .periodic) :
    ts.fuse id = false := by
  obtain ⟨t, ht, hk⟩ := Option.map_eq_some_iff.mp h
  simp [Timers.fuse, ht, hk]

theorem keepsNet_install (config : Config) (handler : Option A.Handler) :
    KeepsNet w (w.install config handler).2 := by
  have hi := w.installing config handler
  generalize (w.install config handler).1 = r, (w.install config handler).2 = w' at hi ⊢
  cases hi with
  | refused => exact .of_eq rfl rfl rfl rfl rfl
  | silent => exact ⟨fun _ => rfl, fun _ _ h => h, (fun _ _ h ha => by cases h; cases ha), rfl, rfl, rfl⟩
  | polling =>
    refine ⟨?_, ?_, ?_, rfl, rfl, rfl⟩
    · intro j
      exact (Timers.fuse_add _ j .periodic _).trans (by simp)
    · intro j k hk
      exact Timers.kind?_add _ .periodic _ hk
    · intro e id h ha
      cases h
      cases ha
      right
      exact Timers.kind?_add_new _ .periodic _

theorem keepsNet_uninstall (ht : w.Timed) : KeepsNet w w.uninstall.2 := by
  have hu := w.uninstalling
  generalize w.uninstall.1 = r, w.uninstall.2 = w' at hu ⊢
  cases hu with
  | refused => exact .of_eq rfl rfl rfl rfl rfl
  | silent => exact ⟨fun _ => rfl, fun _ _ h => h, (fun _ _ h => nomatch h), rfl, rfl, rfl⟩
  | @polling journal e id he ha =>
    have hid := fuse_of_periodic (ht.periodic e id he ha)
    refine ⟨?_, ?_, (fun _ _ h => nomatch h), rfl, rfl, rfl⟩
    · intro j
      apply (Timers.fuse_cancel w.device.timers id j).trans
      by_cases hj : id = j
      · rw [← hj, hid]; rfl
      · simp [hj]
    · intro j k hk
      exact (Timers.kind?_cancel w.device.timers id j).trans hk

/-! ## The decisions -/

theorem dropsNet_timersGivenUp (ht : w.Timed) (id : TimerId) : w.timersGivenUp.fuse id = false := by
  unfold timersGivenUp
  cases hh : w.engine.validation.rollbackTimer with
  | none =>
    cases hf : w.device.timers.fuse id with
    | false => rfl
    | true => exact absurd (ht.held id hf) (by simp [hh])
  | some j =>
    rw [Timers.fuse_cancel]
    cases hf : w.device.timers.fuse id with
    | false => rfl
    | true =>
      have hj : j = id := Option.some.inj (hh.symm.trans (ht.held id hf))
      simp [hj]

theorem kind?_timersGivenUp (id : TimerId) : w.timersGivenUp.kind? id = w.device.timers.kind? id := by
  unfold timersGivenUp
  split
  · rfl
  · exact Timers.kind?_cancel _ _ _

theorem DropsNet.of_givenUp (ht : w.Timed) (htimers : w'.device.timers = w.timersGivenUp)
    (henabled : w'.engine.enabled = w.engine.enabled) (hh : w'.engine.validation.rollbackTimer = none)
    (hs : w'.engine.validation.state = .init →
      w.engine.validation.state = .init ∧ w'.engine.validation.valid = w.engine.validation.valid) :
    DropsNet w w' where
  fuse id := by rw [htimers]; exact dropsNet_timersGivenUp ht id
  kind id k hk := by rw [htimers, kind?_timersGivenUp]; exact hk
  enabled := henabled
  handle id h := by rw [hh] at h; cases h
  unstarted h := ⟨(hs h).1, hh, (hs h).2⟩

theorem TrialStep.enabled (h : TrialStep w w') : w'.engine.enabled = w.engine.enabled :=
  congrArg (·.enabled) h.engine

theorem dropsNet_markValid (ht : w.Timed) : DropsNet w w.markValid.2 := by
  apply DropsNet.of_givenUp ht w.timers_markValid w.trialStep_markValid.enabled
  · rw [validation_markValid]
    split <;> rfl
  · intro hs
    rw [validation_markValid] at hs ⊢
    split at hs
    · exact ⟨hs, rfl⟩
    · dsimp only at hs
      split at hs <;> cases hs

theorem dropsNet_markInvalid (ht : w.Timed) : DropsNet w w.markInvalid.2 := by
  apply DropsNet.of_givenUp ht w.timers_markInvalid w.trialStep_markInvalid.enabled
  · rw [validation_markInvalid]
  · intro hs
    rw [validation_markInvalid] at hs
    cases hs

theorem dropsNet_settleTrial (ht : w.Timed) (h : w.engine.validation.state ≠ .invalid) :
    DropsNet w w.settleTrial.2 := by
  apply DropsNet.of_givenUp ht (timers_settleTrial h) w.trialStep_settleTrial.enabled
  · rw [validation_settleTrial h]
  · intro hs
    rw [validation_settleTrial h] at hs
    cases hs

theorem dropsNet_fireOnce (ht : w.Timed) {id : TimerId} (hf : w.device.timers.fuse id = true) :
    DropsNet w (w.fireOnce id).2 := by
  have hon := ht.onTrial id hf
  have harmed := Timers.isArmed_of_fuse hf
  have hfired : ∀ j, (w.device.timers.setState id .fired).fuse j = false := by
    intro j
    rw [Timers.fuse_setState _ _ _ (by decide)]
    cases hj : w.device.timers.fuse j with
    | false => rfl
    | true =>
      have : id = j := Option.some.inj ((ht.held id hf).symm.trans (ht.held j hj))
      simp [this]
  unfold fireOnce
  rw [if_pos harmed]
  have hv := validation_rollbackDue (w := { w with
    device := { w.device with timers := w.device.timers.setState id .fired } }) hon
  refine ⟨?_, ?_, (trialStep_rollbackDue _).enabled, ?_, ?_⟩
  · intro j
    rw [timers_rollbackDue]
    exact hfired j
  · intro j k hk
    rw [timers_rollbackDue]
    exact (Timers.kind?_setState _ _ _ _).trans hk
  · intro j hj
    rw [hv] at hj
    exact hj
  · intro hs
    rw [hv] at hs
    cases hs

/-! ## The start of the validation -/

theorem beginValidation_started (h : w.engine.validation.state ≠ .init) (seconds : Nat) :
    w.beginValidation seconds = (none, w) := by
  unfold beginValidation; rw [if_pos h]

theorem Timed.begun (ht : w.Timed) (hi : w.engine.validation.state = .init)
    (htimers : w'.device.timers = w.device.timers) (henabled : w'.engine.enabled = w.engine.enabled)
    (hh : w'.engine.validation.rollbackTimer = w.engine.validation.rollbackTimer)
    (hs : w'.engine.validation.state ≠ .init) : w'.Timed := by
  have hn := (ht.unstarted hi).1
  have hf : ∀ id, w'.device.timers.fuse id = true → False := by
    intro id h
    rw [htimers] at h
    exact absurd ((ht.held id h).symm.trans hn) (by simp)
  have hnone : w'.engine.validation.rollbackTimer = none := hh.trans hn
  refine ⟨fun id h => (hf id h).elim, ?_, ?_, fun id h => (hf id h).elim, fun h => absurd h hs⟩
  · intro id h
    rw [hnone] at h
    cases h
  · intro e id he ha
    rw [htimers]
    exact ht.periodic e id (henabled ▸ he) ha

theorem timed_beginTrial (ht : w.Timed) (hi : w.engine.validation.state = .init) (seconds : Nat) :
    (w.beginTrial seconds).Timed := by
  rw [beginTrial, setRollbackTimer_eq, w.once_enterTrial]
  cases w.device.faults.once with
  | true => exact ht.begun hi rfl rfl rfl fun h => by cases h
  | false =>
    obtain ⟨hn, hv⟩ := ht.unstarted hi
    -- no fuse was there before, so the new one is the only one
    have hnew : ∀ id, (w.device.timers.add .once (seconds * 1000)).2.fuse id = true →
        id = w.device.timers.length := by
      intro id h
      rw [Timers.fuse_add] at h
      rcases Bool.or_eq_true _ _ |>.mp h with h | h
      · exact absurd ((ht.held id h).symm.trans hn) (by simp)
      · simpa using h
    refine ⟨fun id h => congrArg some (hnew id h).symm, ?_, ?_, fun id h => ⟨rfl, hv⟩, fun h => by cases h⟩
    · intro id h
      cases h
      exact Timers.kind?_add_new _ .once _
    · intro e id he ha
      exact Timers.kind?_add _ .once _ (ht.periodic e id he ha)

theorem timed_beginValidation (ht : w.Timed) (seconds : Nat) : (w.beginValidation seconds).2.Timed := by
  have hb := w.beginning seconds
  generalize (w.beginValidation seconds).1 = r, (w.beginValidation seconds).2 = w' at hb ⊢
  cases hb with
  | begun | illegible => exact ht
  | trial hi => exact timed_beginTrial ((KeepsNet.note w _).timed ht) hi seconds
  | settled hi | foreign hi => exact ht.begun hi rfl rfl rfl nofun

/-! ## Every effect, every turn -/

/-- What a happening does to the net, once the validation has begun: without a call to the bootloader
it stays, with one it goes. -/
theorem net_undergo (ht : w.Timed) (s : Saying) (e : Effect A) :
    (w.callOf e = none ∧ KeepsNet w (w.undergo s e).2) ∨
    ((∃ c, w.callOf e = some c) ∧ DropsNet w (w.undergo s e).2) ∨
    (w.engine.validation.state = .init ∧ (w.undergo s e).2.Timed) := by
  rw [undergo_snd]
  cases e with
  | install config handler => exact .inl ⟨rfl, keepsNet_install config handler⟩
  | uninstall => exact .inl ⟨rfl, keepsNet_uninstall ht⟩
  | markValid => exact .inr (.inl ⟨⟨_, rfl⟩, dropsNet_markValid ht⟩)
  | markInvalid => exact .inr (.inl ⟨⟨_, rfl⟩, dropsNet_markInvalid ht⟩)
  | settleTrial =>
    by_cases hs : w.engine.validation.state = .invalid
    · refine .inl ⟨if_pos hs, ?_⟩
      rw [perform, settleTrial_invalid w hs]
      exact .of_eq rfl rfl rfl rfl rfl
    · exact .inr (.inl ⟨⟨_, if_neg hs⟩, dropsNet_settleTrial ht hs⟩)
  | beginValidation seconds =>
    by_cases hi : w.engine.validation.state = .init
    · exact .inr (.inr ⟨hi, timed_beginValidation ht seconds⟩)
    · refine .inl ⟨rfl, ?_⟩
      rw [perform, beginValidation_started hi]
      exact .of_eq rfl rfl rfl rfl rfl
  -- the effects left touch neither the timers nor the verdict
  | claim =>
    refine .inl ⟨rfl, ?_⟩
    rw [perform]
    unfold claim
    split <;> exact .of_eq rfl rfl rfl rfl rfl
  | joinConfirmation =>
    refine .inl ⟨rfl, ?_⟩
    rw [perform]
    unfold joinConfirmation
    dsimp only
    split <;> exact .of_eq rfl rfl rfl rfl rfl
  | saveJobId id =>
    refine .inl ⟨rfl, .of_eq ?_ rfl rfl rfl rfl⟩
    change (w.device.saveJobId id).2.timers = _
    unfold Device.saveJobId
    split <;> rfl
  | eraseJobId =>
    refine .inl ⟨rfl, .of_eq ?_ rfl rfl rfl rfl⟩
    change w.device.eraseJobId.2.timers = _
    unfold Device.eraseJobId
    dsimp only
    split <;> rfl
  | _ => exact .inl ⟨rfl, .of_eq rfl rfl rfl rfl rfl⟩

end World

/-- A turn without a call to the bootloader leaves the net as it is, one with a call takes it away. -/
theorem Turn.net {w w' : World A} {h h' : List (Happening A)} (ht : Turn w h w' h') (hw : w.Timed) :
    w'.Timed ∧ (w.engine.validation.state ≠ .init → w'.engine.validation.state ≠ .init ∧
      ∃ news, h' = news ++ h ∧
        (w'.rollbackPending = true ↔ w.rollbackPending = true ∧ ∀ x ∈ news, x.call = none)) := by
  cases ht with
  | paced c =>
    have hk : World.KeepsNet w (w.withConfirmation c) := .of_eq rfl rfl rfl rfl rfl
    exact ⟨hk.timed hw, fun hs => ⟨hs, [], rfl, by simp [hk.pending]⟩⟩
  | surrounded s =>
    have hk : World.KeepsNet w { w with device := w.device.surround s } := .of_eq rfl rfl rfl rfl rfl
    exact ⟨hk.timed hw, fun hs => ⟨hs, [], rfl, by simp [hk.pending]⟩⟩
  | fired id hf =>
    have hd := World.dropsNet_fireOnce hw hf
    refine ⟨hd.timed hw, fun hs => ⟨fun hi => hs (hd.unstarted hi).1, [_], rfl, ?_⟩⟩
    simp [hd.pending, Happening.call, hw.onTrial id hf]
  | did task s e c =>
    have hc : World.KeepsNet (w.undergo s e).2 ((w.undergo s e).2.withConfirmation c) :=
      .of_eq rfl rfl rfl rfl rfl
    rcases World.net_undergo hw s e with ⟨hn, hk⟩ | ⟨⟨r, hr⟩, hd⟩ | ⟨hi, ht⟩
    · refine ⟨hc.timed (hk.timed hw), fun hs => ⟨?_, [_], rfl, ?_⟩⟩
      · rw [hc.state, hk.state]; exact hs
      · simp [hc.pending, hk.pending, Happening.call, hn]
    · refine ⟨hc.timed (hd.timed hw), fun hs => ⟨?_, [_], rfl, ?_⟩⟩
      · rw [hc.state]; exact fun hi => hs (hd.unstarted hi).1
      · simp [hc.pending, hd.pending, Happening.call, hr]
    · exact ⟨hc.timed ht, fun hs => absurd hi hs⟩

namespace Boot

theorem timed_run (d : Device) (version : String) (ms : List (Move A)) :
    ((start A d version).run ms).world.Timed :=
  run_turns (P := fun w _ => w.Timed) (fun ht hw => (ht.net hw).1) (World.timed_boot d version) ms

theorem pending_run {b : Boot A} (hw : b.world.Timed) (hp : b.world.rollbackPending = true)
    (ms : List (Move A)) : ∃ since, (b.run ms).history = since ++ b.history ∧
      ((b.run ms).world.rollbackPending = true ↔ ∀ x ∈ since, x.call = none) := by
  have hs : b.world.engine.validation.state ≠ .init := by
    obtain ⟨id, hf⟩ := hw.pending_iff.mp hp
    rw [(hw.onTrial id hf).1]
    decide
  refine (run_turns (P := fun w h => w.Timed ∧ w.engine.validation.state ≠ .init ∧
    ∃ since, h = since ++ b.history ∧ (w.rollbackPending = true ↔ ∀ x ∈ since, x.call = none))
    ?_ ⟨hw, hs, [], rfl, by simp [hp]⟩ ms).2.2
  rintro w h w' h' ht ⟨hw, hs, since, rfl, hiff⟩
  obtain ⟨hw', hnext⟩ := ht.net hw
  obtain ⟨hs', news, rfl, hiff'⟩ := hnext hs
  refine ⟨hw', hs', news ++ since, (List.append_assoc _ _ _).symm, ?_⟩
  rw [hiff', hiff, List.forall_mem_append, and_comm]

/-- Once armed, the rollback timer stays so exactly until the bootloader is called. While no call has
succeeded it is still armed if and only if none has failed either. -/
theorem rollbackPending_iff (d : Device) (version : String) (before after : List (Move A))
    (hp : ((start A d version).run before).world.rollbackPending = true) :
    ∃ since, ((start A d version).run (before ++ after)).history =
        since ++ ((start A d version).run before).history ∧
      (((start A d version).run (before ++ after)).world.rollbackPending = true ↔
        ∀ x ∈ since, x.call = none) ∧
      ((∀ x ∈ ((start A d version).run (before ++ after)).history, x.succeeds = false) →
        (((start A d version).run (before ++ after)).world.rollbackPending = true ↔
          ∀ x ∈ since, x.fails = false)) := by
  obtain ⟨since, hh, hiff⟩ := pending_run (timed_run d version before) hp after
  rw [← run_append] at hh hiff
  refine ⟨since, hh, hiff, ?_⟩
  intro hn
  refine hiff.trans (forall₂_congr ?_)
  intro x hx
  have hx : x.succeeds = false := hn x (hh ▸ List.mem_append_left _ hx)
  simp [x.call_eq_none_iff, hx]

def markingInVain : List (Move Agent.application) :=
  [.disturb ⟨[], [], [], { Faults.none with markValid := true }, false, false, false⟩, .call .markValid,
    .go 1 obliging]

theorem rollbackPending_iff_markingInVain :
    ((start Agent.application trialDevice "1.0.0").run enabling).world.rollbackPending = true ∧
    ∃ since, ((start Agent.application trialDevice "1.0.0").run (enabling ++ markingInVain)).history =
        since ++ ((start Agent.application trialDevice "1.0.0").run enabling).history ∧
      (((start Agent.application trialDevice "1.0.0").run
          (enabling ++ markingInVain)).world.rollbackPending = true ↔ ∀ x ∈ since, x.call = none) ∧
      ((∀ x ∈ ((start Agent.application trialDevice "1.0.0").run (enabling ++ markingInVain)).history,
          x.succeeds = false) →
        (((start Agent.application trialDevice "1.0.0").run
            (enabling ++ markingInVain)).world.rollbackPending = true ↔ ∀ x ∈ since, x.fails = false)) :=
  have hp : ((start Agent.application trialDevice "1.0.0").run enabling).world.rollbackPending = true := by
    decide +kernel
  ⟨hp, rollbackPending_iff trialDevice "1.0.0" enabling markingInVain hp⟩

/-- A mark that fails costs an unconfirmed image its rollback timer. -/
theorem unconfirmed_without_net :
    ((start Agent.application trialDevice "1.0.0").run enabling).world.rollbackPending = true ∧
    (∀ x ∈ ((start Agent.application trialDevice "1.0.0").run (enabling ++ markingInVain)).history,
      x.succeeds = false) ∧
    ((start Agent.application trialDevice "1.0.0").run
      (enabling ++ markingInVain)).world.device.slots.running = .pendingVerify ∧
    ((start Agent.application trialDevice "1.0.0").run
      (enabling ++ markingInVain)).world.rollbackPending = false := by
  decide +kernel

end Boot

end FirmwareUpdate
