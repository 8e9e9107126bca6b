import FirmwareUpdate.Proofs.AutofetchTimers

/-!
# Worlds side by side

Two worlds of one boot that differ in nothing but what is in force, the autofetch and the lines of the journal.
Whatever does not ask what is in force does the same in both. Enabling and disabling the engine lead from the
one to the other, once the validation of the boot has begun.
-/

namespace FirmwareUpdate

variable {A : Application}

/-! ## One-shot timers -/

namespace Timers

def once? (ts : Timers) (id : TimerId) : Option Timer := ts[id]?.filter (·.kind == .once)

variable (ts : Timers) (id j : TimerId)

theorem once?_setState (state : TimerState) :
    (ts.setState id state).once? j = if id = j then (ts.once? j).map ({ · with state := state }) else ts.once? j := by
  simp only [once?, getElem?_setState]
  split
  · cases ts[j]? with
    | none => rfl
    | some t => cases hk : t.kind <;> simp [Option.filter, hk]
  · rfl

theorem fuse_eq_once? : ts.fuse id = (ts.once? id).any (·.state == .armed) := by
  unfold fuse once?
  cases ts[id]? with
  | none => rfl
  | some t => cases hk : t.kind <;> simp [hk]

variable {ts id}

theorem isArmed_of_once (h : ts.kind? id = some .once) : ts.isArmed id = ts.fuse id := by
  obtain ⟨t, ht, hk⟩ := Option.map_eq_some_iff.mp h
  simp [isArmed, fuse, ht, hk]

theorem once?_of_periodic (h : ts.kind? id = some .periodic) : ts.once? id = none := by
  obtain ⟨t, ht, hk⟩ := Option.map_eq_some_iff.mp h
  simp [once?, ht, hk]

theorem once?_cancel_periodic (h : ts.kind? id = some .periodic) : (ts.cancel id).2.once? j = ts.once? j := by
  unfold cancel
  split
  · rw [once?_setState]
    split
    · rename_i he
      rw [← he, once?_of_periodic h]
      rfl
    · rfl
  · rfl

theorem once?_append_periodic (span : Nat) (state : TimerState) :
    once? (ts ++ [⟨.periodic, span, state⟩]) j = ts.once? j := by
  unfold once?
  rcases Nat.lt_trichotomy j ts.length with hj | rfl | hj
  · rw [List.getElem?_append_left hj]
  · simp
  · have hlength : (ts ++ [Timer.mk .periodic span state]).length ≤ j := by
      rw [List.length_append]
      exact hj
    rw [List.getElem?_eq_none hlength, List.getElem?_eq_none (Nat.le_of_lt hj)]

/-- Cancelling a one-shot timer goes by the one-shot timers alone. -/
theorem once?_cancel_congr {ts' : Timers} (h : ∀ j, ts'.once? j = ts.once? j) (hk : ts.kind? id = some .once)
    (hk' : ts'.kind? id = some .once) (j : TimerId) : (ts'.cancel id).2.once? j = (ts.cancel id).2.once? j := by
  have harmed : ts'.isArmed id = ts.isArmed id := by
    rw [isArmed_of_once hk, isArmed_of_once hk', fuse_eq_once?, fuse_eq_once?, h]
  unfold cancel
  rw [harmed]
  split
  · rw [once?_setState, once?_setState, h]
  · exact h j

end Timers

/-! ## Worlds side by side -/

namespace World

/-- The worlds differ at most in what is in force, the autofetch and the journal. -/
structure Alongside (w w' : World A) : Prop where
  store : w'.device.store = w.device.store
  slots : w'.device.slots = w.device.slots
  network : w'.device.network = w.device.network
  faults : w'.device.faults = w.device.faults
  once : ∀ id, w'.device.timers.once? id = w.device.timers.once? id
  validation : w'.engine.validation = w.engine.validation
  inProgress : w'.engine.inProgress = w.engine.inProgress
  live : w'.engine.live = w.engine.live

/-- What the rollback timer does if it is still armed. -/
theorem Timed.fired {w : World A} (ht : w.Timed) {id : TimerId} (hf : w.device.timers.fuse id = true) :
    (w.fireOnce id).2.device.slots = w.device.rollback.2.slots ∧
    (w.fireOnce id).2.device.timers = w.device.timers.setState id .fired ∧
    (w.fireOnce id).2.engine.validation = { w.engine.validation with confirmCancelled := true, state := .invalid } := by
  let burnt : World A := { w with device := { w.device with timers := w.device.timers.setState id .fired } }
  have hon : burnt.OnTrial := ht.onTrial id hf
  have hslots : burnt.device.slots = w.device.slots := rfl
  have hfaults : burnt.device.faults = w.device.faults := rfl
  have hfire : (w.fireOnce id).2 = burnt.rollbackDue := by
    unfold fireOnce
    rw [if_pos (Timers.isArmed_of_fuse hf)]
  rw [hfire]
  exact ⟨(slots_rollbackDue hon).trans (Device.rollback_congr hslots hfaults).2, timers_rollbackDue burnt,
    validation_rollbackDue hon⟩

namespace Alongside

variable {w w' u u' : World A}

theorem refl (w : World A) : Alongside w w := ⟨rfl, rfl, rfl, rfl, fun _ => rfl, rfl, rfl, rfl⟩

theorem symm (h : Alongside w w') : Alongside w' w :=
  ⟨h.store.symm, h.slots.symm, h.network.symm, h.faults.symm, fun id => (h.once id).symm, h.validation.symm,
    h.inProgress.symm, h.live.symm⟩

theorem trans (h : Alongside w w') (h' : Alongside w' u) : Alongside w u where
  store := h'.store.trans h.store
  slots := h'.slots.trans h.slots
  network := h'.network.trans h.network
  faults := h'.faults.trans h.faults
  once id := (h'.once id).trans (h.once id)
  validation := h'.validation.trans h.validation
  inProgress := h'.inProgress.trans h.inProgress
  live := h'.live.trans h.live

theorem fuse (h : Alongside w w') (id : TimerId) : w'.device.timers.fuse id = w.device.timers.fuse id := by
  rw [Timers.fuse_eq_once?, Timers.fuse_eq_once?, h.once]

theorem withValidation (h : Alongside w w') (v : Validation) :
    Alongside (w.withValidation v) (w'.withValidation v) :=
  ⟨h.store, h.slots, h.network, h.faults, h.once, rfl, h.inProgress, h.live⟩

theorem attempted (h : Alongside w w') (phase : ConfirmPhase) : Alongside (w.attempted phase) (w'.attempted phase) := by
  unfold World.attempted
  rw [h.validation]
  exact h.withValidation _

theorem afterAttempt (h : Alongside w w') (p : Activity A Activity.Attempt) :
    Alongside (w.afterAttempt p) (w'.afterAttempt p) := by
  unfold World.afterAttempt
  split
  · exact h
  · exact h.attempted _
  · exact h.attempted _
  · exact h.attempted _

theorem surround (h : Alongside w w') (s : Surroundings) :
    Alongside { w with device := w.device.surround s } { w' with device := w'.device.surround s } := by
  refine ⟨?_, ?_, ?_, rfl, h.once, h.validation, h.inProgress, h.live⟩
  · simp only [Device.surround, h.store]
  · simp only [Device.surround, h.slots]
  · simp only [Device.surround, h.network]

theorem note (h : Alongside w w') (e : Event) : Alongside (w.note e) (w'.note e) :=
  ⟨h.store, h.slots, h.network, h.faults, h.once, h.validation, h.inProgress, h.live⟩

/-- Two steps of the trial that do the same to the slots, the timers and the record of the validation. -/
theorem of_trialSteps (h : Alongside w w') (hs : TrialStep w u) (hs' : TrialStep w' u')
    (hslots : u'.device.slots = u.device.slots) (honce : ∀ id, u'.device.timers.once? id = u.device.timers.once? id)
    (hvalidation : u'.engine.validation = u.engine.validation) : Alongside u u' where
  store := hs'.store.trans (h.store.trans hs.store.symm)
  slots := hslots
  network := hs'.network.trans (h.network.trans hs.network.symm)
  faults := hs'.faults.trans (h.faults.trans hs.faults.symm)
  once := honce
  validation := hvalidation
  inProgress := by
    have he : u.engine.inProgress = w.engine.inProgress := congrArg (·.inProgress) hs.engine
    have he' : u'.engine.inProgress = w'.engine.inProgress := congrArg (·.inProgress) hs'.engine
    rw [he, he', h.inProgress]
  live := by
    have he : u.engine.live = w.engine.live := congrArg (·.live) hs.engine
    have he' : u'.engine.live = w'.engine.live := congrArg (·.live) hs'.engine
    rw [he, he', h.live]

/-! ### Decisions -/

theorem timersGivenUp (h : Alongside w w') (ht : w.Timed) (ht' : w'.Timed) (id : TimerId) :
    w'.timersGivenUp.once? id = w.timersGivenUp.once? id := by
  unfold World.timersGivenUp
  cases hv : w.engine.validation.rollbackTimer with
  | none =>
    rw [h.validation, hv]
    exact h.once id
  | some timer =>
    have hv' : w'.engine.validation.rollbackTimer = some timer := h.validation ▸ hv
    rw [hv']
    exact Timers.once?_cancel_congr h.once (ht.once timer hv) (ht'.once timer hv') id

variable (h : Alongside w w') (ht : w.Timed) (ht' : w'.Timed)
include h ht ht'

theorem markValid : w'.markValid.1 = w.markValid.1 ∧ Alongside w.markValid.2 w'.markValid.2 := by
  obtain ⟨hreply, hslots⟩ := Device.markValid_congr h.slots h.faults
  refine ⟨by rw [fst_markValid, fst_markValid, hreply], ?_⟩
  refine h.of_trialSteps w.trialStep_markValid w'.trialStep_markValid ?_ (fun id => ?_) ?_
  · rw [slots_markValid, slots_markValid, hslots]
  · rw [timers_markValid, timers_markValid, h.timersGivenUp ht ht']
  · rw [validation_markValid, validation_markValid, hreply, h.validation]

theorem markInvalid : w'.markInvalid.1 = w.markInvalid.1 ∧ Alongside w.markInvalid.2 w'.markInvalid.2 := by
  have hreply (w : World A) : w.markInvalid.1 = w.device.rollback.1.mapError .partition := by
    rw [markInvalid_eq, (Device.rollback_congr w.slots_condemned w.trialStep_condemned.faults).1]
  obtain ⟨hcall, hslots⟩ := Device.rollback_congr h.slots h.faults
  refine ⟨by rw [hreply, hreply, hcall], ?_⟩
  refine h.of_trialSteps w.trialStep_markInvalid w'.trialStep_markInvalid ?_ (fun id => ?_) ?_
  · rw [slots_markInvalid, slots_markInvalid, hslots]
  · rw [timers_markInvalid, timers_markInvalid, h.timersGivenUp ht ht']
  · rw [validation_markInvalid, validation_markInvalid, h.validation]

theorem settleTrial : w'.settleTrial.1 = w.settleTrial.1 ∧ Alongside w.settleTrial.2 w'.settleTrial.2 := by
  by_cases hs : w.engine.validation.state = .invalid
  · have hs' : w'.engine.validation.state = .invalid := h.validation ▸ hs
    rw [settleTrial_invalid w hs, settleTrial_invalid w' hs']
    exact ⟨rfl, h.note _⟩
  · have hs' : w'.engine.validation.state ≠ .invalid := h.validation ▸ hs
    have hslots := (Device.markValid_congr h.slots h.faults).2
    refine ⟨by rw [fst_settleTrial hs, fst_settleTrial hs'], ?_⟩
    refine h.of_trialSteps w.trialStep_settleTrial w'.trialStep_settleTrial ?_ (fun id => ?_) ?_
    · rw [slots_settleTrial hs, slots_settleTrial hs', hslots]
    · rw [timers_settleTrial hs, timers_settleTrial hs', h.timersGivenUp ht ht']
    · rw [validation_settleTrial hs, validation_settleTrial hs', h.validation]

theorem fireOnce {id : TimerId} (hf : w.device.timers.fuse id = true) :
    Alongside (w.fireOnce id).2 (w'.fireOnce id).2 := by
  obtain ⟨hslots, htimers, hvalidation⟩ := ht.fired hf
  obtain ⟨hslots', htimers', hvalidation'⟩ := ht'.fired ((h.fuse id).trans hf)
  refine h.of_trialSteps (w.trialStep_fireOnce id) (w'.trialStep_fireOnce id) ?_ (fun j => ?_) ?_
  · rw [hslots, hslots', (Device.rollback_congr h.slots h.faults).2]
  · rw [htimers, htimers', Timers.once?_setState, Timers.once?_setState, h.once]
  · rw [hvalidation, hvalidation', h.validation]

end Alongside

end World

/-! ## Effects -/

namespace Effect

def Indifferent : Effect A → Prop
  | .install .. | .uninstall | .admission => False
  | _ => True

def Switches : Effect A → Prop
  | .install .. | .uninstall | .beginValidation _ => True
  | _ => False

def Late : (e : Effect A) → e.Reply → Prop
  | .beginValidation _, r => r = none
  | _, _ => True

end Effect

namespace World

variable {w w' : World A}

theorem alongside_install (w : World A) (config : Config) (handler : Option A.Handler) :
    Alongside w (w.install config handler).2 := by
  have hi := w.installing config handler
  generalize (w.install config handler).1 = r, (w.install config handler).2 = w' at hi
  cases hi with
  | refused => exact .refl w
  | silent => exact ⟨rfl, rfl, rfl, rfl, fun _ => rfl, rfl, rfl, rfl⟩
  | polling => exact ⟨rfl, rfl, rfl, rfl, fun id => Timers.once?_append_periodic id _ _, rfl, rfl, rfl⟩

theorem alongside_uninstall (ht : w.Timed) : Alongside w w.uninstall.2 := by
  have hu := w.uninstalling
  generalize w.uninstall.1 = r, w.uninstall.2 = w' at hu
  cases hu with
  | refused => exact .refl w
  | silent => exact ⟨rfl, rfl, rfl, rfl, fun _ => rfl, rfl, rfl, rfl⟩
  | polling journal h ha =>
    exact ⟨rfl, rfl, rfl, rfl, fun j => Timers.once?_cancel_periodic j (ht.periodic _ _ h ha), rfl, rfl, rfl⟩

theorem undergo_begun (hb : w.engine.validation.state ≠ .init) (s : Saying) (seconds : Nat) :
    w.undergo s (.beginValidation seconds) = (none, w) := beginValidation_started hb seconds

theorem switch_undergo (ht : w.Timed) (hb : w.engine.validation.state ≠ .init) (s : Saying) {e : Effect A}
    (he : e.Switches) : Alongside w (w.undergo s e).2 ∧ e.Late (w.undergo s e).1 := by
  cases e with
  | install config handler => exact ⟨w.alongside_install config handler, trivial⟩
  | uninstall => exact ⟨alongside_uninstall ht, trivial⟩
  | beginValidation seconds =>
    rw [undergo_begun hb]
    exact ⟨.refl w, rfl⟩
  | _ => exact he.elim

def refitted (w : World A) (timers : Timers) (journal : List Event) (e : Engine A) : World A :=
  ⟨{ w.device with timers := timers, journal := journal },
    { e with inProgress := w.engine.inProgress, live := w.engine.live, validation := w.engine.validation }⟩

theorem Alongside.eq_refitted (h : Alongside w w') :
    w' = w.refitted w'.device.timers w'.device.journal w'.engine := by
  obtain ⟨hstore, hslots, hnetwork, hfaults, -, hvalidation, hinProgress, hlive⟩ := h
  dsimp only [refitted]
  rw [← hstore, ← hslots, ← hnetwork, ← hfaults, ← hvalidation, ← hinProgress, ← hlive]

/-- What does not go by what is in force has the same reply in both worlds, and leaves them side by side. -/
theorem Alongside.undergo (h : Alongside w w') (ht : w.Timed) (ht' : w'.Timed)
    (hb : w.engine.validation.state ≠ .init) (s : Saying) {e : Effect A} (he : e.Indifferent) :
    (w'.undergo s e).1 = (w.undergo s e).1 ∧ Alongside (w.undergo s e).2 (w'.undergo s e).2 := by
  have hrefitted := h.eq_refitted
  have honce := h.once
  generalize w'.device.timers = timers, w'.device.journal = journal, w'.engine = engine at hrefitted honce
  subst hrefitted
  cases e with
  | install | uninstall | admission => exact he.elim
  | markValid => exact h.markValid ht ht'
  | markInvalid => exact h.markInvalid ht ht'
  | settleTrial => exact h.settleTrial ht ht'
  | beginValidation seconds =>
    have hb' : (w.refitted timers journal engine).engine.validation.state ≠ .init := hb
    rw [undergo_begun hb, undergo_begun hb']
    exact ⟨rfl, h⟩
  | saveJobId id =>
    dsimp only [World.undergo, perform, Device.saveJobId, refitted]
    rcases w.device.store.write .jobId (Bytes.ofText id) with ⟨⟨c⟩ | ⟨⟩, store⟩ <;>
      exact ⟨rfl, rfl, rfl, rfl, rfl, honce, rfl, rfl, rfl⟩
  | eraseJobId =>
    dsimp only [World.undergo, perform, Device.eraseJobId, refitted]
    cases w.device.faults.erase <;> exact ⟨rfl, rfl, rfl, rfl, rfl, honce, rfl, rfl, rfl⟩
  | claim =>
    dsimp only [World.undergo, perform, World.claim, refitted]
    split <;> exact ⟨rfl, rfl, rfl, rfl, rfl, honce, rfl, rfl, rfl⟩
  | joinConfirmation =>
    dsimp only [World.undergo, perform, World.joinConfirmation, refitted]
    split <;> exact ⟨rfl, rfl, rfl, rfl, rfl, honce, rfl, rfl, rfl⟩
  | _ => exact ⟨rfl, rfl, rfl, rfl, rfl, honce, rfl, rfl, rfl⟩

end World

end FirmwareUpdate
