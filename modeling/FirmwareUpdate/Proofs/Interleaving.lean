import FirmwareUpdate.Agent
import FirmwareUpdate.Proofs.NextBoot

/-!
# Interleavings

Several activities of one boot at work on the same world. Between any two effects another activity
may have its turn, a timer may fire, or the surroundings may change. What was done is kept, so that
one can speak of everything that happened in a boot so far.
-/

namespace FirmwareUpdate

variable {A : Application}

/-! ## What outsiders decide -/

/-- How the application, or the network under a request, behaves in one effect. -/
structure Saying where
  outcome : Option ApplyOutcome
  diagnosis : Diagnosis
  /-- A request takes the one who makes it down with it. -/
  lost : Bool

/-- An application that answers as told. Whatever else it does, it does by calls of its own. -/
def Behaviour.saying (s : Saying) : Behaviour A where
  decide _ _ _ w := (s.outcome, w)
  diagnose _ w := (s.diagnosis, w)

def World.undergo (s : Saying) (w : World A) (e : Effect A) : e.Reply × World A :=
  match e with
  | .get path =>
    let (r, w) := w.perform (.saying s) (.get path)
    (if s.lost then none else r, w)
  | .post path body =>
    let (r, w) := w.perform (.saying s) (.post path body)
    (if s.lost then none else r, w)
  | e => w.perform (.saying s) e

structure Surroundings where
  gets : List Reply
  postReplies : List Reply
  images : List (String × Image)
  faults : Faults
  failReads : Bool
  failWrites : Bool
  failFlash : Bool

def Device.surround (d : Device) (s : Surroundings) : Device :=
  { d with
    network := { d.network with gets := s.gets, postReplies := s.postReplies, images := s.images }
    faults := s.faults
    store := { d.store with failReads := s.failReads, failWrites := s.failWrites }
    slots := { d.slots with failWrites := s.failFlash } }

/-! ## Tasks -/

/-- What the application and its handlers call the engine for, and what the engine's worker does by
itself. -/
inductive Call (A : Application) where
  | enable (config : Config) (handler : Option A.Handler) (test : Option A.SelfTest)
  | disable
  | fetch
  | autofetch
  | markValid
  | markInvalid
  | joinConfirmation
  | report (id : String) (status : JobStatus) (info : String)
  | download (job : Job) (chunkSize : Nat)

namespace Call

open Activity

def activity : Call A → Activity A Unit
  | enable config handler test => do let _ ← Activity.enable config handler test
  | disable => do let _ ← Activity.disable
  | fetch => do let _ ← Activity.fetch
  | autofetch => autofetchRound
  | markValid => do let _ ← perform .markValid
  | markInvalid => do let _ ← perform .markInvalid
  | joinConfirmation => do let _ ← perform .joinConfirmation
  | report id status info => do let _ ← reportFor id status info
  | download job chunkSize => do let _ ← downloadAndFlash job chunkSize

end Call

/-- What is left of a call, or of an attempt to confirm. -/
inductive Task (A : Application) where
  | call (rest : Activity A Unit)
  | attempt (rest : Activity A Activity.Attempt)

namespace World

def withConfirmation (w : World A) (c : Option Confirmation) : World A :=
  w.withValidation { w.engine.validation with confirmation := c }

def afterAttempt (w : World A) : Activity A Activity.Attempt → World A
  | .step .. => w
  | .done .retry => w.attempted .resting
  | .done _ => w.attempted .ended
  | .died => w.attempted .broken

end World

namespace Task

def attempting : Task A → Bool
  | attempt (.step ..) => true
  | _ => false

def advance (s : Saying) (w : World A) : Task A → Option (Deed A × Task A × World A)
  | call (.step e next) =>
    let (r, w') := w.undergo s e
    some (⟨w, e, r⟩, call (next r), w')
  | attempt (.step e next) =>
    let (r, w') := w.undergo s e
    some (⟨w, e, r⟩, attempt (next r), w'.afterAttempt (next r))
  | _ => none

end Task

/-! ## Boots -/

inductive Happening (A : Application) where
  | did (task : Nat) (d : Deed A)
  | fired (found : World A) (id : TimerId)

structure Boot (A : Application) where
  world : World A
  tasks : List (Task A)
  /-- Newest first. -/
  history : List (Happening A)

def Timers.fuse (ts : Timers) (id : TimerId) : Bool :=
  ts[id]?.any fun t => t.kind == .once && t.state == .armed

inductive Move (A : Application) where
  | call (c : Call A)
  | attempt
  | wake
  | go (task : Nat) (s : Saying)
  | fire (id : TimerId)
  | disturb (s : Surroundings)

namespace Boot

open Activity

def start (A : Application) (d : Device) (version : String) : Boot A := ⟨.boot d version, [], []⟩

def beginAttempt (b : Boot A) : Boot A :=
  match b.world.engine.validation.confirmation with
  | some c =>
    if c.phase = .poised ∧ ¬ b.tasks.any Task.attempting then
      { b with tasks := b.tasks ++ [.attempt (confirmAttempt (c.attempts + 1) c.interval)] }
    else b
  | none => b

/-- The confirmation looks whether it was cancelled, after a rest and again before an attempt. -/
def wake (b : Boot A) : Boot A :=
  let v := b.world.engine.validation
  match v.confirmation with
  | some c =>
    if c.phase = .resting ∨ c.phase = .poised ∧ ¬ b.tasks.any Task.attempting then
      let phase := if v.confirmCancelled then ConfirmPhase.ended else .poised
      { b with world := b.world.withConfirmation (some { c with phase := phase }) }
    else b
  | none => b

def advance (b : Boot A) (task : Nat) (s : Saying) : Boot A :=
  match b.tasks[task]?.bind (Task.advance s b.world) with
  | some (d, t, w) => ⟨w, b.tasks.set task t, .did task d :: b.history⟩
  | none => b

def fire (b : Boot A) (id : TimerId) : Boot A :=
  if b.world.device.timers.fuse id then
    { b with world := (b.world.fireOnce id).2, history := .fired b.world id :: b.history }
  else b

/-- Makes a move. One that is impossible changes nothing. -/
def step (b : Boot A) : Move A → Boot A
  | .call c => { b with tasks := b.tasks ++ [.call c.activity] }
  | .attempt => b.beginAttempt
  | .wake => b.wake
  | .go task s => b.advance task s
  | .fire id => b.fire id
  | .disturb s => { b with world := { b.world with device := b.world.device.surround s } }

def run (b : Boot A) (ms : List (Move A)) : Boot A := ms.foldl step b

theorem run_append (b : Boot A) (ms ns : List (Move A)) : b.run (ms ++ ns) = (b.run ms).run ns :=
  List.foldl_append

theorem run_induction {P : Boot A → Prop} {b : Boot A} (h : P b) (ms : List (Move A))
    (hs : ∀ b, ∀ m ∈ ms, P b → P (b.step m)) : P (b.run ms) := by
  induction ms generalizing b with
  | nil => exact h
  | cons m ms ih =>
    exact ih (hs b m List.mem_cons_self h) fun b m hm => hs b m (List.mem_cons_of_mem _ hm)

end Boot

/-! ## What a move does to the world -/

inductive Turn (w : World A) (h : List (Happening A)) : World A → List (Happening A) → Prop
  | paced (c : Option Confirmation) : Turn w h (w.withConfirmation c) h
  | did (task : Nat) (s : Saying) (e : Effect A) (c : Option Confirmation) :
      Turn w h ((w.undergo s e).2.withConfirmation c) (.did task ⟨w, e, (w.undergo s e).1⟩ :: h)
  | fired (id : TimerId) (hf : w.device.timers.fuse id = true) : Turn w h (w.fireOnce id).2 (.fired w id :: h)
  | surrounded (s : Surroundings) : Turn w h { w with device := w.device.surround s } h

namespace Turn

variable {w w' : World A} {h h' : List (Happening A)}

theorem still (w : World A) (h : List (Happening A)) : Turn w h w h := .paced w.engine.validation.confirmation

theorem afterAttempt (w : World A) (p : Activity A Activity.Attempt) :
    ∃ c, w.afterAttempt p = w.withConfirmation c := by
  unfold World.afterAttempt
  split <;> exact ⟨_, rfl⟩

end Turn

theorem Task.advance_eq_some {s : Saying} {w w' : World A} {t t' : Task A} {d : Deed A}
    (h : t.advance s w = some (d, t', w')) :
    ∃ e c, d = ⟨w, e, (w.undergo s e).1⟩ ∧ w' = (w.undergo s e).2.withConfirmation c := by
  unfold advance at h
  split at h
  · cases h
    exact ⟨_, _, rfl, rfl⟩
  · rename_i e next
    obtain ⟨c, hc⟩ := Turn.afterAttempt (w.undergo s e).2 (next (w.undergo s e).1)
    cases h
    exact ⟨e, c, rfl, hc⟩
  · cases h

theorem Boot.turn_step (b : Boot A) (m : Move A) :
    Turn b.world b.history (b.step m).world (b.step m).history := by
  cases m with
  | call c => exact .still _ _
  | attempt =>
    change Turn _ _ b.beginAttempt.world b.beginAttempt.history
    unfold beginAttempt
    split
    · split <;> exact .still _ _
    · exact .still _ _
  | wake =>
    change Turn _ _ b.wake.world b.wake.history
    unfold wake
    dsimp only
    split
    · split
      · exact .paced _
      · exact .still _ _
    · exact .still _ _
  | go task s =>
    change Turn _ _ (b.advance task s).world (b.advance task s).history
    unfold advance
    split
    · rename_i d t w h
      obtain ⟨t₀, -, ha⟩ := Option.bind_eq_some_iff.mp h
      obtain ⟨e, c, rfl, rfl⟩ := Task.advance_eq_some ha
      exact .did task s e c
    · exact .still _ _
  | fire id =>
    change Turn _ _ (b.fire id).world (b.fire id).history
    unfold fire
    split
    · rename_i hf; exact .fired id hf
    · exact .still _ _
  | disturb s => exact .surrounded s

/-- What every turn preserves holds of the world and the history of every run. -/
theorem Boot.run_turns {P : World A → List (Happening A) → Prop}
    (ht : ∀ {w h w' h'}, Turn w h w' h' → P w h → P w' h') {b : Boot A} (h : P b.world b.history)
    (ms : List (Move A)) : P (b.run ms).world (b.run ms).history :=
  run_induction (P := fun b => P b.world b.history) h ms fun b m _ hp => ht (b.turn_step m) hp

/-! ## Effects under outsiders -/

theorem World.undergo_snd (s : Saying) (w : World A) (e : Effect A) :
    (w.undergo s e).2 = (w.perform (.saying s) e).2 := by
  cases e <;> rfl

theorem World.nextBoot_undergo (s : Saying) (w : World A) (e : Effect A) :
    (w.undergo s e).2.nextBoot = w.nextBoot.after e (w.undergo s e).1 := by
  cases e with
  | decide | diagnose => rfl
  | get path => exact w.nextBoot_perform (.saying s) (e := .get path) id
  | post path body => exact w.nextBoot_perform (.saying s) (e := .post path body) id
  | _ => exact w.nextBoot_perform (.saying s) id

def Effect.Judges : Effect A → Prop
  | .beginValidation _ | .markValid | .markInvalid | .settleTrial => True
  | _ => False

namespace World

structure Reconfigured (w w' : World A) : Prop where
  validation : w'.engine.validation = w.engine.validation
  inProgress : w'.engine.inProgress = w.engine.inProgress
  live : w'.engine.live = w.engine.live
  slots : w'.device.slots = w.device.slots

theorem reconfigured_install (w : World A) (config : Config) (handler : Option A.Handler) :
    Reconfigured w (w.install config handler).2 := by
  have hi := w.installing config handler
  generalize (w.install config handler).1 = r, (w.install config handler).2 = w' at hi ⊢
  cases hi <;> exact ⟨rfl, rfl, rfl, rfl⟩

theorem reconfigured_uninstall (w : World A) : Reconfigured w w.uninstall.2 := by
  have hu := w.uninstalling
  generalize w.uninstall.1 = r, w.uninstall.2 = w' at hu ⊢
  cases hu <;> exact ⟨rfl, rfl, rfl, rfl⟩

/-- The verdict on the running image is the same, and the bootloader was not asked to change its own. -/
structure Untouched (w w' : World A) : Prop where
  state : w'.engine.validation.state = w.engine.validation.state
  valid : w'.engine.validation.valid = w.engine.validation.valid
  rollbackTimer : w'.engine.validation.rollbackTimer = w.engine.validation.rollbackTimer
  cancelled : w'.engine.validation.confirmCancelled = w.engine.validation.confirmCancelled
  running : w'.device.slots.running = w.device.slots.running
  requested : w'.device.slots.rollbackRequested = w.device.slots.rollbackRequested
  markValidCalls : w'.device.slots.markValidCalls = w.device.slots.markValidCalls
  rollbackCalls : w'.device.slots.rollbackCalls = w.device.slots.rollbackCalls

theorem Reconfigured.untouched {w w' : World A} (h : Reconfigured w w') : Untouched w w' := by
  constructor <;> first | rw [h.validation] | rw [h.slots]

theorem Untouched.refl (w : World A) : Untouched w w := ⟨rfl, rfl, rfl, rfl, rfl, rfl, rfl, rfl⟩

theorem Untouched.trans {w w₁ w₂ : World A} (h : Untouched w w₁) (h' : Untouched w₁ w₂) : Untouched w w₂ where
  state := h'.state.trans h.state
  valid := h'.valid.trans h.valid
  rollbackTimer := h'.rollbackTimer.trans h.rollbackTimer
  cancelled := h'.cancelled.trans h.cancelled
  running := h'.running.trans h.running
  requested := h'.requested.trans h.requested
  markValidCalls := h'.markValidCalls.trans h.markValidCalls
  rollbackCalls := h'.rollbackCalls.trans h.rollbackCalls

theorem untouched_perform (w : World A) (b : Behaviour A) {e : Effect A} (h : ¬ e.Judges) (ha : ¬ e.Asks) :
    Untouched w (w.perform b e).2 := by
  cases e with
  | beginValidation | markValid | markInvalid | settleTrial => exact absurd trivial h
  | decide | diagnose => exact absurd trivial ha
  | install config handler => exact (w.reconfigured_install config handler).untouched
  | uninstall => exact w.reconfigured_uninstall.untouched
  | claim =>
    rw [perform]
    unfold claim
    split <;> exact ⟨rfl, rfl, rfl, rfl, rfl, rfl, rfl, rfl⟩
  | joinConfirmation =>
    rw [perform]
    unfold joinConfirmation
    dsimp only
    split <;> exact ⟨rfl, rfl, rfl, rfl, rfl, rfl, rfl, rfl⟩
  | saveJobId id =>
    simp only [perform, Device.saveJobId]
    split <;> exact ⟨rfl, rfl, rfl, rfl, rfl, rfl, rfl, rfl⟩
  | eraseJobId =>
    simp only [perform, Device.eraseJobId]
    split <;> exact ⟨rfl, rfl, rfl, rfl, rfl, rfl, rfl, rfl⟩
  | _ => exact ⟨rfl, rfl, rfl, rfl, rfl, rfl, rfl, rfl⟩

theorem untouched_undergo (w : World A) (s : Saying) {e : Effect A} (h : ¬ e.Judges) :
    Untouched w (w.undergo s e).2 := by
  rw [undergo_snd]
  by_cases ha : e.Asks
  · cases e with
    | decide | diagnose => exact .refl w
    | _ => exact ha.elim
  · exact w.untouched_perform (.saying s) h ha

end World

/-! ## The past -/

/-- Every member of a list stands in the relation to those after it. -/
def Throughout {α : Type} (P : α → List α → Prop) : List α → Prop
  | [] => True
  | x :: rest => P x rest ∧ Throughout P rest

theorem Throughout.of_forall {α : Type} {P : α → List α → Prop} {l : List α}
    (h : ∀ x ∈ l, ∀ earlier, P x earlier) : Throughout P l := by
  induction l with
  | nil => trivial
  | cons x l ih =>
    rw [List.forall_mem_cons] at h
    exact ⟨h.1 l, ih h.2⟩

theorem Throughout.imp {α : Type} {P Q : α → List α → Prop} {l : List α} (h : Throughout P l)
    (hpq : ∀ {x earlier}, P x earlier → Q x earlier) : Throughout Q l := by
  induction l with
  | nil => trivial
  | cons x l ih => exact ⟨hpq h.1, ih h.2⟩

theorem Throughout.drop {α : Type} {P : α → List α → Prop} {later earlier : List α}
    (h : Throughout P (later ++ earlier)) : Throughout P earlier := by
  induction later with
  | nil => exact h
  | cons y later ih => exact ih h.2

theorem Throughout.split {α : Type} {P : α → List α → Prop} {later : List α} {x : α} {earlier : List α}
    (h : Throughout P (later ++ x :: earlier)) : P x earlier := h.drop.1

theorem countP_cons_toNat {α : Type} (p : α → Bool) (x : α) (l : List α) :
    (x :: l).countP p = l.countP p + (p x).toNat := by
  rw [List.countP_cons]
  cases p x <;> rfl

theorem countP_le_one {α : Type} {p : α → Bool} {l : List α}
    (h : ∀ later x between y earlier, l = later ++ x :: (between ++ y :: earlier) → p x = true → p y = false) :
    l.countP p ≤ 1 := by
  induction l with
  | nil => simp
  | cons x l ih =>
    rw [countP_cons_toNat]
    cases hx : p x with
    | false => exact ih fun later y between z earlier he => h (x :: later) y between z earlier (congrArg _ he)
    | true =>
      have hnone : l.countP p = 0 := by
        rw [List.countP_eq_zero]
        intro y hy
        obtain ⟨between, earlier, rfl⟩ := List.append_of_mem hy
        simp [h [] x between y earlier rfl hx]
      simp [hnone]

def Happening.found : Happening A → World A
  | did _ d => d.found
  | fired w _ => w

/-- What every turn preserves held of what every happening found. -/
theorem Boot.run_throughout {P : World A → List (Happening A) → Prop}
    (ht : ∀ {w h w' h'}, Turn w h w' h' → P w h → P w' h') (d : Device) (version : String)
    (h : P (start A d version).world []) (ms : List (Move A)) :
    P ((start A d version).run ms).world ((start A d version).run ms).history ∧
    Throughout (fun x earlier => P x.found earlier) ((start A d version).run ms).history := by
  refine run_turns (b := start A d version)
    (P := fun w h => P w h ∧ Throughout (fun x earlier => P x.found earlier) h) ?_ ⟨h, trivial⟩ ms
  rintro w h w' h' hturn ⟨hp, hthrough⟩
  refine ⟨ht hturn hp, ?_⟩
  cases hturn with
  | paced | surrounded => exact hthrough
  | did | fired => exact ⟨hp, hthrough⟩

def NextBoot.since (n : NextBoot) : List (Happening A) → NextBoot
  | [] => n
  | .did _ d :: earlier => (n.since earlier).after d.request d.reply
  | .fired .. :: earlier => n.since earlier

/-- A deed found the world as its past had left it, and its reply is the world's own. -/
def Happening.Genuine (n : NextBoot) (x : Happening A) (earlier : List (Happening A)) : Prop :=
  match x with
  | did _ d => d.found.nextBoot = n.since earlier ∧ ∃ s, d.reply = (d.found.undergo s d.request).1
  | fired w _ => w.nextBoot = n.since earlier

theorem Happening.Genuine.found {n : NextBoot} {x : Happening A} {earlier : List (Happening A)}
    (h : x.Genuine n earlier) : x.found.nextBoot = n.since earlier := by
  cases x with
  | did i d => exact h.1
  | fired w id => exact h

/-- What the next boot finds follows from the history, and every happening of it is genuine. -/
structure World.Recorded (n : NextBoot) (w : World A) (history : List (Happening A)) : Prop where
  nextBoot : w.nextBoot = n.since history
  genuine : Throughout (Happening.Genuine n) history

theorem Turn.recorded {n : NextBoot} {w w' : World A} {h h' : List (Happening A)} (ht : Turn w h w' h')
    (hr : w.Recorded n h) : w'.Recorded n h' := by
  cases ht with
  | paced c => exact ⟨hr.nextBoot, hr.genuine⟩
  | surrounded s => exact ⟨hr.nextBoot, hr.genuine⟩
  | fired id => exact ⟨(w.trialStep_fireOnce id).nextBoot.trans hr.nextBoot, hr.nextBoot, hr.genuine⟩
  | did task s e c =>
    refine ⟨?_, ⟨hr.nextBoot, s, rfl⟩, hr.genuine⟩
    rw [NextBoot.since, ← hr.nextBoot]
    exact w.nextBoot_undergo s e

theorem Boot.genuine_run (d : Device) (version : String) (ms : List (Move A)) :
    ((start A d version).run ms).world.nextBoot = d.nextBoot.since ((start A d version).run ms).history ∧
    Throughout (Happening.Genuine d.nextBoot) ((start A d version).run ms).history := by
  have hstart : (start A d version).world.Recorded d.nextBoot (start A d version).history := ⟨rfl, trivial⟩
  have h := run_turns (fun ht hr => Turn.recorded ht hr) hstart ms
  exact ⟨h.nextBoot, h.genuine⟩

/-! ## A trial -/

namespace Boot

def obliging : Saying := ⟨none, .passed, false⟩

def trialDevice : Device := ((Device.fresh .pendingVerify).saveJobId "A").2

def enabling : List (Move Agent.application) :=
  .call (.enable Config.default none none) :: List.replicate 8 (.go 0 obliging)

end Boot

end FirmwareUpdate
