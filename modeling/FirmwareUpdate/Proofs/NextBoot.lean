import FirmwareUpdate.Engine.Effect
import FirmwareUpdate.Proofs.Decisions
import FirmwareUpdate.Proofs.Traces

/-!
# What the next boot finds

The next boot starts the staged image, if there is one, and reports for the job id in the store.
Only three effects touch either of the two, and none changes what the surroundings lay down: the
images on the network, and which operations of the platform fail.
-/

namespace FirmwareUpdate

structure NextBoot where
  staged : Option Bytes
  jobId : Option Bytes
  deriving DecidableEq, Repr

structure Conditions where
  images : List (String × Image)
  faults : Faults
  failReads : Bool
  failWrites : Bool
  failFlash : Bool

namespace Device

def nextBoot (d : Device) : NextBoot := ⟨d.slots.staged, d.store.raw .jobId⟩

def conditions (d : Device) : Conditions :=
  ⟨d.network.images, d.faults, d.store.failReads, d.store.failWrites, d.slots.failWrites⟩

/-- Unless a rollback is asked for, a staged image boots on trial. -/
theorem reboot_staged {d : Device} {image : Bytes} (h : d.nextBoot.staged = some image)
    (hr : d.slots.rollbackRequested = false) :
    d.reboot.slots.running = .pendingVerify ∧ d.reboot.slots.image = image := by
  have h : d.slots.staged = some image := h
  simp [reboot, Slots.reboot, hr, h, note]

theorem jobId_reboot (d : Device) : d.reboot.nextBoot.jobId = d.nextBoot.jobId := rfl

def saveRefused : Cause := Cause.within "write ota_job/job_id" (.of "write of ota_job/job_id failed")

/-- A save replaces the id or is refused, as the store takes writes or does not. -/
theorem saveJobId_cases (d : Device) (id : String) :
    (d.store.failWrites = false ∧ (d.saveJobId id).1 = .ok () ∧
      (d.saveJobId id).2.nextBoot = { d.nextBoot with jobId := some (Bytes.ofText id) }) ∨
    (d.store.failWrites = true ∧ (d.saveJobId id).1 = .error saveRefused ∧
      (d.saveJobId id).2.nextBoot = d.nextBoot) := by
  cases h : d.store.failWrites with
  | false =>
    refine .inl ⟨rfl, ?_⟩
    simp [saveJobId, Store.write_put _ _ h, nextBoot, Device.note, Store.raw_put]
  | true =>
    refine .inr ⟨rfl, ?_⟩
    have hw := Store.write_refused .jobId (Bytes.ofText id) h
    unfold saveJobId
    rw [hw]
    exact ⟨rfl, rfl⟩

theorem eraseJobId_cases (d : Device) :
    (d.eraseJobId.1 = .ok () ∧ d.eraseJobId.2.nextBoot = { d.nextBoot with jobId := none }) ∨
    ((∃ c, d.eraseJobId.1 = .error c) ∧ d.eraseJobId.2.nextBoot = d.nextBoot) := by
  cases h : d.faults.erase with
  | false => exact .inl (by simp [eraseJobId, h, nextBoot, Device.note, Store.raw_erase])
  | true => exact .inr (by simp [eraseJobId, h])

theorem fst_eraseJobId_congr {d d' : Device} (h : d'.faults.erase = d.faults.erase) :
    d'.eraseJobId.1 = d.eraseJobId.1 := by
  cases hf : d.faults.erase <;> simp [eraseJobId, h, hf]

section
variable (d : Device)

theorem conditions_get (path : String) : (d.get path).2.conditions = d.conditions := by
  simp only [get, Network.get]; split <;> rfl

theorem conditions_post (path : String) (body : Bytes) :
    (d.post path body).2.conditions = d.conditions := by
  simp only [post, Network.post]; split <;> rfl

theorem conditions_saveJobId (id : String) : (d.saveJobId id).2.conditions = d.conditions := by
  unfold saveJobId
  cases h : d.store.failWrites with
  | false => rw [Store.write_put _ _ h]; rfl
  | true => rw [Store.write_refused _ _ h]

theorem conditions_eraseJobId : d.eraseJobId.2.conditions = d.conditions := by
  unfold eraseJobId; dsimp only; split <;> rfl

end

end Device

namespace World

variable {A : Application}

def nextBoot (w : World A) : NextBoot := w.device.nextBoot

def conditions (w : World A) : Conditions := w.device.conditions

namespace Inward

variable {w w' : World A}

theorem nextBoot (h : Inward w w') : w'.nextBoot = w.nextBoot := by
  unfold World.nextBoot Device.nextBoot
  rw [h.staged, h.store]

theorem conditions (h : Inward w w') : w'.conditions = w.conditions := by
  unfold World.conditions Device.conditions
  rw [h.network, h.faults, h.store, h.failWrites]

end Inward

/-! ## The engine's own steps -/

inductive Installing (w : World A) (config : Config) (handler : Option A.Handler) :
    Except UpdateError Unit → World A → Prop
  | refused {e : UpdateError} (h : e = .alreadyEnabled ∨ (∃ text, e = .invalidConfig text) ∨ ∃ c, e = .timer c) :
      Installing w config handler (.error e) w
  | silent (journal : List Event) (h : w.engine.enabled = none) (hp : config.autofetchPeriod = none) :
      Installing w config handler (.ok ()) ⟨{ w.device with journal := journal },
        { w.engine with enabled := some ⟨config, handler, none⟩ }⟩
  | polling (journal : List Event) {seconds : Nat} (h : w.engine.enabled = none)
      (hp : config.autofetchPeriod = some seconds) :
      Installing w config handler (.ok ())
        ⟨{ w.device with
            journal := journal
            timers := w.device.timers ++ [⟨.periodic, seconds * 1000, .armed⟩] },
          { w.engine with
            workers := (w.device.timers.length, .idle) :: w.engine.workers
            enabled := some ⟨config, handler, some w.device.timers.length⟩ }⟩

theorem installing (w : World A) (config : Config) (handler : Option A.Handler) :
    w.Installing config handler (w.install config handler).1 (w.install config handler).2 := by
  unfold install startAutofetch Device.setTimer
  split
  · exact .refused (.inl rfl)
  rename_i hnone
  have hnone : w.engine.enabled = none := by simpa using hnone
  split
  · exact .refused (.inr (.inl ⟨_, rfl⟩))
  cases hp : config.autofetchPeriod with
  | none => exact .silent _ hnone hp
  | some seconds =>
    cases w.device.startWorker with
    | error c => exact .refused (.inr (.inr ⟨_, rfl⟩))
    | ok =>
      cases w.device.faults.periodic with
      | true => exact .refused (.inr (.inr ⟨_, rfl⟩))
      | false => exact .polling _ hnone hp

inductive Uninstalling (w : World A) : Except UpdateError Unit → World A → Prop
  | refused (h : w.engine.enabled = none) : Uninstalling w (.error .notEnabled) w
  | silent (journal : List Event) {e : Enabled A} (h : w.engine.enabled = some e) (ha : e.autofetch = none) :
      Uninstalling w (.ok ()) ⟨{ w.device with journal := journal }, { w.engine with enabled := none }⟩
  | polling (journal : List Event) {e : Enabled A} {id : TimerId} (h : w.engine.enabled = some e)
      (ha : e.autofetch = some id) :
      Uninstalling w (.ok ()) ⟨{ w.device with journal := journal, timers := (w.device.timers.cancel id).2 },
        { w.engine with enabled := none }⟩

theorem uninstalling (w : World A) : w.Uninstalling w.uninstall.1 w.uninstall.2 := by
  unfold uninstall
  cases h : w.engine.enabled with
  | none => exact .refused h
  | some e =>
    unfold stopAutofetch
    dsimp only
    cases ha : e.autofetch with
    | none => exact .silent _ h ha
    | some id => exact .polling _ h ha

section
variable (w : World A)

theorem inward_install (config : Config) (handler : Option A.Handler) :
    Inward w (w.install config handler).2 := by
  have hi := w.installing config handler
  generalize (w.install config handler).1 = r, (w.install config handler).2 = w' at hi ⊢
  cases hi with
  | refused => exact .refl w
  | silent | polling => exact ⟨rfl, rfl, rfl, rfl, rfl⟩

theorem inward_uninstall : Inward w w.uninstall.2 := by
  have hu := w.uninstalling
  generalize w.uninstall.1 = r, w.uninstall.2 = w' at hu ⊢
  cases hu with
  | refused => exact .refl w
  | silent | polling => exact ⟨rfl, rfl, rfl, rfl, rfl⟩

theorem inward_claim : Inward w w.claim.2 := by
  unfold claim
  split <;> exact ⟨rfl, rfl, rfl, rfl, rfl⟩

end

end World

/-! ## Effects -/

variable {A : Application}

def NextBoot.after (n : NextBoot) : (e : Effect A) → e.Reply → NextBoot
  | .stage image, _ => { n with staged := some image }
  | .saveJobId id, .ok () => { n with jobId := some (Bytes.ofText id) }
  | .eraseJobId, .ok () => { n with jobId := none }
  | _, _ => n

namespace Effect

def Asks : Effect A → Prop
  | .decide .. | .diagnose _ => True
  | _ => False

def Quiet : Effect A → Prop
  | .decide .. | .diagnose _ | .stage _ | .saveJobId _ | .eraseJobId => False
  | _ => True

def Outward : Effect A → Prop
  | .get _ | .post .. | .saveJobId _ | .eraseJobId | .stage _ | .restart => True
  | _ => False

theorem Quiet.not_asks {e : Effect A} (h : e.Quiet) : ¬ e.Asks := by
  cases e <;> first | exact id | exact h.elim

end Effect

theorem NextBoot.after_quiet (n : NextBoot) {e : Effect A} (h : e.Quiet) (r : e.Reply) :
    n.after e r = n := by
  cases e <;> first | rfl | exact h.elim

namespace World

variable (b : Behaviour A) {e : Effect A} (w : World A)

theorem inward_perform (h : ¬ e.Asks) (ho : ¬ e.Outward) : Inward w (w.perform b e).2 := by
  cases e with
  | decide | diagnose => exact (h trivial).elim
  | get | post | saveJobId | eraseJobId | stage | restart => exact (ho trivial).elim
  | install config handler => exact w.inward_install config handler
  | uninstall => exact w.inward_uninstall
  | claim => exact w.inward_claim
  | beginValidation seconds => exact (w.trialStep_beginValidation seconds).toInward
  | markValid => exact w.trialStep_markValid.toInward
  | markInvalid => exact w.trialStep_markInvalid.toInward
  | settleTrial => exact w.trialStep_settleTrial.toInward
  | joinConfirmation => exact w.trialStep_joinConfirmation.toInward
  | _ => exact ⟨rfl, rfl, rfl, rfl, rfl⟩

theorem nextBoot_perform (h : ¬ e.Asks) :
    (w.perform b e).2.nextBoot = w.nextBoot.after e (w.perform b e).1 := by
  cases e with
  | decide | diagnose => exact (h trivial).elim
  | get | post | stage | restart => rfl
  | saveJobId id =>
    rcases w.device.saveJobId_cases id with ⟨-, hr, hn⟩ | ⟨-, hr, hn⟩
    · exact hn.trans (by simp only [perform]; rw [hr]; rfl)
    · exact hn.trans (by simp only [perform]; rw [hr]; rfl)
  | eraseJobId =>
    rcases w.device.eraseJobId_cases with ⟨hr, hn⟩ | ⟨⟨c, hr⟩, hn⟩
    · exact hn.trans (by simp only [perform]; rw [hr]; rfl)
    · exact hn.trans (by simp only [perform]; rw [hr]; rfl)
  | _ => exact (w.inward_perform b h id).nextBoot

theorem conditions_perform (h : ¬ e.Asks) : (w.perform b e).2.conditions = w.conditions := by
  cases e with
  | decide | diagnose => exact (h trivial).elim
  | get path => exact w.device.conditions_get path
  | post path body => exact w.device.conditions_post path body
  | saveJobId id => exact w.device.conditions_saveJobId id
  | eraseJobId => exact w.device.conditions_eraseJobId
  | stage | restart => rfl
  | _ => exact (w.inward_perform b h id).conditions

end World

/-! ## Along a run -/

/-- An effect that was carried out: the world it found, and its reply. -/
abbrev Deed (A : Application) := Routine.Deed (Effect.Reply (A := A)) (World A)

def NextBoot.through (n : NextBoot) (t : List (Deed A)) : NextBoot :=
  t.foldl (fun n d => n.after d.request d.reply) n

theorem NextBoot.through_append (n : NextBoot) (t u : List (Deed A)) :
    n.through (t ++ u) = (n.through t).through u := List.foldl_append

theorem NextBoot.through_quiet (n : NextBoot) {t : List (Deed A)} (h : ∀ d ∈ t, d.request.Quiet) :
    n.through t = n := by
  induction t generalizing n with
  | nil => rfl
  | cons d t ih =>
    rw [List.forall_mem_cons] at h
    exact (congrArg (·.through t) (n.after_quiet h.1 d.reply)).trans (ih n h.2)

section
variable {α : Type} {b : Behaviour A} {p : Activity A α} {w w' : World A} {t : List (Deed A)}
  {o : Option α}

open Routine

theorem nextBoot_of_states (h : ∀ d ∈ p.trace (World.perform b) w, ¬ d.request.Asks) {k : Nat}
    {s : World A} (hs : (p.states (World.perform b) w)[k]? = some s) :
    s.nextBoot = w.nextBoot.through ((p.trace (World.perform b) w).take k) := by
  induction p generalizing w k with
  | done a => cases k <;> simp_all [states, trace, NextBoot.through]
  | died => cases k <;> simp_all [states, trace, NextBoot.through]
  | step e next ih =>
    rw [trace, List.forall_mem_cons] at h
    cases k with
    | zero => simp_all [states, NextBoot.through]
    | succ k =>
      rw [states, List.getElem?_cons_succ] at hs
      rw [ih _ h.2 hs, World.nextBoot_perform b w h.1]
      rfl

theorem nextBoot_of_does (h : Does (World.perform b) p w t o w') (hq : ∀ d ∈ t, ¬ d.request.Asks) :
    w'.nextBoot = w.nextBoot.through t := by
  obtain ⟨rfl, hrun⟩ := h
  have hs : (p.states (World.perform b) w)[(p.trace (World.perform b) w).length]? = some w' := by
    rw [states_eq, List.getElem?_append_right (by simp)]
    simp [hrun]
  rw [nextBoot_of_states hq hs, List.take_length]

theorem conditions_of_does (h : Does (World.perform b) p w t o w') (hq : ∀ d ∈ t, ¬ d.request.Asks) :
    w'.conditions = w.conditions :=
  h.preserves (I := fun s => s.conditions = w.conditions) hq
    (fun _ s he hs => (World.conditions_perform b s he).trans hs) rfl

end

end FirmwareUpdate
