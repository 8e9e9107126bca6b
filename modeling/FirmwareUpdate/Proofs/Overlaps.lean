import FirmwareUpdate.Proofs.ValidationStates
import Mathlib.Logic.Function.Basic

/-!
# Between the steps of a validation's start

An enabling that starts the validation finds it unstarted, looks at the running slot, and writes what it makes
of the image, one step after the other. It holds no lock on the way, so that everybody else may have a turn
between any two of its steps. What it writes is stale if the verdict is another by then than the one it started
from. A stale write may undo a verdict: an image that has been marked invalid is on trial again. The states change
by the table as long as no write is stale, and none is where every start is made in one go.
-/

namespace FirmwareUpdate

open Routine

variable {A : Application}

/-! ## Steps of a start -/

namespace World

namespace Opening

/-- The verdict that the next step writes over, if it writes one. -/
def expected : Opening → Option Verdict
  | .looked | .onTrial | .armed _ => none
  | .found _ => some ⟨.init, false⟩
  | .pending => some ⟨.pendingVerify, false⟩
  | .flagged => some ⟨.init, true⟩

def tries : Opening → Bool
  | .onTrial | .armed _ => true
  | _ => false

/-- Where a step leads from a verdict, and the verdict that it leaves. -/
inductive Writes : Verdict → Opening → Opening ⊕ Except UpdateError BootKind → Verdict → Prop
  | illegible (v : Verdict) (c : Cause) : Writes v .looked (.inr (.error (.partition c))) v
  | legible (v : Verdict) (slot : SlotState) : Writes v .looked (.inl (.found slot)) v
  | pending : Writes ⟨.init, false⟩ (.found .pendingVerify) (.inl .pending) ⟨.pendingVerify, false⟩
  | onTrial : Writes ⟨.pendingVerify, false⟩ .pending (.inl .onTrial) ⟨.validating, false⟩
  | armed (v : Verdict) (id : TimerId) : Writes v .onTrial (.inl (.armed id)) v
  | unarmed (v : Verdict) : Writes v .onTrial (.inr (.ok .trial)) v
  | kept (v : Verdict) (id : TimerId) : Writes v (.armed id) (.inr (.ok .trial)) v
  | flagged : Writes ⟨.init, false⟩ (.found .valid) (.inl .flagged) ⟨.init, true⟩
  | settled : Writes ⟨.init, true⟩ .flagged (.inr (.ok .settled)) ⟨.valid, true⟩
  | foreign (slot : SlotState) : Writes ⟨.init, false⟩ (.found slot) (.inr (.ok .foreign)) ⟨.notOtaBoot, false⟩

theorem engine_setRollbackTimer (w : World A) (seconds : Nat) :
    (w.setRollbackTimer seconds).2.engine = w.engine := by
  unfold setRollbackTimer
  split <;> rfl

/-- A step whose write is not stale. -/
theorem writes {w : World A} {p : Opening} (h : ∀ v, p.expected = some v → w.verdict = v) (seconds : Nat) :
    Writes w.verdict p (p.next seconds w).1 (p.next seconds w).2.verdict := by
  have hmoved (w : World A) (s : ValidationState) : (w.moveValidation s).verdict = ⟨s, w.verdict.valid⟩ := rfl
  have hflagged (w : World A) : w.flagValid.verdict = ⟨w.verdict.state, true⟩ := rfl
  have hforeign (slot : SlotState) (hw : w.verdict = ⟨.init, false⟩) :
      Writes w.verdict (.found slot) (.inr (.ok .foreign)) (w.moveValidation .notOtaBoot).verdict := by
    rw [hmoved, hw]
    exact .foreign slot
  cases p with
  | looked =>
    simp only [next]
    split
    · exact .illegible _ _
    · exact .legible _ _
  | found slot =>
    cases slot with
    | pendingVerify =>
      change Writes w.verdict _ _ ⟨.pendingVerify, w.verdict.valid⟩
      rw [h _ rfl]
      exact .pending
    | valid =>
      change Writes w.verdict _ _ w.flagValid.verdict
      rw [hflagged, h _ rfl]
      exact .flagged
    | invalid | undefined => exact hforeign _ (h _ rfl)
  | pending =>
    change Writes w.verdict _ _ (w.moveValidation .validating).verdict
    rw [hmoved, h _ rfl]
    exact .onTrial
  | onTrial =>
    have hverdict : (w.setRollbackTimer seconds).2.verdict = w.verdict := by
      simp only [verdict, engine_setRollbackTimer]
    simp only [next]
    split <;> rename_i hw' <;> rw [hw'] at hverdict <;> rw [hverdict]
    · exact .unarmed _
    · exact .armed _ _
  | armed id => exact .kept _ id
  | flagged =>
    change Writes w.verdict _ _ (w.moveValidation .valid).verdict
    rw [hmoved, h _ rfl]
    exact .settled

theorem confirmation_next (p : Opening) (w : World A) (seconds : Nat) :
    (p.next seconds w).2.engine.validation.confirmation = w.engine.validation.confirmation := by
  cases p with
  | looked =>
    simp only [next]
    split <;> rfl
  | onTrial =>
    have hengine := engine_setRollbackTimer w seconds
    simp only [next]
    split <;> rename_i hw' <;> rw [hw'] at hengine <;> rw [hengine]
  | found slot => cases slot <;> rfl
  | pending | armed | flagged => rfl

variable {v v' : Verdict} {p : Opening} {r : Opening ⊕ Except UpdateError BootKind}

theorem Writes.stage_le (h : Writes v p r v') : v.state.stage ≤ v'.state.stage := by
  cases h <;> first | exact Nat.le_refl _ | decide

/-- An image that is on trial or judged is none of their business. -/
theorem Writes.eq_of_late (h : Writes v p r v') (hv : 2 ≤ v.state.stage) : v' = v := by
  cases h <;> first | rfl | exact absurd hv (by decide)

theorem Writes.tried (h : Writes v p r v') (hv : v.Tried) : v'.Tried := by
  have hlate : 2 ≤ v.state.stage := by rcases hv with hs | hs | hs <;> rw [hs] <;> decide
  exact h.eq_of_late hlate ▸ hv

end Opening

end World

/-! ## Overlaps -/

/-- A race in which the start of a validation is no single step, with how far each task has got in one. -/
structure Overlap (A : Application) where
  race : Race A
  opening : Nat → Option World.Opening

namespace Overlap

inductive Step (A : Application) where
  | whole (t : Race.Twist A)
  /-- The task takes the next step in starting the validation. -/
  | part (task : Nat)

def start (A : Application) (d : Device) (version : String) : Overlap A := ⟨.start A d version, fun _ => none⟩

def verdict (o : Overlap A) : Verdict := o.race.boot.world.verdict

def amidst (o : Overlap A) : Race.Twist A → Bool
  | .step (.move (.go task _)) => (o.opening task).isSome
  | _ => false

/-- Goes on with a start of the validation, which ends with its reply. -/
def goOn (o : Overlap A) (task seconds : Nat) (next : Option (Except UpdateError World.BootKind) → Activity A Unit)
    (p : World.Opening) : Overlap A :=
  let b := o.race.boot
  match p.next seconds b.world with
  | (.inl q, w) => ⟨{ o.race with boot := { b with world := w } }, Function.update o.opening task (some q)⟩
  | (.inr r, w) =>
    ⟨{ o.race with boot := ⟨w, b.tasks.set task (.call (next (some r))),
        .did task ⟨b.world, .beginValidation seconds, some r⟩ :: b.history⟩ },
      Function.update o.opening task none⟩

def part (o : Overlap A) (task : Nat) : Overlap A :=
  match o.race.boot.tasks[task]? with
  | some (.call (.step (.beginValidation seconds) next)) =>
    match o.opening task with
    | some p => o.goOn task seconds next p
    | none => if o.verdict.state = .init then { o with opening := Function.update o.opening task (some .looked) } else o
  | _ => o

/-- Takes a step. One that is impossible changes nothing. -/
def step (o : Overlap A) : Step A → Overlap A
  | .whole t => if o.amidst t then o else { o with race := o.race.twist t }
  | .part task => o.part task

def run (o : Overlap A) (ts : List (Step A)) : Overlap A := ts.foldl step o

/-- A start writes over a verdict that it has not started from. One that is made in one go does so only if another
one has flagged the image by then. -/
def stale (o : Overlap A) : Step A → Bool
  | .whole t =>
    o.verdict == ⟨.init, true⟩ &&
      (o.step (.whole t)).race.boot.history.countP Happening.begins != o.race.boot.history.countP Happening.begins
  | .part task => ((o.opening task).bind World.Opening.expected).any (· != o.verdict)

def timely (o : Overlap A) : List (Step A) → Bool
  | [] => true
  | t :: ts => !o.stale t && (o.step t).timely ts

/-! ## What a step comes to -/

/-- What comes of a step that writes nothing stale. -/
inductive Went (o : Overlap A) : Overlap A → Prop
  | idle : Went o o
  | twisted {r : Race A} (ht : o.race.boot.Twisted r.boot)
      (hb : o.verdict = ⟨.init, true⟩ →
        r.boot.history.countP Happening.begins = o.race.boot.history.countP Happening.begins) :
      Went o { o with race := r }
  | looked (task : Nat) (ho : o.opening task = none) :
      Went o { o with opening := Function.update o.opening task (some .looked) }
  | wrote {task : Nat} {p q : World.Opening} {w : World A} (ho : o.opening task = some p)
      (hw : p.Writes o.verdict (.inl q) w.verdict)
      (hc : w.engine.validation.confirmation = o.race.boot.world.engine.validation.confirmation) :
      Went o ⟨{ o.race with boot := { o.race.boot with world := w } }, Function.update o.opening task (some q)⟩
  | ended {task seconds : Nat} {next : Option (Except UpdateError World.BootKind) → Activity A Unit}
      {p : World.Opening} {r : Except UpdateError World.BootKind} {w : World A} (ho : o.opening task = some p)
      (ht : o.race.boot.tasks[task]? = some (.call (.step (.beginValidation seconds) next)))
      (hw : p.Writes o.verdict (.inr r) w.verdict)
      (hc : w.engine.validation.confirmation = o.race.boot.world.engine.validation.confirmation) :
      Went o ⟨{ o.race with boot := ⟨w, o.race.boot.tasks.set task (.call (next (some r))),
        .did task ⟨o.race.boot.world, .beginValidation seconds, some r⟩ :: o.race.boot.history⟩ },
        Function.update o.opening task none⟩

theorem went_whole (o : Overlap A) (t : Race.Twist A) (h : o.stale (.whole t) = false) :
    o.Went (o.step (.whole t)) := by
  unfold stale at h
  simp only [step] at h ⊢
  split
  · exact .idle
  · rename_i ha
    rw [if_neg ha] at h
    exact .twisted (o.race.twisted t) fun hv => by simpa [hv] using h

theorem went_part (o : Overlap A) (task : Nat) (h : o.stale (.part task) = false) : o.Went (o.part task) := by
  unfold part
  split
  · rename_i seconds next ht
    split
    · rename_i p ho
      have hfresh (v : Verdict) (hv : p.expected = some v) : o.race.boot.world.verdict = v := by
        simp only [stale, ho, Option.bind_some, hv, Option.any_some, bne_eq_false_iff_eq] at h
        exact h.symm
      have hw := World.Opening.writes hfresh seconds
      have hc := p.confirmation_next o.race.boot.world seconds
      unfold goOn
      dsimp only
      split <;> rename_i hnext <;> rw [hnext] at hw hc
      · exact .wrote ho hw hc
      · exact .ended ho ht hw hc
    · rename_i ho
      split
      · exact .looked task ho
      · exact .idle
  · exact .idle

theorem went (o : Overlap A) (t : Step A) (h : o.stale t = false) : o.Went (o.step t) := by
  cases t with
  | whole t => exact o.went_whole t h
  | part task => exact o.went_part task h

end Overlap

/-! ## What every overlap keeps to -/

/-- The verdict is sound, or somebody who has flagged the image has yet to say so in the state. -/
structure Verdict.SoundAmid (v : Verdict) (opening : Nat → Option World.Opening) : Prop where
  flagged : v.state = .valid → v.valid = true
  stated : v.valid = true → v.state = .valid ∨ v.state = .notOtaBoot ∨
    v.state = .init ∧ ∃ task, opening task = some .flagged

section
variable {v v' : Verdict} {opening : Nat → Option World.Opening} {task : Nat} {p : World.Opening}

theorem Verdict.Sound.soundAmid (h : v.Sound) : v.SoundAmid opening :=
  ⟨h.flagged, fun hv => (h.stated hv).imp_right .inl⟩

theorem Verdict.SoundAmid.update (h : v.SoundAmid opening) (ho : opening task ≠ some .flagged)
    (p? : Option World.Opening) : v.SoundAmid (Function.update opening task p?) := by
  refine ⟨h.flagged, fun hv => ?_⟩
  rcases h.stated hv with hs | hs | ⟨hs, i, hi⟩
  · exact .inl hs
  · exact .inr (.inl hs)
  · have hne : i ≠ task := by
      rintro rfl
      exact ho hi
    exact .inr (.inr ⟨hs, i, (Function.update_of_ne hne ..).trans hi⟩)

namespace World.Opening.Writes

variable {r : World.Opening ⊕ Except UpdateError World.BootKind}

theorem soundAmid (hw : Writes v p r v') (ho : opening task = some p) (h : v.SoundAmid opening) :
    v'.SoundAmid (Function.update opening task r.getLeft?) := by
  cases hw with
  | illegible | legible | armed | unarmed | kept => exact h.update (by simp [ho]) _
  | pending | onTrial | foreign => exact ⟨nofun, nofun⟩
  | flagged => exact ⟨nofun, fun _ => .inr (.inr ⟨rfl, task, Function.update_self ..⟩)⟩
  | settled => exact ⟨fun _ => rfl, fun _ => .inl rfl⟩

/-- Past the step that puts the image on trial, it has been tried. -/
theorem tried_of_tries (hw : Writes v p r v') (h : p.tries = true → v.Tried) {q : World.Opening}
    (hq : r.getLeft? = some q) (htries : q.tries = true) : v'.Tried := by
  cases hw with
  | onTrial => exact .inl rfl
  | armed => exact h rfl
  | legible | pending | flagged =>
    cases hq
    cases htries
  | illegible | unarmed | kept | settled | foreign => cases hq

/-- A start ends with the reply that the image is on trial only past that step. -/
theorem untrying_or_tried {e : Except UpdateError World.BootKind} (hw : Writes v p (.inr e) v')
    (h : p.tries = true → v.Tried) (seconds : Nat) :
    Untrying (.beginValidation seconds : Effect A) (some e) ∨ v'.Tried := by
  cases hw with
  | illegible | settled | foreign => exact .inl trivial
  | unarmed | kept => exact .inr (h rfl)

end World.Opening.Writes

end

namespace Overlap

structure Held (o : Overlap A) : Prop where
  conducted : o.race.boot.Conducted
  tries : ∀ task p, o.opening task = some p → p.tries = true → o.verdict.Tried
  sound : o.verdict.SoundAmid o.opening

variable {o o' : Overlap A}

theorem held_start (d : Device) (version : String) : (start A d version).Held where
  conducted := (Boot.governed_start d version).toConducted
  tries _ _ h := nomatch h
  sound := ⟨nofun, nofun⟩

theorem Held.twisted (h : o.Held) {r : Race A} (ht : o.race.boot.Twisted r.boot)
    (hb : o.verdict = ⟨.init, true⟩ →
      r.boot.history.countP Happening.begins = o.race.boot.history.countP Happening.begins) :
    Held { o with race := r } := by
  obtain ⟨news, hhistory, hs⟩ := ht.shift h.conducted
  rw [hhistory, List.countP_append] at hb
  refine ⟨h.conducted.twisted ht, fun task p hp htries => hs.tried (h.tries task p hp htries), ?_⟩
  change r.boot.world.verdict.SoundAmid o.opening
  rcases hs.sound_or_same fun hv => Nat.add_eq_right.mp (hb hv) with hsound | hsame
  · exact hsound.soundAmid
  · exact hsame ▸ h.sound

/-- The other tasks stay where they are. -/
theorem Held.tries_update (h : o.Held) {task : Nat} {p? : Option World.Opening} {v : Verdict}
    (hkept : o.verdict.Tried → v.Tried) (hnew : ∀ p, p? = some p → p.tries = true → v.Tried) (i : Nat)
    (p : World.Opening) (hp : Function.update o.opening task p? i = some p) (htries : p.tries = true) : v.Tried := by
  by_cases hi : i = task
  · subst hi
    rw [Function.update_self] at hp
    exact hnew p hp htries
  · rw [Function.update_of_ne hi] at hp
    exact hkept (h.tries i p hp htries)

theorem Held.went (h : o.Held) (hw : o.Went o') : o'.Held := by
  cases hw with
  | idle => exact h
  | twisted ht hb => exact h.twisted ht hb
  | looked task ho =>
    refine ⟨h.conducted, ?_, h.sound.update (by simp [ho]) _⟩
    exact h.tries_update id fun p hp htries => by cases hp; cases htries
  | wrote ho hw hc =>
    refine ⟨⟨h.conducted.attempts, ?_⟩, ?_, hw.soundAmid ho h.sound⟩
    · exact h.conducted.tried.imp hw.tried fun hu => ⟨hc.trans hu.unconfirmed, hu.tasks⟩
    · exact h.tries_update hw.tried fun q hq => hw.tried_of_tries (h.tries _ _ ho) hq
  | @ended task seconds next p r w ho ht hw hc =>
    refine ⟨⟨fun rest hrest => ?_, ?_⟩, h.tries_update hw.tried nofun, hw.soundAmid ho h.sound⟩
    · rcases List.mem_or_eq_of_mem_set hrest with hrest | hrest
      · exact h.conducted.attempts rest hrest
      · cases hrest
    · rcases h.conducted.tried with htried | hu
      · exact .inl (hw.tried htried)
      have hends : Untrying (.beginValidation seconds : Effect A) (some r) ∨ w.verdict.Tried :=
        hw.untrying_or_tried (h.tries _ _ ho) seconds
      rcases hends with hr | htried
      · refine .inr ⟨hc.trans hu.unconfirmed, fun t ht' => ?_⟩
        rcases List.mem_or_eq_of_mem_set ht' with ht' | rfl
        · exact hu.tasks t ht'
        · obtain ⟨_, hrest, habstains⟩ := hu.tasks _ (List.mem_of_getElem? ht)
          cases hrest
          exact ⟨_, rfl, habstains.2 _ hr⟩
      · exact .inl htried

/-! ## The table -/

theorem Went.stage_le (hw : o.Went o') (h : o.Held) : o.verdict.state.stage ≤ o'.verdict.state.stage := by
  cases hw with
  | idle | looked => exact Nat.le_refl _
  | twisted ht =>
    obtain ⟨_, -, hs⟩ := ht.shift h.conducted
    exact hs.stage_le
  | wrote _ hw | ended _ _ hw => exact hw.stage_le

theorem Went.of_foreign (hw : o.Went o') (h : o.Held) (hbefore : o.verdict.state = .notOtaBoot)
    (hafter : o'.verdict.state ≠ .notOtaBoot) :
    o'.verdict.state = .invalid ∧ ∃ task r, o'.race.boot.history =
      .did task ⟨o.race.boot.world, .markInvalid, r⟩ :: o.race.boot.history := by
  have hlate : 2 ≤ o.verdict.state.stage := hbefore ▸ by decide
  cases hw with
  | idle | looked => exact absurd hbefore hafter
  | twisted ht =>
    obtain ⟨_, hhistory, hs⟩ := ht.shift h.conducted
    obtain ⟨hinvalid, task, r, rfl⟩ := hs.of_foreign hbefore hafter
    exact ⟨hinvalid, task, r, hhistory⟩
  | wrote _ hw | ended _ _ hw => exact absurd ((congrArg (·.state) (hw.eq_of_late hlate)).trans hbefore) hafter

theorem Went.of_invalid (hw : o.Went o') (h : o.Held) (hbefore : o.verdict.state = .invalid)
    (hafter : o'.verdict.state ≠ .invalid) :
    o'.verdict.state = .valid ∧ o.race.boot.world.device.markValid.1 = .ok () ∧
      ∃ task rest, o.race.boot.tasks[task]? = some (.call rest) ∧ o'.race.boot.history =
        .did task ⟨o.race.boot.world, .markValid, .ok ()⟩ :: o.race.boot.history := by
  have hlate : 2 ≤ o.verdict.state.stage := hbefore ▸ by decide
  cases hw with
  | idle | looked => exact absurd hbefore hafter
  | twisted ht =>
    obtain ⟨_, hhistory, hs⟩ := ht.shift h.conducted
    obtain ⟨hvalid, hmarked, task, rfl⟩ := hs.of_invalid hbefore hafter
    obtain ⟨rest, hrest⟩ := ht.marked h.conducted hhistory
    exact ⟨hvalid, hmarked, task, rest, hrest, hhistory⟩
  | wrote _ hw | ended _ _ hw => exact absurd ((congrArg (·.state) (hw.eq_of_late hlate)).trans hbefore) hafter

/-! ## Runs -/

theorem run_append (o : Overlap A) (ts us : List (Step A)) : o.run (ts ++ us) = (o.run ts).run us :=
  List.foldl_append

theorem timely_append (o : Overlap A) (ts us : List (Step A)) :
    o.timely (ts ++ us) = (o.timely ts && (o.run ts).timely us) := by
  induction ts generalizing o with
  | nil => rfl
  | cons t ts ih =>
    change (!o.stale t && (o.step t).timely (ts ++ us)) = (!o.stale t && (o.step t).timely ts && _)
    rw [ih, Bool.and_assoc]
    rfl

theorem timely_cons {t : Step A} {ts : List (Step A)} :
    o.timely (t :: ts) = true ↔ o.stale t = false ∧ (o.step t).timely ts = true := by
  simp [timely]

theorem Held.run (h : o.Held) {ts : List (Step A)} (ht : o.timely ts = true) :
    (o.run ts).Held ∧ o.verdict.state.stage ≤ (o.run ts).verdict.state.stage := by
  induction ts generalizing o with
  | nil => exact ⟨h, Nat.le_refl _⟩
  | cons t ts ih =>
    obtain ⟨hfresh, hrest⟩ := timely_cons.mp ht
    have hwent := o.went t hfresh
    obtain ⟨hheld, hstage⟩ := ih (h.went hwent) hrest
    exact ⟨hheld, Nat.le_trans (hwent.stage_le h) hstage⟩

/-- Where every start is taken in one step nothing is stale, and the overlap is a race. -/
theorem whole_run (hg : o.race.boot.Governed) (ho : ∀ task, o.opening task = none) (us : List (Race.Twist A)) :
    o.timely (us.map .whole) = true ∧ o.run (us.map .whole) = { o with race := o.race.through us } := by
  induction us generalizing o with
  | nil => exact ⟨rfl, rfl⟩
  | cons t us ih =>
    have hamidst : o.amidst t = false := by
      unfold amidst
      split
      · rw [ho]
        rfl
      · rfl
    have hstep : o.step (.whole t) = { o with race := o.race.twist t } := by
      rw [step, hamidst]
      rfl
    have hfresh : o.stale (.whole t) = false := by
      have hne : o.verdict ≠ ⟨.init, true⟩ := by
        intro hv
        rcases hg.sound.stated (congrArg (·.valid) hv) with hs | hs <;> cases hs.symm.trans (congrArg (·.state) hv)
      simp [stale, hne]
    obtain ⟨htimely, hrun⟩ := ih (o := { o with race := o.race.twist t }) (hg.twisted (o.race.twisted t)) ho
    rw [List.map_cons, timely_cons, hstep]
    refine ⟨⟨hfresh, htimely⟩, ?_⟩
    change (o.step (.whole t)).run (us.map .whole) = _
    rw [hstep, hrun]
    rfl

end Overlap

/-! ### Starts that nobody interrupts -/

namespace World

namespace Opening

/-- What the remaining steps come to, one right after the other. -/
inductive Leads (seconds : Nat) : World A → Opening → Except UpdateError BootKind → World A → Prop
  | ends {w w' : World A} {p : Opening} {r : Except UpdateError BootKind} (h : p.next seconds w = (.inr r, w')) :
    Leads seconds w p r w'
  | goes {w w' w'' : World A} {p q : Opening} {r : Except UpdateError BootKind}
    (h : p.next seconds w = (.inl q, w')) (hq : Leads seconds w' q r w'') : Leads seconds w p r w''

theorem leads_beginTrial (w : World A) (seconds : Nat) :
    Leads seconds w (.found .pendingVerify) (.ok .trial) (w.beginTrial seconds) := by
  refine .goes rfl (.goes rfl ?_)
  unfold beginTrial
  split <;> rename_i heq
  · refine .ends ?_
    simp only [next, heq]
  · refine .goes (q := .armed _) ?_ (.ends rfl)
    simp only [next, heq]

end Opening

theorem leads_beginValidation {w : World A} (hi : w.engine.validation.state = .init) (seconds : Nat) :
    ∃ r, (w.beginValidation seconds).1 = some r ∧
      Opening.Leads seconds w .looked r (w.beginValidation seconds).2 := by
  unfold beginValidation
  rw [if_neg (not_not_intro hi)]
  split <;> rename_i hslot
  · refine ⟨_, rfl, .ends ?_⟩
    simp only [Opening.next, hslot]
  · rename_i slot
    have hlooked : Opening.next seconds w .looked = (.inl (.found slot), w.note (.slotState slot)) := by
      simp only [Opening.next, hslot]
    cases slot with
    | pendingVerify => exact ⟨_, rfl, .goes hlooked (Opening.leads_beginTrial _ _)⟩
    | valid => exact ⟨_, rfl, .goes hlooked (.goes rfl (.ends rfl))⟩
    | invalid | undefined => exact ⟨_, rfl, .goes hlooked (.ends rfl)⟩

end World

namespace Overlap

variable {o : Overlap A} {task seconds : Nat} {next : Option (Except UpdateError World.BootKind) → Activity A Unit}

theorem part_of_opening (ht : o.race.boot.tasks[task]? = some (.call (.step (.beginValidation seconds) next)))
    {p : World.Opening} (ho : o.opening task = some p) : o.part task = o.goOn task seconds next p := by
  simp only [part, ht, ho]

theorem run_leads {w w' : World A} {p : World.Opening} {r : Except UpdateError World.BootKind}
    (h : p.Leads seconds w r w') (hw : o.race.boot.world = w)
    (ht : o.race.boot.tasks[task]? = some (.call (.step (.beginValidation seconds) next)))
    (ho : o.opening task = some p) :
    ∃ n found, o.run (List.replicate n (.part task)) =
      ⟨{ o.race with boot := ⟨w', o.race.boot.tasks.set task (.call (next (some r))),
        .did task ⟨found, .beginValidation seconds, some r⟩ :: o.race.boot.history⟩ },
        Function.update o.opening task none⟩ := by
  induction h generalizing o with
  | ends h =>
    refine ⟨1, o.race.boot.world, ?_⟩
    change o.part task = _
    rw [part_of_opening ht ho, goOn, hw, h]
  | @goes w w' w'' p q r h hq ih =>
    have hpart : o.part task = ⟨{ o.race with boot := { o.race.boot with world := w' } },
        Function.update o.opening task (some q)⟩ := by
      rw [part_of_opening ht ho, goOn, hw, h]
    obtain ⟨n, found, hrun⟩ := ih (o := o.part task) (by rw [hpart]) (by rw [hpart]; exact ht)
      (by rw [hpart]; exact Function.update_self ..)
    refine ⟨n + 1, found, ?_⟩
    change (o.part task).run (List.replicate n (.part task)) = _
    rw [hrun, hpart]
    simp only [Function.update_idem]

/-- With nobody between them, the steps come to the whole start. -/
theorem run_parts (ht : o.race.boot.tasks[task]? = some (.call (.step (.beginValidation seconds) next)))
    (hi : o.verdict.state = .init) (ho : o.opening task = none) :
    ∃ n found, o.run (List.replicate n (.part task)) =
      { o with race := { o.race with boot := ⟨(o.race.boot.world.beginValidation seconds).2,
        o.race.boot.tasks.set task (.call (next (o.race.boot.world.beginValidation seconds).1)),
        .did task ⟨found, .beginValidation seconds, (o.race.boot.world.beginValidation seconds).1⟩ ::
          o.race.boot.history⟩ } } := by
  obtain ⟨r, hr, hleads⟩ := World.leads_beginValidation hi seconds
  have hpart : o.part task = { o with opening := Function.update o.opening task (some .looked) } := by
    simp only [part, ht, ho, hi]
    rfl
  obtain ⟨n, found, hrun⟩ := run_leads (o := o.part task) hleads (by rw [hpart]) (by rw [hpart]; exact ht)
    (by rw [hpart]; exact Function.update_self ..)
  refine ⟨n + 1, found, ?_⟩
  change (o.part task).run (List.replicate n (.part task)) = _
  rw [hrun, hpart, hr]
  simp only [Function.update_idem]
  rw [← ho, Function.update_eq_self]

/-! ## All in all -/

def sequel (d : Device) (version : String) (ts : List (Step A)) : Overlap A := (start A d version).run ts

def status (o : Overlap A) : EngineStatus := o.race.boot.world.status

/-- The bootloader begins to refuse, and the application to judge the image, while an enabling finds out that there
is nothing to validate. The application changes its mind afterwards. -/
def repenting : List (Step Agent.application) :=
  [.whole (.step (.move (.call (.enable Config.default none none)))), .whole (.step (.move (.go 0 Boot.obliging))),
    .part 0,
    .whole (.step (.move (.disturb ⟨[], [], [], { Faults.none with rollback := true }, false, false, false⟩))),
    .part 0, .whole (.step (.move (.call .markInvalid))), .part 0, .whole (.step (.move (.go 1 Boot.obliging))),
    .whole (.step (.move (.call .markValid)))]

/-- An image on trial is marked invalid between two steps of the start. -/
def overtaken : List (Step Agent.application) :=
  [.whole (.step (.move (.call (.enable Config.default none none)))), .whole (.step (.move (.go 0 Boot.obliging))),
    .part 0, .part 0, .whole (.step (.move (.call .markInvalid))), .whole (.step (.move (.go 1 Boot.obliging)))]

-- the start writes over what the call has decided, and the image that was rolled back is on trial again
example :
    (sequel Boot.trialDevice "1.0.0" overtaken).status.validation = .invalid ∧
    (sequel Boot.trialDevice "1.0.0" overtaken).race.boot.world.device.slots.rollbackCalls = 1 ∧
    (sequel Boot.trialDevice "1.0.0" overtaken).stale (.part 0) = true ∧
    (sequel Boot.trialDevice "1.0.0" (overtaken ++ [.part 0, .part 0])).status.validation = .validating := by
  decide +kernel

end Overlap

end FirmwareUpdate
