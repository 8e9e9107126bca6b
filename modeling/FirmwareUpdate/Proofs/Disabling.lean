import FirmwareUpdate.Proofs.Repertoires
import FirmwareUpdate.Proofs.SideBySide

/-!
# Disabling and the trial

Once the validation of the boot has begun, a run in which the engine is disabled and enabled again goes as it
would have gone without: the same is sent and stored, and the trial of the image takes the same course.
-/

namespace FirmwareUpdate

open Routine Activity

variable {A : Application}

/-! ## Tasks -/

/-- The routine enables or disables the engine and does no more, if the validation has begun. -/
def Switching {α : Type} : Activity A α → Prop
  | .step e next => e.Switches ∧ ∀ r, e.Late r → Switching (next r)
  | _ => True

namespace Call

def switches : Call A → Bool
  | enable .. | disable => true
  | _ => false

def fetches : Call A → Bool
  | fetch | autofetch => true
  | _ => false

theorem switching_of_switches {c : Call A} (h : c.switches = true) : Switching c.activity := by
  cases c with
  | enable config handler test =>
    refine ⟨trivial, fun r _ => ?_⟩
    cases r with
    | error e => trivial
    | ok =>
      refine ⟨trivial, fun r hr => ?_⟩
      cases hr
      trivial
  | disable => exact ⟨trivial, fun _ _ => trivial⟩
  | _ => cases h

theorem indifferent_of_not_switches {c : Call A} (hs : c.switches = false) (hf : c.fetches = false) :
    c.activity.Only Effect.Indifferent := by
  cases c with
  | enable | disable => cases hs
  | fetch | autofetch => cases hf
  | markValid => exact (only_perform (e := .markValid) trivial).bind fun _ => trivial
  | markInvalid => exact (only_perform (e := .markInvalid) trivial).bind fun _ => trivial
  | joinConfirmation => exact (only_perform (e := .joinConfirmation) trivial).bind fun _ => trivial
  | report id status info => exact (only_reportFor trivial fun _ => trivial).bind fun _ => trivial
  | download job chunkSize =>
    refine ((only_downloadAndFlash job chunkSize).mono fun e he => ?_).bind fun _ => trivial
    cases e <;> trivial

end Call

theorem indifferent_confirmAttempt (attempt interval : Nat) :
    (confirmAttempt attempt interval : Activity A _).Only Effect.Indifferent :=
  (only_confirmAttempt attempt interval).mono fun e he => by cases e <;> trivial

namespace Task

def Indifferent : Task A → Prop
  | call rest => rest.Only Effect.Indifferent
  | attempt rest => rest.Only Effect.Indifferent

def ended : Task A → Bool
  | call (.step ..) | attempt (.step ..) => false
  | _ => true

theorem indifferent_of_ended {t : Task A} (h : t.ended = true) : t.Indifferent := by
  cases t with
  | call rest | attempt rest => cases rest <;> trivial

def Switches : Task A → Prop
  | call rest => Switching rest
  | attempt _ => False

variable {t : Task A} {w w' : World A}

/-- A task that enables or disables the engine goes on unnoticed. -/
theorem Switches.advance (ht : t.Switches) (htimed : w.Timed) (hb : w.engine.validation.state ≠ .init) (s : Saying) :
    t.advance s w = none ∨ ∃ d t₁ w₁, t.advance s w = some (d, t₁, w₁) ∧ t₁.Switches ∧ w.Alongside w₁ := by
  cases t with
  | attempt rest => exact ht.elim
  | call rest =>
    cases rest with
    | done | died => exact .inl rfl
    | step e next =>
      obtain ⟨halong, hlate⟩ := World.switch_undergo htimed hb s ht.1
      exact .inr ⟨_, _, _, rfl, ht.2 _ hlate, halong⟩

/-- Any other task goes on in either world in the same way. -/
theorem Indifferent.advance (ht : t.Indifferent) (h : w.Alongside w') (htimed : w.Timed) (htimed' : w'.Timed)
    (hb : w.engine.validation.state ≠ .init) (s : Saying) :
    (t.advance s w = none ∧ t.advance s w' = none) ∨
    ∃ d d' t₁ w₁ w₁', t.advance s w = some (d, t₁, w₁) ∧ t.advance s w' = some (d', t₁, w₁') ∧ t₁.Indifferent ∧
      w₁.Alongside w₁' := by
  cases t with
  | call rest =>
    cases rest with
    | done | died => exact .inl ⟨rfl, rfl⟩
    | step e next =>
      obtain ⟨hreply, halong⟩ := h.undergo htimed htimed' hb s ht.1
      refine .inr ⟨⟨w, e, (w.undergo s e).1⟩, ⟨w', e, (w.undergo s e).1⟩, call (next (w.undergo s e).1), _, _, rfl, ?_,
        ht.2 _, halong⟩
      rw [← hreply]
      rfl
  | attempt rest =>
    cases rest with
    | done | died => exact .inl ⟨rfl, rfl⟩
    | step e next =>
      obtain ⟨hreply, halong⟩ := h.undergo htimed htimed' hb s ht.1
      refine .inr ⟨⟨w, e, (w.undergo s e).1⟩, ⟨w', e, (w.undergo s e).1⟩, attempt (next (w.undergo s e).1),
        (w.undergo s e).2.afterAttempt (next (w.undergo s e).1),
        (w'.undergo s e).2.afterAttempt (next (w.undergo s e).1), rfl, ?_, ht.2 _, halong.afterAttempt _⟩
      rw [← hreply]
      rfl

end Task

/-! ## A run without them -/

namespace Move

def switches : Move A → Bool
  | .call c => c.switches
  | _ => false

def fetches : Move A → Bool
  | .call c => c.fetches
  | _ => false

/-- What is left of a move without the tasks that are marked. -/
def spared (marks : List Bool) : Move A → List (Move A)
  | .call c => if c.switches then [] else [.call c]
  | .go task s => if marks[task]? = some true then [] else [.go ((marks.take task).count false) s]
  | m => [m]

end Move

namespace Boot

def marksAfter (b : Boot A) (marks : List Bool) (m : Move A) : List Bool :=
  marks ++ List.replicate ((b.step m).tasks.length - b.tasks.length) m.switches

def spared (b : Boot A) (marks : List Bool) : List (Move A) → List (Move A)
  | [] => []
  | m :: ms => m.spared marks ++ (b.step m).spared (b.marksAfter marks m) ms

/-- The moves without the calls that enable or disable the engine, and without what these do. Of the tasks at
hand none is one of them. -/
def unswitched (b : Boot A) (ms : List (Move A)) : List (Move A) := b.spared (List.replicate b.tasks.length false) ms

theorem advance_of_none {b : Boot A} {task : Nat} {s : Saying}
    (h : b.tasks[task]?.bind (Task.advance s b.world) = none) : b.advance task s = b := by
  unfold advance
  rw [h]

theorem advance_of_some {b : Boot A} {task : Nat} {s : Saying} {d : Deed A} {t : Task A} {w : World A}
    (h : b.tasks[task]?.bind (Task.advance s b.world) = some (d, t, w)) :
    b.advance task s = ⟨w, b.tasks.set task t, .did task d :: b.history⟩ := by
  unfold advance
  rw [h]

theorem timed_of_run {b : Boot A} (h : b.world.Timed) (ms : List (Move A)) : (b.run ms).world.Timed :=
  run_turns (P := fun w _ => w.Timed) (fun ht hw => (ht.net hw).1) h ms

end Boot

section
variable {α : Type} {p : α → Bool} {l : List α} {i : Nat} {x y : α}

theorem filter_set_of_neg (hi : l[i]? = some x) (hx : p x = false) (hy : p y = false) :
    (l.set i y).filter p = l.filter p := by
  induction l generalizing i with
  | nil => cases hi
  | cons z l ih =>
    cases i with
    | zero =>
      obtain rfl : z = x := by simpa using hi
      simp [hx, hy]
    | succ i => simp [List.filter_cons, ih (by simpa using hi)]

theorem filter_set_of_pos (hi : l[i]? = some x) (hx : p x = true) (hy : p y = true) :
    (l.filter p)[(l.take i).countP p]? = some x ∧
    (l.set i y).filter p = (l.filter p).set ((l.take i).countP p) y := by
  induction l generalizing i with
  | nil => cases hi
  | cons z l ih =>
    cases i with
    | zero =>
      obtain rfl : z = x := by simpa using hi
      simp [hx, hy]
    | succ i =>
      obtain ⟨hget, hset⟩ := ih (by simpa using hi)
      cases hz : p z <;> simp [hz, hget, hset]

end

/-! ## Two boots at once -/

/-- Two boots, the tasks of one of them marked; the other has only those without a mark. -/
structure Shadows (tagged : List (Task A × Bool)) (b b' : Boot A) : Prop where
  world : b.world.Alongside b'.world
  tasks : b.tasks = tagged.map (·.1)
  kept : b'.tasks = (tagged.filter (!·.2)).map (·.1)
  switching : ∀ t, (t, true) ∈ tagged → t.Switches
  others : ∀ t, (t, false) ∈ tagged → t.Indifferent
  timed : b.world.Timed
  timed' : b'.world.Timed
  begun : b.world.engine.validation.state ≠ .init

namespace Shadows

variable {tagged tagged' : List (Task A × Bool)} {b b' : Boot A}

theorem any_attempting (h : Shadows tagged b b') : b'.tasks.any Task.attempting = b.tasks.any Task.attempting := by
  rw [Bool.eq_iff_iff, List.any_eq_true, List.any_eq_true, h.kept, h.tasks]
  constructor
  · rintro ⟨t, ht, hat⟩
    obtain ⟨x, hx, rfl⟩ := List.mem_map.mp ht
    exact ⟨_, List.mem_map_of_mem (List.mem_filter.mp hx).1, hat⟩
  · rintro ⟨t, ht, hat⟩
    obtain ⟨⟨t, mark⟩, hx, rfl⟩ := List.mem_map.mp ht
    -- a call that enables or disables the engine is no attempt
    cases mark with
    | true =>
      have hswitches := h.switching t hx
      cases t with
      | call => cases hat
      | attempt => exact hswitches.elim
    | false => exact ⟨t, List.mem_map_of_mem (List.mem_filter.mpr ⟨hx, rfl⟩), hat⟩

theorem start (htimed : b.world.Timed) (hb : b.world.engine.validation.state ≠ .init)
    (ht : ∀ t ∈ b.tasks, t.Indifferent) : Shadows (b.tasks.map fun t => (t, false)) b b := by
  refine ⟨.refl b.world, ?_, ?_, fun t hmem => ?_, fun t hmem => ?_, htimed, htimed, hb⟩
  · simp [Function.comp_def]
  · rw [List.filter_eq_self.mpr (by simp)]
    simp [Function.comp_def]
  · obtain ⟨t', -, he⟩ := List.mem_map.mp hmem
    cases he
  · obtain ⟨t', ht', he⟩ := List.mem_map.mp hmem
    cases he
    exact ht t ht'

/-- The invariants that every turn keeps need no proof for the single moves. -/
theorem next (h : Shadows tagged b b') {m : Move A} {ns : List (Move A)}
    (hworld : (b.step m).world.Alongside (b'.run ns).world) (htasks : (b.step m).tasks = tagged'.map (·.1))
    (hkept : (b'.run ns).tasks = (tagged'.filter (!·.2)).map (·.1)) (hswitching : ∀ t, (t, true) ∈ tagged' → t.Switches)
    (hothers : ∀ t, (t, false) ∈ tagged' → t.Indifferent) : Shadows tagged' (b.step m) (b'.run ns) where
  world := hworld
  tasks := htasks
  kept := hkept
  switching := hswitching
  others := hothers
  timed := ((b.turn_step m).net h.timed).1
  timed' := Boot.timed_of_run h.timed' ns
  begun := (((b.turn_step m).net h.timed).2 h.begun).1

theorem idle (h : Shadows tagged b b') {m : Move A} {ns : List (Move A)} (hb : b.step m = b) (hb' : b'.run ns = b') :
    Shadows tagged (b.step m) (b'.run ns) := by
  rw [hb, hb']
  exact h

theorem same (h : Shadows tagged b b') {m : Move A} {ns : List (Move A)}
    (hworld : (b.step m).world.Alongside (b'.run ns).world) (htasks : (b.step m).tasks = b.tasks)
    (hkept : (b'.run ns).tasks = b'.tasks) : Shadows tagged (b.step m) (b'.run ns) :=
  h.next hworld (htasks.trans h.tasks) (hkept.trans h.kept) h.switching h.others

theorem append (h : Shadows tagged b b') {m : Move A} {ns : List (Move A)} {t : Task A} {mark : Bool}
    (hworld : (b.step m).world.Alongside (b'.run ns).world) (htasks : (b.step m).tasks = b.tasks ++ [t])
    (hkept : (b'.run ns).tasks = b'.tasks ++ if mark then [] else [t])
    (ht : if mark then t.Switches else t.Indifferent) : Shadows (tagged ++ [(t, mark)]) (b.step m) (b'.run ns) := by
  refine h.next hworld (by rw [htasks, h.tasks]; simp) ?_ (fun t' ht' => ?_) fun t' ht' => ?_
  · rw [hkept, h.kept]
    cases mark <;> simp
  · rcases List.mem_append.mp ht' with ht' | ht'
    · exact h.switching t' ht'
    · cases List.mem_singleton.mp ht'
      exact ht
  · rcases List.mem_append.mp ht' with ht' | ht'
    · exact h.others t' ht'
    · cases List.mem_singleton.mp ht'
      exact ht

theorem call (h : Shadows tagged b b') {c : Call A} (hf : c.fetches = false) (marks : List Bool) :
    Shadows (tagged ++ [(.call c.activity, c.switches)]) (b.step (.call c)) (b'.run ((Move.call c).spared marks)) := by
  cases hs : c.switches with
  | false =>
    have hspared : (Move.call c).spared marks = [.call c] := by simp [Move.spared, hs]
    rw [hspared]
    exact h.append h.world rfl rfl (Call.indifferent_of_not_switches hs hf)
  | true =>
    have hspared : (Move.call c).spared marks = [] := by simp [Move.spared, hs]
    rw [hspared]
    exact h.append h.world rfl (List.append_nil _).symm (Call.switching_of_switches hs)

/-- An attempt begins in both boots or in neither. -/
theorem beginAttempt (h : Shadows tagged b b') :
    (b.beginAttempt = b ∧ b'.beginAttempt = b') ∨ ∃ t : Task A, t.Indifferent ∧
      b.beginAttempt = { b with tasks := b.tasks ++ [t] } ∧ b'.beginAttempt = { b' with tasks := b'.tasks ++ [t] } := by
  unfold Boot.beginAttempt
  rw [h.any_attempting, h.world.validation]
  cases b.world.engine.validation.confirmation with
  | none => exact .inl ⟨rfl, rfl⟩
  | some c =>
    dsimp only
    split
    · exact .inr ⟨.attempt (confirmAttempt (c.attempts + 1) c.interval), indifferent_confirmAttempt _ _, rfl, rfl⟩
    · exact .inl ⟨rfl, rfl⟩

theorem wake (h : Shadows tagged b b') : Shadows tagged (b.step .wake) (b'.run [.wake]) := by
  have hwake : b.wake.tasks = b.tasks ∧ b'.wake.tasks = b'.tasks ∧ b.wake.world.Alongside b'.wake.world := by
    unfold Boot.wake
    rw [h.any_attempting, h.world.validation]
    dsimp only
    cases b.world.engine.validation.confirmation with
    | none => exact ⟨rfl, rfl, h.world⟩
    | some c =>
      dsimp only
      split
      · refine ⟨rfl, rfl, ?_⟩
        unfold World.withConfirmation
        rw [h.world.validation]
        exact h.world.withValidation _
      · exact ⟨rfl, rfl, h.world⟩
  exact h.same hwake.2.2 hwake.1 hwake.2.1

theorem fire (h : Shadows tagged b b') (id : TimerId) : Shadows tagged (b.step (.fire id)) (b'.run [.fire id]) := by
  have hfire : (b.fire id).tasks = b.tasks ∧ (b'.fire id).tasks = b'.tasks ∧
      (b.fire id).world.Alongside (b'.fire id).world := by
    unfold Boot.fire
    rw [h.world.fuse]
    split
    · rename_i hf
      exact ⟨rfl, rfl, h.world.fireOnce h.timed h.timed' hf⟩
    · exact ⟨rfl, rfl, h.world⟩
  exact h.same hfire.2.2 hfire.1 hfire.2.1

theorem disturb (h : Shadows tagged b b') (s : Surroundings) :
    Shadows tagged (b.step (.disturb s)) (b'.run [.disturb s]) :=
  h.same (h.world.surround s) rfl rfl

/-- A task is replaced by what is left of it. -/
theorem replace (h : Shadows tagged b b') {m : Move A} {ns : List (Move A)} {task : Nat} {t t₁ : Task A} {mark : Bool}
    (hi : tagged[task]? = some (t, mark)) (hworld : (b.step m).world.Alongside (b'.run ns).world)
    (htasks : (b.step m).tasks = b.tasks.set task t₁)
    (hkept : (b'.run ns).tasks = if mark then b'.tasks else b'.tasks.set ((tagged.take task).countP (!·.2)) t₁)
    (ht : if mark then t₁.Switches else t₁.Indifferent) :
    Shadows (tagged.set task (t₁, mark)) (b.step m) (b'.run ns) := by
  refine h.next hworld ?_ ?_ (fun t' ht' => ?_) fun t' ht' => ?_
  · rw [htasks, h.tasks, List.map_set]
  · rw [hkept, h.kept]
    cases mark with
    | true => rw [filter_set_of_neg hi rfl rfl, if_pos rfl]
    | false => rw [(filter_set_of_pos (p := (!·.2)) hi rfl rfl).2, List.map_set, if_neg Bool.false_ne_true]
  · rcases List.mem_or_eq_of_mem_set ht' with ht' | ht'
    · exact h.switching t' ht'
    · cases ht'
      exact ht
  · rcases List.mem_or_eq_of_mem_set ht' with ht' | ht'
    · exact h.others t' ht'
    · cases ht'
      exact ht

theorem map_set (t₁ : Task A) {task : Nat} {t : Task A} {mark : Bool} (hi : tagged[task]? = some (t, mark)) :
    (tagged.set task (t₁, mark)).map (·.2) = tagged.map (·.2) := by
  have hmark : (tagged.map (·.2))[task]? = some mark := by rw [List.getElem?_map, hi, Option.map_some]
  obtain ⟨hlt, hget⟩ := List.getElem?_eq_some_iff.mp hmark
  rw [List.map_set, ← hget, List.set_getElem_self hlt]

theorem spared_go (tagged : List (Task A × Bool)) (task : Nat) (s : Saying) :
    (Move.go task s : Move A).spared (tagged.map (·.2)) =
      if tagged[task]?.map (·.2) = some true then [] else [.go ((tagged.take task).countP (!·.2)) s] := by
  have hcount : ((tagged.map (·.2)).take task).count false = (tagged.take task).countP (!·.2) := by
    rw [← List.map_take, List.count, List.countP_map]
    congr 1
    funext x
    cases hx : x.2 <;> simp [hx]
  dsimp only [Move.spared]
  rw [hcount, List.getElem?_map]

/-- What a marked task does is seen in the one boot only, and changes nothing there that the other has. -/
theorem go_marked (h : Shadows tagged b b') {task : Nat} {t : Task A} (hi : tagged[task]? = some (t, true))
    (s : Saying) : ∃ tagged', tagged'.map (·.2) = tagged.map (·.2) ∧
      Shadows tagged' (b.step (.go task s)) (b'.run []) := by
  have htask : b.tasks[task]? = some t := by rw [h.tasks, List.getElem?_map, hi, Option.map_some]
  rcases (h.switching t (List.mem_of_getElem? hi)).advance h.timed h.begun s with hover | ⟨d, t₁, w₁, hgoes, ht₁, hw₁⟩
  · exact ⟨tagged, rfl, h.idle (Boot.advance_of_none (by rw [htask]; exact hover)) rfl⟩
  · have hsome := Boot.advance_of_some (b := b) (s := s) (by rw [htask]; exact hgoes)
    refine ⟨_, map_set t₁ hi, h.replace hi ?_ (congrArg (·.tasks) hsome) rfl ht₁⟩
    change (b.advance task s).world.Alongside b'.world
    rw [hsome]
    exact hw₁.symm.trans h.world

/-- Any other task goes on in both boots. In the other one it stands after fewer tasks. -/
theorem go_unmarked (h : Shadows tagged b b') {task : Nat} {t : Task A} (hi : tagged[task]? = some (t, false))
    (s : Saying) : ∃ tagged', tagged'.map (·.2) = tagged.map (·.2) ∧
      Shadows tagged' (b.step (.go task s)) (b'.run [.go ((tagged.take task).countP (!·.2)) s]) := by
  have htask : b.tasks[task]? = some t := by rw [h.tasks, List.getElem?_map, hi, Option.map_some]
  have htask' : b'.tasks[(tagged.take task).countP (!·.2)]? = some t := by
    rw [h.kept, List.getElem?_map, (filter_set_of_pos (p := (!·.2)) hi rfl (y := (t, false)) rfl).1, Option.map_some]
  rcases (h.others t (List.mem_of_getElem? hi)).advance h.world h.timed h.timed' h.begun s with
    ⟨hover, hover'⟩ | ⟨d, d', t₁, w₁, w₁', hgoes, hgoes', ht₁, hw₁⟩
  · exact ⟨tagged, rfl, h.idle (Boot.advance_of_none (by rw [htask]; exact hover))
      (Boot.advance_of_none (by rw [htask']; exact hover'))⟩
  · have hsome := Boot.advance_of_some (b := b) (s := s) (by rw [htask]; exact hgoes)
    have hsome' := Boot.advance_of_some (b := b') (s := s) (by rw [htask']; exact hgoes')
    refine ⟨_, map_set t₁ hi, h.replace hi ?_ (congrArg (·.tasks) hsome) (congrArg (·.tasks) hsome') ht₁⟩
    change (b.advance task s).world.Alongside (b'.advance _ s).world
    rw [hsome, hsome']
    exact hw₁

theorem go (h : Shadows tagged b b') (task : Nat) (s : Saying) :
    ∃ tagged', tagged'.map (·.2) = tagged.map (·.2) ∧
      Shadows tagged' (b.step (.go task s)) (b'.run ((Move.go task s).spared (tagged.map (·.2)))) := by
  rw [spared_go]
  cases hi : tagged[task]? with
  | none =>
    -- there is no such task, in either boot
    have hlength := List.getElem?_eq_none_iff.mp hi
    have hnone : b.advance task s = b :=
      Boot.advance_of_none (by rw [h.tasks, List.getElem?_map, hi]; rfl)
    have hnone' : b'.advance ((tagged.take task).countP (!·.2)) s = b' := by
      apply Boot.advance_of_none
      rw [List.take_of_length_le hlength, List.countP_eq_length_filter, h.kept, List.getElem?_map,
        List.getElem?_eq_none (Nat.le_refl _)]
      rfl
    exact ⟨tagged, rfl, h.idle hnone hnone'⟩
  | some x =>
    obtain ⟨t, mark⟩ := x
    cases mark with
    | true => exact h.go_marked hi s
    | false => exact h.go_unmarked hi s

/-- A move keeps the boots side by side, whether something is left of it or not. -/
theorem step (h : Shadows tagged b b') {m : Move A} (hf : m.fetches = false) :
    ∃ tagged', tagged'.map (·.2) = b.marksAfter (tagged.map (·.2)) m ∧
      Shadows tagged' (b.step m) (b'.run (m.spared (tagged.map (·.2)))) := by
  have hsame (hlength : (b.step m).tasks.length = b.tasks.length) :
      b.marksAfter (tagged.map (·.2)) m = tagged.map (·.2) := by simp [Boot.marksAfter, hlength]
  cases m with
  | call c => exact ⟨_, by simp [Boot.marksAfter, Boot.step, Move.switches], h.call hf _⟩
  | attempt =>
    rcases h.beginAttempt with ⟨hb, hb'⟩ | ⟨t, ht, hb, hb'⟩
    · exact ⟨tagged, (hsame (congrArg (·.tasks.length) hb)).symm, h.idle hb hb'⟩
    · have htasks : (b.step .attempt).tasks = b.tasks ++ [t] := congrArg (·.tasks) hb
      refine ⟨tagged ++ [(t, false)], ?_, h.append ?_ htasks (congrArg (·.tasks) hb') ht⟩
      · simp [Boot.marksAfter, htasks, Move.switches]
      · change b.beginAttempt.world.Alongside b'.beginAttempt.world
        rw [hb, hb']
        exact h.world
  | wake =>
    have hwake := h.wake
    exact ⟨tagged, (hsame (by rw [hwake.tasks, h.tasks])).symm, hwake⟩
  | go task s =>
    obtain ⟨tagged', hmarks, hgo⟩ := h.go task s
    have hlength := congrArg List.length hmarks
    rw [List.length_map, List.length_map] at hlength
    exact ⟨tagged', hmarks.trans (hsame (by rw [hgo.tasks, h.tasks, List.length_map, List.length_map, hlength])).symm,
      hgo⟩
  | fire id =>
    have hfire := h.fire id
    exact ⟨tagged, (hsame (by rw [hfire.tasks, h.tasks])).symm, hfire⟩
  | disturb s => exact ⟨tagged, (hsame rfl).symm, h.disturb s⟩

theorem run (h : Shadows tagged b b') {ms : List (Move A)} (hf : ∀ m ∈ ms, m.fetches = false) :
    ∃ tagged', Shadows tagged' (b.run ms) (b'.run (b.spared (tagged.map (·.2)) ms)) := by
  induction ms generalizing b b' tagged with
  | nil => exact ⟨tagged, h⟩
  | cons m ms ih =>
    rw [List.forall_mem_cons] at hf
    obtain ⟨tagged₁, hmarks, h₁⟩ := h.step hf.1
    obtain ⟨tagged₂, h₂⟩ := ih h₁ hf.2
    rw [hmarks, ← Boot.run_append] at h₂
    exact ⟨tagged₂, h₂⟩

end Shadows

namespace Boot

theorem spared_append (b : Boot A) (marks : List Bool) (ms ns : List (Move A)) :
    b.spared marks ms <+: b.spared marks (ms ++ ns) := by
  induction ms generalizing b marks with
  | nil => exact List.nil_prefix
  | cons m ms ih => exact List.prefix_append_right_inj _ |>.mpr (ih _ _)

theorem length_spared_le_one (marks : List Bool) (m : Move A) : (m.spared marks).length ≤ 1 := by
  unfold Move.spared
  split
  · split <;> simp
  · split <;> simp
  · simp

/-- Every step of what is left comes about. -/
theorem take_spared (b : Boot A) (marks : List Bool) (ms : List (Move A)) (k : Nat) :
    ∃ n, (b.spared marks ms).take k = b.spared marks (ms.take n) := by
  induction ms generalizing b marks k with
  | nil => exact ⟨0, by simp [spared]⟩
  | cons m ms ih =>
    have hone := length_spared_le_one marks m
    cases k with
    | zero => exact ⟨0, by simp [spared]⟩
    | succ k =>
      obtain ⟨n, hn⟩ := ih (b.step m) (b.marksAfter marks m) (k + 1 - (m.spared marks).length)
      refine ⟨n + 1, ?_⟩
      rw [spared, List.take_append, List.take_of_length_le (by omega), hn]
      rfl

theorem spared_unswitched (b : Boot A) (marks : List Bool) (ms : List (Move A)) :
    ∀ m ∈ b.spared marks ms, m.switches = false := by
  induction ms generalizing b marks with
  | nil => exact fun _ h => nomatch h
  | cons m ms ih =>
    rw [spared, List.forall_mem_append]
    refine ⟨?_, ih _ _⟩
    unfold Move.spared
    split
    · split
      · exact fun _ h => nomatch h
      · rename_i hs
        exact List.forall_mem_singleton.mpr (Bool.eq_false_iff.mpr hs)
    · split
      · exact fun _ h => nomatch h
      · exact List.forall_mem_singleton.mpr rfl
    · rename_i hcall _
      refine List.forall_mem_singleton.mpr ?_
      cases m with
      | call c => exact absurd rfl (hcall c)
      | _ => rfl

/-- Once the validation has begun, a run in which the engine is enabled and disabled at any time goes like the one
that is left without that: at every step of it the worlds differ in nothing but what is in force. -/
theorem switching_unnoticed {d : Device} {version : String} {before ms : List (Move A)}
    (hb : ((start A d version).run before).world.engine.validation.state ≠ .init)
    (ht : ∀ t ∈ ((start A d version).run before).tasks, t.Indifferent) (hf : ∀ m ∈ ms, m.fetches = false) :
    (∀ m ∈ ((start A d version).run before).unswitched ms, m.switches = false) ∧
    (∀ n, ((start A d version).run before).unswitched (ms.take n) <+: ((start A d version).run before).unswitched ms ∧
      (((start A d version).run before).run (ms.take n)).world.Alongside
        (((start A d version).run before).run (((start A d version).run before).unswitched (ms.take n))).world) ∧
    ∀ k, ∃ n, (((start A d version).run before).unswitched ms).take k =
      ((start A d version).run before).unswitched (ms.take n) := by
  have htimed := timed_run d version before
  generalize (start A d version).run before = b at hb ht htimed
  refine ⟨b.spared_unswitched _ ms, fun n => ⟨?_, ?_⟩, b.take_spared _ ms⟩
  · have hprefix := b.spared_append (List.replicate b.tasks.length false) (ms.take n) (ms.drop n)
    rwa [List.take_append_drop] at hprefix
  · have hleft : ∀ m ∈ ms.take n, m.fetches = false := fun m hm => hf m (List.mem_of_mem_take hm)
    obtain ⟨tagged, hrun⟩ := (Shadows.start htimed hb ht).run hleft
    have hmarks : (b.tasks.map fun t => (t, false)).map (·.2) = List.replicate b.tasks.length false := by
      rw [List.map_map]
      exact List.map_const' ..
    rw [hmarks] at hrun
    exact hrun.world

/-- The engine is disabled while an attempt to confirm is under way, and the image is marked invalid while the
engine is being enabled again. -/
def switchingMeanwhile : List (Move Agent.application) :=
  [.call .disable, .attempt, .go 2 obliging, .go 1 obliging, .go 2 obliging,
    .call (.enable Config.default none none), .go 3 obliging, .call .markInvalid, .go 2 obliging, .go 4 obliging,
    .go 3 obliging, .go 2 obliging, .go 2 obliging]

def enabledTrial : Boot Agent.application := (start Agent.application trialDevice "1.0.0").run enabling

theorem switching_unnoticed_meanwhile :
    enabledTrial.world.engine.validation.state ≠ .init ∧ (∀ t ∈ enabledTrial.tasks, t.Indifferent) ∧
    (∀ m ∈ switchingMeanwhile, m.fetches = false) ∧
    (enabledTrial.run switchingMeanwhile).world.device.network.posts.length = 1 ∧
    (enabledTrial.unswitched switchingMeanwhile).length = 8 ∧
    (∀ m ∈ enabledTrial.unswitched switchingMeanwhile, m.switches = false) ∧
    (∀ n, enabledTrial.unswitched (switchingMeanwhile.take n) <+: enabledTrial.unswitched switchingMeanwhile ∧
      (enabledTrial.run (switchingMeanwhile.take n)).world.Alongside
        (enabledTrial.run (enabledTrial.unswitched (switchingMeanwhile.take n))).world) ∧
    ∀ k, ∃ n, (enabledTrial.unswitched switchingMeanwhile).take k =
      enabledTrial.unswitched (switchingMeanwhile.take n) := by
  have hb : enabledTrial.world.engine.validation.state ≠ .init := by decide +kernel
  have hended : ∀ t ∈ enabledTrial.tasks, t.ended = true := by decide +kernel
  have ht : ∀ t ∈ enabledTrial.tasks, t.Indifferent := fun t hmem => Task.indifferent_of_ended (hended t hmem)
  have hf : ∀ m ∈ switchingMeanwhile, m.fetches = false := by decide
  exact ⟨hb, ht, hf, by decide +kernel, by decide +kernel, switching_unnoticed hb ht hf⟩

end Boot

end FirmwareUpdate
