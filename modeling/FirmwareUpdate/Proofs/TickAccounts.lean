import FirmwareUpdate.Rehearsal.Polling

/-!
# Accounts of ticks

A tick that the worker has accepted waits in the buffer, is being fetched for, or has been fetched for,
and each is fetched for once. The accounts balance in whatever order the timer's periods end, ticks arrive,
fetches begin and end, and the polling is stopped or dropped. The timer looks at its cancellation when a
period ends, and hands the tick over afterwards; so stopping the polling lets no further tick come, but one
that is due by then arrives all the same.
-/

namespace FirmwareUpdate

namespace Worker

structure Account (w : Worker) (accepted started finished : Nat) : Prop where
  accepted : accepted = started + w.buffered.toNat
  started : started = finished + w.busy.toNat

variable {w : Worker} {a s f : Nat}

theorem account_idle (n : Nat) : idle.Account n n n := ⟨rfl, rfl⟩

theorem Account.offer (h : w.Account a s f) : w.offer.2.Account (a + w.offer.1.toNat) s f := by
  obtain ⟨ha, hs⟩ := h
  unfold Worker.offer
  cases hb : w.buffered with
  | true => exact ⟨by rw [ha]; rfl, hs⟩
  | false => exact ⟨by rw [ha, hb]; rfl, hs⟩

theorem Account.take (h : w.Account a s f) : w.take.2.Account a (s + w.take.1.toNat) f := by
  obtain ⟨ha, hs⟩ := h
  unfold Worker.take
  cases hb : w.buffered <;> cases hy : w.busy <;> constructor <;> simp_all

theorem Account.finish (h : w.Account a s f) : w.finish.Account a s (f + w.busy.toNat) := ⟨h.accepted, h.started⟩

theorem Account.finished_of_idle (h : idle.Account a s f) : f = a := (h.accepted.trans h.started).symm

end Worker

namespace Rehearsal.Polling

/-! ## Runs -/

inductive Move where
  | elapse
  | arrive
  | take
  | finish
  | stop
  | drop
  deriving DecidableEq, Repr

def step (p : Polling) : Move → Polling
  | .elapse => p.elapse.2
  | .arrive => p.arrive.2
  | .take => p.takeTick.2
  | .finish => p.finish
  | .stop => p.stop
  | .drop => p.drop.2

def run (p : Polling) (ms : List Move) : Polling := ms.foldl step p

def accepts (p : Polling) : Move → Bool
  | .arrive => p.arrive.1 == .accepted
  | _ => false

def starts (p : Polling) : Move → Bool
  | .take => p.takeTick.1
  | _ => false

def finishes (p : Polling) : Move → Bool
  | .finish => p.worker.busy
  | _ => false

def count (kind : Polling → Move → Bool) (p : Polling) : List Move → Nat
  | [] => 0
  | m :: ms => (kind p m).toNat + count kind (p.step m) ms

def accepted : Polling → List Move → Nat := count accepts

def started : Polling → List Move → Nat := count starts

def finished : Polling → List Move → Nat := count finishes

theorem count_append (kind : Polling → Move → Bool) (p : Polling) (ms ns : List Move) :
    count kind p (ms ++ ns) = count kind p ms + count kind (p.run ms) ns := by
  induction ms generalizing p with
  | nil => exact (Nat.zero_add _).symm
  | cons m ms ih => rw [List.cons_append, count, ih, count, Nat.add_assoc]; rfl

/-! ## What a move does -/

variable (p : Polling)

/-- A tick that is due arrives, and is dropped if another one waits in the buffer. -/
theorem arrive_cases : (p.due = false ∧ p.arrive = (.unarmed, p)) ∨
    (p.due = true ∧ p.worker.buffered = true ∧
      p.arrive = (.dropped, { p with due := false }.note .autofetchSkipped)) ∨
    (p.due = true ∧ p.worker.buffered = false ∧
      p.arrive = (.accepted, { p with due := false, worker := { p.worker with buffered := true } })) := by
  unfold arrive Worker.offer
  cases p.due <;> cases hb : p.worker.buffered <;> simp [hb]

theorem arrive_due : p.arrive.2.due = false := by
  rcases p.arrive_cases with ⟨hd, he⟩ | ⟨-, -, he⟩ | ⟨-, -, he⟩
  · rw [he]
    exact hd
  · rw [he]
    rfl
  · rw [he]

theorem elapse_cases : (p.state = .running ∧ p.due = false ∧ p.elapse = (true, { p with due := true })) ∨
    ((p.state = .running → p.due = true) ∧ p.elapse = (false, p)) := by
  unfold elapse
  split
  · rename_i h
    exact .inl ⟨h.1, h.2, rfl⟩
  · rename_i h
    exact .inr ⟨fun hs => by simpa [hs] using h, rfl⟩

theorem takeTick_state : p.takeTick.2.state = p.state ∧ p.takeTick.2.due = p.due := by
  unfold takeTick note
  split <;> exact ⟨rfl, rfl⟩

theorem stop_due : p.stop.due = p.due ∧ p.stop.worker = p.worker := by
  unfold stop note
  split <;> exact ⟨rfl, rfl⟩

theorem state_step (m : Move) : (p.step m).state = .running ↔ p.state = .running ∧ m ≠ .stop ∧ m ≠ .drop := by
  cases m with
  | elapse => rcases p.elapse_cases with ⟨-, -, h⟩ | ⟨-, h⟩ <;> simp [step, h]
  | arrive => rcases p.arrive_cases with ⟨-, h⟩ | ⟨-, -, h⟩ | ⟨-, -, h⟩ <;> simp [step, h, note]
  | take => simp [step, p.takeTick_state.1]
  | finish => simp [step, finish]
  | stop =>
    simp only [step, stop, note]
    split <;> simp_all
  | drop => simp [step, drop]

variable {p : Polling} {a s f : Nat}

theorem account_arrive (h : p.worker.Account a s f) :
    p.arrive.2.worker.Account (a + (p.arrive.1 == .accepted).toNat) s f := by
  rcases p.arrive_cases with ⟨-, he⟩ | ⟨-, -, he⟩ | ⟨-, hb, he⟩
  · rw [he]
    exact h
  · rw [he]
    exact h
  · have hoffer := h.offer
    rw [Worker.offer, if_neg (by simp [hb])] at hoffer
    rw [he]
    exact hoffer

theorem account_takeTick (h : p.worker.Account a s f) :
    p.takeTick.2.worker.Account a (s + p.takeTick.1.toNat) f := by
  have htake := h.take
  unfold takeTick
  split <;> rename_i ht
  · exact h
  · rw [ht] at htake
    exact htake

theorem account_step (h : p.worker.Account a s f) (m : Move) : (p.step m).worker.Account
    (a + (p.accepts m).toNat) (s + (p.starts m).toNat) (f + (p.finishes m).toNat) := by
  cases m with
  | elapse =>
    have hworker : p.elapse.2.worker = p.worker := by
      rcases p.elapse_cases with ⟨-, -, he⟩ | ⟨-, he⟩ <;> rw [he]
    exact hworker ▸ h
  | arrive => exact account_arrive h
  | take => exact account_takeTick h
  | finish => exact h.finish
  | stop => exact p.stop_due.2 ▸ h
  | drop => exact p.stop_due.2 ▸ h

theorem fetches_step (p : Polling) (m : Move) : (p.step m).fetches = p.fetches + (p.starts m).toNat := by
  cases m with
  | elapse => rcases p.elapse_cases with ⟨-, -, h⟩ | ⟨-, h⟩ <;> simp [step, starts, h]
  | arrive => rcases p.arrive_cases with ⟨-, h⟩ | ⟨-, -, h⟩ | ⟨-, -, h⟩ <;> simp [step, starts, h, note]
  | take =>
    simp only [step, starts, takeTick, note]
    split <;> rfl
  | finish => rfl
  | stop | drop =>
    simp only [step, stop, drop, note]
    split <;> rfl

/-! ## What a run does -/

theorem account_run (h : p.worker.Account a s f) (ms : List Move) : (p.run ms).worker.Account
    (a + p.accepted ms) (s + p.started ms) (f + p.finished ms) := by
  induction ms generalizing p a s f with
  | nil => exact h
  | cons m ms ih =>
    have hrest := ih (account_step h m)
    simp only [Nat.add_assoc] at hrest
    exact hrest

theorem fetches_run (p : Polling) (ms : List Move) : (p.run ms).fetches = p.fetches + p.started ms := by
  induction ms generalizing p with
  | nil => rfl
  | cons m ms ih =>
    have hrest := ih (p.step m)
    rw [fetches_step, Nat.add_assoc] at hrest
    exact hrest

theorem state_run (p : Polling) (ms : List Move) :
    (p.run ms).state = .running ↔ p.state = .running ∧ .stop ∉ ms ∧ .drop ∉ ms := by
  induction ms generalizing p with
  | nil => simp [run]
  | cons m ms ih =>
    rw [run, List.foldl_cons, ← run, ih, state_step]
    simp only [List.mem_cons, not_or, ne_comm (a := m), ne_eq]
    rw [and_assoc, and_and_and_comm]

/-- Once the timer is cancelled no period of it ends, and nothing arrives but the tick that is due. -/
theorem accepted_of_not_running (h : p.state ≠ .running) (ms : List Move) : p.accepted ms ≤ p.due.toNat := by
  induction ms generalizing p with
  | nil => exact Nat.zero_le _
  | cons m ms ih =>
    have hnext : (p.step m).state ≠ .running := fun hs => h ((p.state_step m).mp hs).1
    have hrest := ih hnext
    show (p.accepts m).toNat + (p.step m).accepted ms ≤ _
    cases m with
    | arrive =>
      have hnone : (p.step .arrive).accepted ms = 0 :=
        Nat.eq_zero_of_le_zero (Nat.le_trans hrest (by simp [step, p.arrive_due]))
      rw [hnone, accepts]
      rcases p.arrive_cases with ⟨-, he⟩ | ⟨-, -, he⟩ | ⟨hd, -, he⟩
      · rw [he]
        exact Nat.zero_le _
      · rw [he]
        exact Nat.zero_le _
      · rw [he, hd]
        exact Nat.le_refl 1
    | elapse =>
      rcases p.elapse_cases with ⟨hs, -⟩ | ⟨-, he⟩
      · exact absurd hs h
      · simpa [step, accepts, he] using hrest
    | take => simpa [step, accepts, p.takeTick_state.2] using hrest
    | finish => simpa [step, accepts, finish] using hrest
    | stop => simpa [step, accepts, p.stop_due.1] using hrest
    | drop => simpa [step, accepts, drop, p.stop_due.1] using hrest

def Closed (ms : List Move) : Prop := .stop ∈ ms ∨ .drop ∈ ms

instance (ms : List Move) : Decidable (Closed ms) := inferInstanceAs (Decidable (_ ∨ _))

def Prompt : List Move → Prop
  | [] => True
  | .elapse :: .arrive :: ms => Prompt ms
  | .elapse :: _ => False
  | _ :: ms => Prompt ms

theorem due_of_prompt {ms : List Move} (hm : Prompt ms) (h : p.due = false) : (p.run ms).due = false := by
  fun_induction Prompt ms generalizing p with
  | case1 => exact h
  | case2 ms ih =>
    exact ih (p := (p.step .elapse).step .arrive) hm (p.step .elapse).arrive_due
  | case3 => exact hm.elim
  | case4 m ms _ hne ih =>
    refine ih (p := p.step m) hm ?_
    cases m with
    | elapse => exact absurd rfl hne
    | arrive => exact p.arrive_due
    | take => exact p.takeTick_state.2.trans h
    | finish => exact h
    | stop => exact p.stop_due.1.trans h
    | drop => exact p.stop_due.1.trans h

/-- Where the ticks of a run have gone, and what would become of another one. When the polling has been stopped
or dropped no period ends any more, and one tick at the most is still accepted: that whose period had ended
before. -/
structure Balanced (p : Polling) (ms : List Move) : Prop where
  conserved : p.started ms + (p.run ms).worker.buffered.toNat = p.accepted ms
  counted : (p.run ms).fetches = p.started ms
  single : p.started ms = p.finished ms + (p.run ms).worker.busy.toNat
  awaited : (p.run ms).elapse.1 = true ↔ ¬ Closed ms ∧ (p.run ms).due = false
  fate : (p.run ms).arrive.1 = if (p.run ms).due = false then .unarmed
    else if (p.run ms).worker.buffered then .dropped else .accepted
  late : Closed ms → ∀ later, p.accepted (ms ++ later) ≤ p.accepted ms + (p.run ms).due.toNat
  settled : (p.run ms).worker = .idle → p.finished ms = p.accepted ms

/-- A tick is taken up, the next one waits, the third is dropped; the one that waits outlives the drop. -/
def dropping : List Move :=
  [.elapse, .arrive, .take, .elapse, .arrive, .elapse, .arrive, .drop, .finish, .take, .finish]

/-- The period ends, the polling is stopped, and the tick arrives after that. -/
example : ∃ p, start? .none 3600000 = .ok p ∧ p.accepted [.elapse, .stop] = 0 ∧
    p.accepted [.elapse, .stop, .arrive] = 1 := ⟨_, rfl, by decide, by decide⟩

end Rehearsal.Polling

end FirmwareUpdate
