import FirmwareUpdate.Routine

/-!
# What a routine does

`Does` says which requests a run of a routine makes, what each of them found and was answered, and
how the run ends. It has a rule for each way of putting routines together, so what an activity does
is read off its parts. `Only` says what a routine may request at all, whatever the answers are.
-/

namespace FirmwareUpdate.Routine

variable {E : Type} {R : E → Type} {σ α β : Type}

structure Deed (R : E → Type) (σ : Type) where
  found : σ
  request : E
  reply : R request

def trace (answer : (e : E) → σ → R e × σ) : Routine R α → σ → List (Deed R σ)
  | .done _, _ => []
  | .died, _ => []
  | .step e next, s => ⟨s, e, (answer e s).1⟩ :: (next (answer e s).1).trace answer (answer e s).2

/-- Run from `s` the routine makes the requests `t` and ends in `s'`, with the result `o` or dead. -/
structure Does (answer : (e : E) → σ → R e × σ) (p : Routine R α) (s : σ) (t : List (Deed R σ))
    (o : Option α) (s' : σ) : Prop where
  trace_eq : p.trace answer s = t
  run_eq : p.run answer s = (o, s')

section
variable {answer : (e : E) → σ → R e × σ}

theorem does (p : Routine R α) (s : σ) :
    Does answer p s (p.trace answer s) (p.run answer s).1 (p.run answer s).2 := ⟨rfl, rfl⟩

namespace Does

theorem done (a : α) (s : σ) : Does answer (.done a) s [] (some a) s := ⟨rfl, rfl⟩

theorem died (s : σ) : Does answer (.died : Routine R α) s [] none s := ⟨rfl, rfl⟩

theorem step {e : E} {next : R e → Routine R α} {s s' : σ} {t : List (Deed R σ)} {o : Option α}
    (h : Does answer (next (answer e s).1) (answer e s).2 t o s') :
    Does answer (.step e next) s (⟨s, e, (answer e s).1⟩ :: t) o s' := by
  refine ⟨?_, ?_⟩
  · rw [trace, h.trace_eq]
  · rw [run, h.run_eq]

theorem request (e : E) (s : σ) :
    Does answer (Routine.request e) s [⟨s, e, (answer e s).1⟩] (some (answer e s).1) (answer e s).2 :=
  step (done _ _)

theorem replied {e : E} {r : R e} {s s' : σ} (h : answer e s = (r, s')) :
    Does answer (Routine.request e) s [⟨s, e, r⟩] (some r) s' := by
  have hdoes : Does answer (Routine.request e) s _ _ _ := request e s
  rwa [h] at hdoes

theorem bind {p : Routine R α} {f : α → Routine R β} {a : α} {s s₁ s₂ : σ} {t u : List (Deed R σ)}
    {o : Option β} (hp : Does answer p s t (some a) s₁) (hf : Does answer (f a) s₁ u o s₂) :
    Does answer (p >>= f) s (t ++ u) o s₂ := by
  induction p generalizing s t with
  | done a' =>
    obtain ⟨rfl, h⟩ := hp
    obtain ⟨rfl, rfl⟩ : a' = a ∧ s = s₁ := by simpa [run] using h
    exact hf
  | died => exact absurd (congrArg Prod.fst hp.run_eq) (by simp [run])
  | step e next ih =>
    obtain ⟨rfl, h⟩ := hp
    exact step (ih _ ⟨rfl, h⟩)

theorem bind_died {p : Routine R α} {f : α → Routine R β} {s s₁ : σ} {t : List (Deed R σ)}
    (hp : Does answer p s t none s₁) : Does answer (p >>= f) s t none s₁ := by
  induction p generalizing s t with
  | done a => exact absurd (congrArg Prod.fst hp.run_eq) (by simp [run])
  | died =>
    obtain ⟨rfl, h⟩ := hp
    obtain rfl : s = s₁ := by simpa [run] using h
    exact died s
  | step e next ih =>
    obtain ⟨rfl, h⟩ := hp
    exact step (ih _ ⟨rfl, h⟩)

theorem attempt {p : Routine R α} {s s₁ : σ} {t : List (Deed R σ)} {o : Option α}
    (hp : Does answer p s t o s₁) : Does answer p.attempt s t (some o) s₁ := by
  induction p generalizing s t with
  | done a =>
    obtain ⟨rfl, h⟩ := hp
    obtain ⟨rfl, rfl⟩ : some a = o ∧ s = s₁ := by simpa [run] using h
    exact done _ s
  | died =>
    obtain ⟨rfl, h⟩ := hp
    obtain ⟨rfl, rfl⟩ : none = o ∧ s = s₁ := by simpa [run] using h
    exact done _ s
  | step e next ih =>
    obtain ⟨rfl, h⟩ := hp
    exact step (ih _ ⟨rfl, h⟩)

/-- What comes after a routine in any case comes after its end and after its death. -/
theorem ensuring {p : Routine R α} {after : Routine R Unit} {s s₁ s₂ : σ} {t u : List (Deed R σ)}
    {o : Option α} (hp : Does answer p s t o s₁) (ha : Does answer after s₁ u (some ()) s₂) :
    Does answer (p.ensuring after) s (t ++ u) o s₂ := by
  refine bind hp.attempt ?_
  cases o with
  | none => simpa using bind (f := fun _ => (.died : Routine R α)) ha (died s₂)
  | some a => simpa using bind (f := fun _ => (.done a : Routine R α)) ha (done a s₂)

/-- What every request of a kind preserves, a run with only such requests preserves. -/
theorem preserves {I : σ → Prop} {P : E → Prop} {p : Routine R α} {s s' : σ} {t : List (Deed R σ)} {o : Option α}
    (h : Does answer p s t o s') (ht : ∀ d ∈ t, P d.request) (hs : ∀ e s, P e → I s → I (answer e s).2)
    (hi : I s) : I s' := by
  induction p generalizing s t with
  | done a =>
    cases h.run_eq
    exact hi
  | died =>
    cases h.run_eq
    exact hi
  | step e next ih =>
    obtain ⟨rfl, hrun⟩ := h
    rw [trace, List.forall_mem_cons] at ht
    exact ih _ ⟨rfl, hrun⟩ ht.2 (hs e s ht.1 hi)

end Does

theorem reply_of_mem_trace {p : Routine R α} {s : σ} {d : Deed R σ} (h : d ∈ p.trace answer s) :
    d.reply = (answer d.request d.found).1 := by
  induction p generalizing s with
  | done a => cases h
  | died => cases h
  | step e next ih =>
    rcases List.mem_cons.mp h with rfl | h
    · rfl
    · exact ih _ h

/-! ## States -/

theorem states_eq (answer : (e : E) → σ → R e × σ) (p : Routine R α) (s : σ) :
    p.states answer s = (p.trace answer s).map (·.found) ++ [(p.run answer s).2] := by
  induction p generalizing s with
  | done a => rfl
  | died => rfl
  | step e next ih => rw [states, trace, run, List.map_cons, List.cons_append, ih]

/-! ## Traces of parts -/

theorem trace_bind (p : Routine R α) (f : α → Routine R β) (s : σ) :
    (p >>= f).trace answer s = p.trace answer s ++
      match p.run answer s with
      | (some a, s') => (f a).trace answer s'
      | (none, _) => [] := by
  induction p generalizing s with
  | done a => rfl
  | died => rfl
  | step e next ih => exact congrArg (List.cons _) (ih _ _)

theorem trace_bind_done (p : Routine R α) (f : α → β) (s : σ) :
    (p >>= fun a => .done (f a)).trace answer s = p.trace answer s := by
  induction p generalizing s with
  | done a => rfl
  | died => rfl
  | step e next ih => exact congrArg (List.cons _) (ih _ _)

theorem run_bind_done (p : Routine R α) (f : α → β) (s : σ) :
    (p >>= fun a => .done (f a)).run answer s = ((p.run answer s).1.map f, (p.run answer s).2) := by
  induction p generalizing s with
  | done a => rfl
  | died => rfl
  | step e next ih => exact ih _ _

end

/-! ## What a routine may request -/

def Only (P : E → Prop) : Routine R α → Prop
  | .done _ => True
  | .died => True
  | .step e next => P e ∧ ∀ r, (next r).Only P

namespace Only

variable {P : E → Prop}

theorem request {e : E} (h : P e) : Only P (Routine.request (R := R) e) := ⟨h, fun _ => trivial⟩

theorem bind {p : Routine R α} {f : α → Routine R β} (hp : p.Only P) (hf : ∀ a, (f a).Only P) :
    (p >>= f).Only P := by
  induction p with
  | done a => exact hf a
  | died => trivial
  | step e next ih => exact ⟨hp.1, fun r => ih r (hp.2 r)⟩

theorem attempt {p : Routine R α} (hp : p.Only P) : p.attempt.Only P := by
  induction p with
  | done a => trivial
  | died => trivial
  | step e next ih => exact ⟨hp.1, fun r => ih r (hp.2 r)⟩

theorem mono {Q : E → Prop} {p : Routine R α} (hp : p.Only P) (h : ∀ e, P e → Q e) : p.Only Q := by
  induction p with
  | done a => trivial
  | died => trivial
  | step e next ih => exact ⟨h e hp.1, fun r => ih r (hp.2 r)⟩

end Only

def AtMost (P : E → Bool) : Routine R α → Nat → Prop
  | .done _, _ => True
  | .died, _ => True
  | .step e next, n => if P e then 0 < n ∧ ∀ r, (next r).AtMost P (n - 1) else ∀ r, (next r).AtMost P n

namespace AtMost

variable {P : E → Bool} {n m : Nat}

theorem skip {e : E} {next : R e → Routine R α} (h : P e = false) :
    AtMost P (.step e next) n ↔ ∀ r, (next r).AtMost P n := by simp [AtMost, h]

theorem spend {e : E} {next : R e → Routine R α} (h : P e = true) :
    AtMost P (.step e next) (n + 1) ↔ ∀ r, (next r).AtMost P n := by simp [AtMost, h]

theorem mono {p : Routine R α} (hp : p.AtMost P n) (h : n ≤ m) : p.AtMost P m := by
  induction p generalizing n m with
  | done a => trivial
  | died => trivial
  | step e next ih =>
    cases he : P e with
    | false => exact (skip he).mpr fun r => ih r ((skip he).mp hp r) h
    | true =>
      simp only [AtMost, he, if_true] at hp ⊢
      exact ⟨by omega, fun r => ih r (hp.2 r) (by omega)⟩

/-- What is left after a request with the property is one less. -/
theorem next {e : E} {next : R e → Routine R α} (h : AtMost P (.step e next) n) (r : R e) :
    ∃ m, (P e).toNat + m ≤ n ∧ (next r).AtMost P m := by
  cases he : P e with
  | false => exact ⟨n, by simp, (skip he).mp h r⟩
  | true =>
    simp only [AtMost, he, if_true] at h
    exact ⟨n - 1, by simp only [Bool.toNat_true]; omega, h.2 r⟩

theorem of_only {p : Routine R α} (h : p.Only fun e => P e = false) (n : Nat) : p.AtMost P n := by
  induction p with
  | done a => trivial
  | died => trivial
  | step e next ih => exact (skip h.1).mpr fun r => ih r (h.2 r)

theorem bind {p : Routine R α} {f : α → Routine R β} (hp : p.AtMost P n)
    (hf : ∀ a, (f a).Only fun e => P e = false) : (p >>= f).AtMost P n := by
  induction p generalizing n with
  | done a => exact of_only (hf a) n
  | died => trivial
  | step e next ih =>
    cases he : P e with
    | false => exact (skip he).mpr fun r => ih r ((skip he).mp hp r)
    | true =>
      simp only [AtMost, he, if_true] at hp
      obtain ⟨hn, hp⟩ := hp
      obtain ⟨n, rfl⟩ : ∃ m, n = m + 1 := ⟨n - 1, by omega⟩
      exact (spend he).mpr fun r => ih r (hp r)

end AtMost

end FirmwareUpdate.Routine
