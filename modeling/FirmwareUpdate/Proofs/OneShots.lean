import FirmwareUpdate.CancelToken
import FirmwareUpdate.Proofs.Interleaving

/-!
# One-shot timers and who cancels them

The thread of a one-shot timer waits, claims the token, and runs the callback if its claim is granted. Whoever
cancels the timer claims the same token, and so does the handle when it is dropped. The first claim is granted and
no other.
-/

namespace FirmwareUpdate

inductive Claimant where
  | timer
  | canceller
  | droppedHandle
  deriving DecidableEq, Repr

structure Claim where
  who : Claimant
  granted : Bool
  deriving DecidableEq, Repr

/-- A scheduled shot, whether its handle is still there, and the claims to its token, the newest first. -/
structure Contest where
  shot : Shot
  held : Bool
  claims : List Claim
  deriving DecidableEq, Repr

namespace Contest

inductive Step where
  | wake
  | claim
  | fire
  | cancel
  | drop
  deriving DecidableEq, Repr

def start : Contest := ⟨.scheduled, true, []⟩

def record (c : Contest) (who : Claimant) (r : Bool × Shot) : Contest :=
  { c with shot := r.2, claims := ⟨who, r.1⟩ :: c.claims }

/-- Takes a step. One that is impossible changes nothing. -/
def step (c : Contest) : Step → Contest
  | .wake => { c with shot := c.shot.wake }
  | .claim => if c.shot.phase = .claiming then c.record .timer c.shot.claim else c
  | .fire => { c with shot := c.shot.fire }
  | .cancel => if c.held then c.record .canceller c.shot.cancel else c
  | .drop => if c.held then { c.record .droppedHandle c.shot.cancel with held := false } else c

def run (c : Contest) (steps : List Step) : Contest := steps.foldl step c

/-! ## Claims -/

def Prior (k : Claim) (earlier : List Claim) : Prop := k.granted = true ↔ earlier = []

structure Paced (c : Contest) : Prop where
  unclaimed : c.shot.phase = .waiting ∨ c.shot.phase = .claiming → ∀ k ∈ c.claims, k.who ≠ .timer
  firing : c.shot.phase = .firing → ⟨.timer, true⟩ ∈ c.claims
  hits : c.shot.hits = if c.shot.phase = .ended ∧ ⟨.timer, true⟩ ∈ c.claims then 1 else 0

/-- The token is cancelled once there is a claim to it, and the first one is granted. -/
structure Fair (c : Contest) : Prop extends Paced c where
  token : c.shot.token.cancelled = true ↔ c.claims ≠ []
  prior : Throughout Prior c.claims

theorem fair_start : start.Fair where
  unclaimed _ _ h := nomatch h
  firing h := nomatch h
  hits := rfl
  token := by decide
  prior := trivial

namespace Fair

variable {c : Contest}

theorem prior_cons (h : c.Fair) (who : Claimant) :
    Throughout Prior (⟨who, c.shot.token.cancel.1⟩ :: c.claims) := by
  refine ⟨?_, h.prior⟩
  change (!c.shot.token.cancelled) = true ↔ c.claims = []
  rw [Bool.not_eq_true', ← Bool.not_eq_true, h.token, Classical.not_not]

theorem wake (h : c.Fair) : (c.step .wake).Fair := by
  change Fair { c with shot := c.shot.wake }
  unfold Shot.wake
  split
  · rename_i hw
    have hnone := h.unclaimed (.inl hw)
    have hhits := h.hits
    rw [hw] at hhits
    have hnot : (⟨.timer, true⟩ : Claim) ∉ c.claims := fun hk => hnone _ hk rfl
    refine ⟨⟨fun _ => hnone, ?_, ?_⟩, h.token, h.prior⟩
    · dsimp only
      split <;> exact fun hf => nomatch hf
    · simpa [hnot] using hhits
  · exact h

theorem claim (h : c.Fair) : (c.step .claim).Fair := by
  simp only [Contest.step]
  split
  · rename_i hp
    have hnone := h.unclaimed (.inr hp)
    have hhits := h.hits
    rw [hp] at hhits
    have hclaim : c.shot.claim = (c.shot.token.cancel.1, { c.shot with
        token := ⟨true⟩, phase := if c.shot.token.cancel.1 then .firing else .ended }) := by
      unfold Shot.claim
      rw [hp]
      rfl
    have hnot : (⟨.timer, true⟩ : Claim) ∉ c.claims := fun hk => hnone _ hk rfl
    have hprior := h.prior_cons .timer
    unfold record
    rw [hclaim]
    generalize c.shot.token.cancel.1 = granted at hprior ⊢
    refine ⟨⟨?_, ?_, ?_⟩, by simp, hprior⟩
    · cases granted <;> exact fun hw => by simp at hw
    · cases granted
      · exact fun hf => nomatch hf
      · exact fun _ => List.mem_cons_self
    · cases granted <;> simpa [hnot] using hhits
  · exact h

theorem fire (h : c.Fair) : (c.step .fire).Fair := by
  change Fair { c with shot := c.shot.fire }
  unfold Shot.fire
  split
  · rename_i hf
    have hclaimed := h.firing hf
    have hhits := h.hits
    rw [hf] at hhits
    refine ⟨⟨fun hw => by simp at hw, (fun hf => nomatch hf), ?_⟩, h.token, h.prior⟩
    simpa [hclaimed] using hhits
  · exact h

/-- Whoever cancels leaves the timer's thread where it is. -/
theorem cancelled (h : c.Fair) {who : Claimant} (hwho : who ≠ .timer) : (c.record who c.shot.cancel).Fair where
  unclaimed hw := List.forall_mem_cons.mpr ⟨hwho, h.unclaimed hw⟩
  firing hf := List.mem_cons_of_mem _ (h.firing hf)
  hits := by
    have hne : (⟨.timer, true⟩ : Claim) ≠ ⟨who, c.shot.cancel.1⟩ := fun he => hwho (congrArg Claim.who he).symm
    have hmem : (⟨.timer, true⟩ : Claim) ∈ (c.record who c.shot.cancel).claims ↔ ⟨.timer, true⟩ ∈ c.claims :=
      List.mem_cons.trans (or_iff_right hne)
    simp only [hmem]
    exact h.hits
  token := by simp [record, Shot.cancel, CancelToken.cancel]
  prior := h.prior_cons who

theorem step (h : c.Fair) (st : Step) : (c.step st).Fair := by
  cases st with
  | wake => exact h.wake
  | claim => exact h.claim
  | fire => exact h.fire
  | cancel =>
    simp only [Contest.step]
    split
    · exact h.cancelled nofun
    · exact h
  | drop =>
    simp only [Contest.step]
    split
    · have hdropped : (c.record .droppedHandle c.shot.cancel).Fair := h.cancelled nofun
      exact ⟨⟨hdropped.unclaimed, hdropped.firing, hdropped.hits⟩, hdropped.token, hdropped.prior⟩
    · exact h

theorem run (h : c.Fair) (steps : List Step) : (c.run steps).Fair := by
  induction steps generalizing c with
  | nil => exact h
  | cons st steps ih => exact ih (h.step st)

end Fair

/-! ## The first claim -/

theorem claims_step (c : Contest) (st : Step) : c.claims <:+ (c.step st).claims := by
  cases st with
  | wake | fire => exact List.suffix_refl _
  | claim | cancel | drop =>
    simp only [step]
    split
    · exact List.suffix_cons _ _
    · exact List.suffix_refl _

theorem claims_run (c : Contest) (steps : List Step) : c.claims <:+ (c.run steps).claims := by
  induction steps generalizing c with
  | nil => exact List.suffix_refl _
  | cons st steps ih => exact (c.claims_step st).trans (ih _)

section
variable {claims : List Claim} {k : Claim}

theorem first_of_granted (h : Throughout Prior claims) (hk : k ∈ claims) (hg : k.granted = true) :
    claims.getLast? = some k := by
  obtain ⟨later, earlier, rfl⟩ := List.append_of_mem hk
  obtain rfl := h.split.mp hg
  simp

theorem granted_first (h : Throughout Prior claims) (hk : claims.getLast? = some k) : k.granted = true := by
  obtain ⟨later, rfl⟩ := List.getLast?_eq_some_iff.mp hk
  exact h.split.mpr rfl

end

namespace Fair

variable {c : Contest}

theorem granted_le_one (h : c.Fair) : c.claims.countP (·.granted) ≤ 1 := by
  refine countP_le_one fun later x between y earlier he hx => ?_
  have hprior := h.prior
  rw [he] at hprior
  have hfirst := hprior.split.mp hx
  simp at hfirst

theorem hits_of_cancelled (h : c.Fair) {k : Claim} (hk : k ∈ c.claims) (hwho : k.who ≠ .timer)
    (hg : k.granted = true) : c.shot.hits = 0 := by
  have hnot : (⟨.timer, true⟩ : Claim) ∉ c.claims := by
    intro ht
    have hsame := (first_of_granted h.prior hk hg).symm.trans (first_of_granted h.prior ht rfl)
    exact hwho (congrArg Claim.who (Option.some.inj hsame))
  rw [h.hits, if_neg fun hended => hnot hended.2]

/-- A claim that is refused comes after one that was granted. -/
theorem granted_of_refused (h : c.Fair) {later earlier : List Claim} {k : Claim}
    (he : c.claims = later ++ k :: earlier) (hr : k.granted = false) : ∃ first ∈ earlier, first.granted = true := by
  have hprior := h.prior
  rw [he] at hprior
  have hne : earlier ≠ [] := by
    intro hnil
    have hgranted := hprior.split.mpr hnil
    rw [hr] at hgranted
    cases hgranted
  have hlast := List.getLast?_eq_some_getLast hne
  exact ⟨_, List.getLast_mem hne, granted_first hprior.drop.2 hlast⟩

end Fair

/-- In whatever order the timer's thread, those who cancel and the drop of the handle take their steps, one claim to
the token is granted at most. The callback runs at most once, and that exactly if the claim is the thread's own. -/
theorem claimed_once (steps : List Step) :
    (start.run steps).claims.countP (·.granted) ≤ 1 ∧
    (start.run steps).shot.hits ≤ 1 ∧
    ((start.run steps).shot.hits = 1 → ⟨.timer, true⟩ ∈ (start.run steps).claims) ∧
    (⟨.timer, true⟩ ∈ (start.run steps).claims →
      (start.run steps).shot.phase = .firing ∧ (start.run (steps ++ [.fire])).shot.hits = 1 ∨
      (start.run steps).shot.phase = .ended ∧ (start.run steps).shot.hits = 1) ∧
    (∀ k ∈ (start.run steps).claims, k.who ≠ .timer → k.granted = true →
      ∀ more, (start.run (steps ++ more)).shot.hits = 0) ∧
    ∀ later k earlier, (start.run steps).claims = later ++ k :: earlier → k.who ≠ .timer → k.granted = false →
      (∀ k' ∈ earlier, k'.who ≠ .timer → k'.granted = false) → ⟨.timer, true⟩ ∈ earlier := by
  have hfair := fair_start.run steps
  have happend (more : List Step) : start.run (steps ++ more) = (start.run steps).run more := List.foldl_append
  simp only [happend]
  generalize start.run steps = c at hfair
  refine ⟨hfair.granted_le_one, ?_, ?_, ?_, ?_, ?_⟩
  · rw [hfair.hits]
    split <;> decide
  · rw [hfair.hits]
    split
    · exact fun _ => ‹_ ∧ _›.2
    · exact fun h => nomatch h
  · intro hclaimed
    have hhits := hfair.hits
    cases hp : c.shot.phase with
    | waiting => exact absurd rfl (hfair.unclaimed (.inl hp) _ hclaimed)
    | claiming => exact absurd rfl (hfair.unclaimed (.inr hp) _ hclaimed)
    | firing =>
      refine .inl ⟨rfl, ?_⟩
      rw [if_neg (by simp [hp])] at hhits
      simp [run, step, Shot.fire, hp, hhits]
    | ended => exact .inr ⟨rfl, by rw [hhits, if_pos ⟨hp, hclaimed⟩]⟩
  · intro k hk hwho hg more
    exact (hfair.run more).hits_of_cancelled ((c.claims_run more).subset hk) hwho hg
  · intro later k earlier he hwho hr hearlier
    obtain ⟨⟨who, granted⟩, hfirst, hgranted⟩ := hfair.granted_of_refused he hr
    obtain rfl : granted = true := hgranted
    -- the first claim was nobody's who cancels
    cases who with
    | timer => exact hfirst
    | canceller | droppedHandle => exact absurd (hearlier _ hfirst nofun) nofun

/-- The wait ends, and before the thread claims the token the timer is cancelled; or it claims the token first. -/
theorem claimed_once_racing :
    (start.run [.wake, .cancel, .claim, .fire, .cancel, .drop]).claims =
      [⟨.droppedHandle, false⟩, ⟨.canceller, false⟩, ⟨.timer, false⟩, ⟨.canceller, true⟩] ∧
    (∀ more, (start.run ([.wake, .cancel, .claim, .fire, .cancel, .drop] ++ more)).shot.hits = 0) ∧
    (start.run [.wake, .claim, .cancel]).claims = [⟨.canceller, false⟩, ⟨.timer, true⟩] ∧
    (start.run [.wake, .claim, .cancel]).shot.phase = .firing ∧
    (start.run ([.wake, .claim, .cancel] ++ [.fire])).shot.hits = 1 ∧
    (start.run [.wake, .claim, .cancel, .fire]).shot.hits = 1 := by
  obtain ⟨-, -, -, -, hcancelled, -⟩ := claimed_once [.wake, .cancel, .claim, .fire, .cancel, .drop]
  obtain ⟨-, -, -, hgranted, -, hrefused⟩ := claimed_once [.wake, .claim, .cancel]
  have hclaims : (start.run [.wake, .claim, .cancel]).claims = [⟨.canceller, false⟩, ⟨.timer, true⟩] := by decide
  have hclaimed := hrefused [] ⟨.canceller, false⟩ [⟨.timer, true⟩] hclaims nofun rfl (by decide)
  have hfired := hgranted (by rw [hclaims]; exact List.mem_cons_of_mem _ hclaimed)
  refine ⟨by decide, hcancelled ⟨.canceller, true⟩ (by decide) nofun rfl, hclaims, by decide, ?_, by decide⟩
  rcases hfired with ⟨-, hhits⟩ | ⟨hended, -⟩
  · exact hhits
  · exact absurd hended (by decide)

end Contest

end FirmwareUpdate
