import FirmwareUpdate.Agent
import FirmwareUpdate.Proofs.Fetches

/-!
# What a fetch commits

The image is staged before the job's id is saved, with a report to the service in between. So there
is a stretch of the fetch in which the device would boot the new image with the old id, and a store
that refuses the id leaves it so.
-/

namespace FirmwareUpdate

open Routine Activity

variable {A : Application}

/-! ## At every point -/

theorem NextBoot.through_take (n : NextBoot) {u : List (Deed A)} (hu : Quietly u) (d : Deed A)
    (v : List (Deed A)) (k : Nat) : n.through ((u ++ d :: v).take k) =
      if k ≤ u.length then n
      else (n.after d.request d.reply).through (v.take (k - (u.length + 1))) := by
  split
  · rename_i hk
    rw [List.take_append_of_le_length hk]
    exact n.through_quiet fun e he => hu e (List.mem_of_mem_take he)
  · rename_i hk
    obtain ⟨j, rfl⟩ : ∃ j, k = u.length + (j + 1) := ⟨k - u.length - 1, by omega⟩
    have hj : u.length + (j + 1) - (u.length + 1) = j := by omega
    rw [List.take_length_add_append, List.take_succ_cons, NextBoot.through_append, n.through_quiet hu, hj]
    rfl

section
variable {b : Behaviour A} {w : World A} {job : Job} {image : Bytes} {refuses : Bool}

/-- The points of a fetch: up to the flash nothing has changed, then the image is staged, and four
effects later the id is saved, unless the store refuses it. -/
theorem Course.nextBoot {t : List (Deed A)} (h : Course job refuses (some image) t) (n : NextBoot) :
    ∃ flashed e₁ e₂, ((t.drop flashed).take 4).map (·.request) =
        [.note e₁, .post Report.path (Report.body job.id .inProgress "Firmware written, rebooting"), .note e₂,
          .saveJobId job.id] ∧
      ∀ k, n.through (t.take k) =
        ⟨if k < flashed then n.staged else some image,
          if k < flashed + 4 ∨ refuses then n.jobId else some (Bytes.ofText job.id)⟩ := by
  cases h with
  | @flashed _ t after s r ht hr ha =>
    obtain ⟨before, s', window, e₁, e₂, hb, rfl, hw⟩ := ht
    have hlen : window.length = 3 := by rw [← List.length_map (·.request), hw]; rfl
    have hquiet : Quietly window := .of_requests (hw ▸ by simp [Effect.Quiet])
    refine ⟨before.length + 1, e₁, e₂, ?_, ?_⟩
    · have hdrop : (before ++ (⟨s', .stage image, ()⟩ : Deed A) :: window).drop (before.length + 1) =
          window := by
        rw [List.drop_length_add_append]; rfl
      rw [List.drop_append_of_le_length (by simp), hdrop, show 4 = window.length + 1 by rw [hlen],
        List.take_length_add_append, List.map_append, hw]
      rfl
    · intro k
      have hsaved : ∀ j m, NextBoot.through (A := A) m (after.take j) = m := by
        intro j m
        exact m.through_quiet fun d hd => ha d (List.mem_of_mem_take hd)
      rw [List.append_assoc, List.cons_append, NextBoot.through_take n hb,
        NextBoot.through_take _ hquiet, hlen, hsaved]
      by_cases h₁ : k ≤ before.length
      · rw [if_pos h₁, if_pos (show k < _ by omega), if_pos (.inl (show k < _ by omega))]
      · rw [if_neg h₁, if_neg (show ¬ k < before.length + 1 by omega)]
        by_cases h₂ : k < before.length + 1 + 4
        · rw [if_pos (show k - _ ≤ 3 by omega), if_pos (.inl h₂)]
          rfl
        · rw [if_neg (show ¬ k - _ ≤ 3 by omega)]
          cases hf : refuses with
          | false =>
            rw [hr.mpr hf, if_neg (by simpa using h₂)]
            rfl
          | true =>
            cases r with
            | ok => exact absurd (hr.mp rfl) (by simp [hf])
            | error c => rw [if_pos (.inr rfl)]; rfl

/-- What a power cut at the point `k` of a fetch finds, in the world `s`, if the job's image is staged
at the point `flashed`: from there on the device boots the image on trial, and the job's id is on
record only four effects later, or if it was on record before. -/
structure PowerCut (w : World A) (id : String) (image : Bytes) (flashed k : Nat) (s : World A) : Prop where
  early : k < flashed → s.nextBoot = w.nextBoot
  staged : flashed ≤ k → s.nextBoot.staged = some image
  boots : flashed ≤ k → s.device.slots.rollbackRequested = false →
    s.device.reboot.slots.running = .pendingVerify ∧ s.device.reboot.slots.image = image
  saved_iff : flashed ≤ k → (s.device.reboot.nextBoot.jobId = some (Bytes.ofText id) ↔
    flashed + 4 ≤ k ∨ w.nextBoot.jobId = some (Bytes.ofText id))

/-- A fetch that applies a job stages its image, reports to the service, and only then saves the id. -/
theorem powerCut_of_applied (h : w.Unattended) {id : String}
    (ha : (Activity.run b fetch w).1 = some (.ok (.applied id))) :
    ∃ job image flashed e₁ e₂, w.delivery = some (job, image) ∧ job.id = id ∧
      (((fetch.trace (World.perform b) w).drop flashed).take 4).map (·.request) =
        [.note e₁, .post Report.path (Report.body id .inProgress "Firmware written, rebooting"), .note e₂,
          .saveJobId id] ∧
      ∀ k s, (fetch.states (World.perform b) w)[k]? = some s → PowerCut w id image flashed k s := by
  obtain ⟨t, r, w', hd, hc⟩ := does_fetch b w h
  obtain rfl : r = .ok (.applied id) := Option.some.inj ((congrArg Prod.fst hd.run_eq).symm.trans ha)
  obtain ⟨job, image, hfound, rfl, hf, hcourse⟩ := hc.applied
  obtain ⟨flashed, e₁, e₂, hwindow, hpoint⟩ := hcourse.nextBoot w.nextBoot
  refine ⟨job, image, flashed, e₁, e₂, hfound, rfl, hd.trace_eq ▸ hwindow, ?_⟩
  intro k s hs
  have hn := nextBoot_of_states (hd.trace_eq ▸ hc.not_asks) hs
  rw [hd.trace_eq, hpoint, hf] at hn
  have hstaged : flashed ≤ k → s.nextBoot.staged = some image := by
    intro hk
    rw [hn, if_neg (by omega)]
  have hid : s.device.reboot.nextBoot.jobId =
      if k < flashed + 4 then w.nextBoot.jobId else some (Bytes.ofText job.id) := by
    rw [Device.jobId_reboot, show s.device.nextBoot = _ from hn]; simp
  refine ⟨?_, hstaged, fun hk => Device.reboot_staged (hstaged hk), ?_⟩
  · intro hk
    rw [hn, if_pos hk, if_pos (.inl (by omega))]
  · intro _
    rw [hid]
    by_cases hsaved : flashed + 4 ≤ k
    · rw [if_neg (by omega)]
      exact iff_of_true rfl (.inl hsaved)
    · rw [if_pos (by omega)]
      exact ⟨.inr, fun h => h.resolve_left hsaved⟩

theorem applied_of_delivery (h : w.Unattended) (hd : w.delivery = some (job, image))
    (hf : w.device.store.failWrites = false) :
    (Activity.run b fetch w).1 = some (.ok (.applied job.id)) := by
  obtain ⟨t, r, w', hrun, hc⟩ := does_fetch b w h
  rw [hd, hf] at hc
  cases hc with
  | flashed ht => exact congrArg Prod.fst hrun.run_eq

end

/-! ## A device that is offered a job -/

def offeredJob : Response :=
  ⟨200, Json.braces [("ota_job_id", Json.quote "B"), ("url", Json.quote "u"),
    ("file_size", Bytes.ofText "4")]⟩

/-- An enabled engine to which the job is offered, on a store that refuses to write or does not. -/
def offer (refuses : Bool) : World Agent.application :=
  let d := Device.fresh .valid
  let network := (d.network.pushGet (.answer offeredJob)).serve "u" (.plain [1, 2, 3, 4])
  let d := { d with network := network, store := { d.store with failWrites := refuses } }
  (Activity.run Agent.behaviour (enable Config.default none none) (.boot d "1.0.0")).2

theorem offer_unattended (refuses : Bool) : (offer refuses).Unattended := fun e _ =>
  match e.handler with
  | none => rfl
  | some h => nomatch h

theorem offer_delivery (refuses : Bool) :
    ∃ job, job.id = "B" ∧ (offer refuses).delivery = some (job, [1, 2, 3, 4]) := by
  have h : ((offer refuses).delivery.map fun p => (p.1.id, p.2)) = some ("B", [1, 2, 3, 4]) := by
    cases refuses <;> decide +kernel
  obtain ⟨⟨job, image⟩, hd, he⟩ := Option.map_eq_some_iff.mp h
  obtain ⟨hid, rfl⟩ := Prod.mk.inj he
  exact ⟨job, hid, hd⟩

theorem offer_applied : (Activity.run Agent.behaviour fetch (offer false)).1 = some (.ok (.applied "B")) := by
  obtain ⟨job, hid, hd⟩ := offer_delivery false
  rw [← hid]
  exact applied_of_delivery (offer_unattended false) hd rfl

theorem powerCut_offer :
    (Activity.run Agent.behaviour fetch (offer false)).1 = some (.ok (.applied "B")) ∧
    ∃ job image flashed e₁ e₂, (offer false).delivery = some (job, image) ∧ job.id = "B" ∧
      (((fetch.trace (World.perform Agent.behaviour) (offer false)).drop flashed).take 4).map (·.request) =
        [.note e₁, .post Report.path (Report.body "B" .inProgress "Firmware written, rebooting"), .note e₂,
          .saveJobId "B"] ∧
      ∀ k s, (fetch.states (World.perform Agent.behaviour) (offer false))[k]? = some s →
        PowerCut (offer false) "B" image flashed k s :=
  ⟨offer_applied, powerCut_of_applied (offer_unattended false) offer_applied⟩

/-- Power that goes at the wrong moment boots the image on trial without its job's id. -/
theorem boots_without_id :
    (Activity.run Agent.behaviour fetch (offer false)).1 = some (.ok (.applied "B")) ∧
    ∃ s ∈ fetch.states (World.perform Agent.behaviour) (offer false),
      s.device.reboot.slots.running = .pendingVerify ∧ s.device.reboot.slots.image = [1, 2, 3, 4] ∧
      s.device.reboot.nextBoot.jobId ≠ some (Bytes.ofText "B") := by
  refine ⟨offer_applied, ?_⟩
  have h : ((fetch.states (World.perform Agent.behaviour) (offer false)).any fun s =>
      s.device.reboot.slots.running = .pendingVerify ∧ s.device.reboot.slots.image = [1, 2, 3, 4] ∧
      s.device.reboot.nextBoot.jobId ≠ some (Bytes.ofText "B")) = true := by decide +kernel
  obtain ⟨s, hs, hp⟩ := List.any_eq_true.mp h
  exact ⟨s, hs, of_decide_eq_true hp⟩

/-! ## In the end -/

def NextBoot.fetched (n : NextBoot) (refuses : Bool) : Option (Job × Bytes) → NextBoot
  | none => n
  | some (job, image) => ⟨some image, if refuses then n.jobId else some (Bytes.ofText job.id)⟩

theorem FetchCourse.nextBoot {refuses : Bool} {found : Option (Job × Bytes)} {t : List (Deed A)}
    {r : Except UpdateError FetchOutcome} (h : FetchCourse refuses found t r) (n : NextBoot) :
    n.through t = n.fetched refuses found := by
  cases h with
  | idle ht hr => exact n.through_quiet ht
  | flashed ht =>
    obtain ⟨flashed, e₁, e₂, hwindow, hpoint⟩ := ht.nextBoot n
    have hlen := congrArg List.length hwindow
    simp only [List.length_map, List.length_take, List.length_drop, List.length_cons, List.length_nil] at hlen
    have hend := hpoint t.length
    rw [List.take_length, if_neg (by omega)] at hend
    rw [hend, NextBoot.fetched]
    simp only [show ¬ t.length < flashed + 4 by omega, false_or]

/-- A fetch that applies a job has staged its image and saved its id; any other has changed nothing
of what the next boot finds. -/
def AllOrNothing (w w' : World A) : Except UpdateError FetchOutcome → Prop
  | .ok (.applied id) => ∃ job image, w.delivery = some (job, image) ∧ job.id = id ∧
      image.length = job.size ∧ w'.nextBoot = ⟨some image, some (Bytes.ofText id)⟩
  | _ => w'.nextBoot = w.nextBoot

theorem allOrNothing_of_not_applied {w w' : World A} {r : Except UpdateError FetchOutcome}
    (hr : ∀ id, r ≠ .ok (.applied id)) : AllOrNothing w w' r ↔ w'.nextBoot = w.nextBoot := by
  unfold AllOrNothing
  split
  · rename_i id; exact absurd rfl (hr id)
  · rfl

theorem World.delivery_eq_some {w : World A} {job : Job} {image : Bytes}
    (h : w.delivery = some (job, image)) :
    image.length = job.size ∧ ∃ served, w.device.network.images.lookup job.url = some served ∧
      image = served.data.take job.size := by
  unfold World.delivery World.deliveryOf at h
  split at h
  · cases h
  · split at h
    · cases h
    · split at h
      · obtain ⟨i, hi, he⟩ := Option.map_eq_some_iff.mp h
        cases he
        exact World.imageUnder_eq_some hi
      · cases h

section
variable (b : Behaviour A) {w : World A}

/-- A fetch is all or nothing, except that an image stays staged whose job's id the store refuses. -/
theorem allOrNothing_iff (h : w.Unattended) :
    ∃ r w', Activity.run b fetch w = (some r, w') ∧
      (AllOrNothing w w' r ↔ ¬ (w.device.store.failWrites = true ∧
        ∃ job image, w.delivery = some (job, image) ∧ w.nextBoot.staged ≠ some image)) ∧
      (w.device.store.failWrites = true → ∀ job image, w.delivery = some (job, image) →
        r = .ok (.rejected notPersisted) ∧ w'.nextBoot = { w.nextBoot with staged := some image }) := by
  obtain ⟨t, r, w', hd, hc⟩ := does_fetch b w h
  have hn := nextBoot_of_does hd hc.not_asks
  rw [hc.nextBoot] at hn
  refine ⟨r, w', hd.run_eq, ?_⟩
  cases hfound : w.delivery with
  | none =>
    rw [hfound] at hc hn
    cases hc with
    | idle ht hr =>
      rw [allOrNothing_of_not_applied hr]
      exact ⟨iff_of_true hn (by simp), by simp⟩
  | some found =>
    obtain ⟨job, image⟩ := found
    rw [hfound] at hc hn
    cases hc with
    | flashed ht =>
      cases hf : w.device.store.failWrites with
      | false =>
        rw [hf] at hn
        have hdone : AllOrNothing w w' (.ok (.applied job.id)) :=
          ⟨job, image, hfound, rfl, (World.delivery_eq_some hfound).1, hn⟩
        exact ⟨iff_of_true hdone (by simp), by simp⟩
      | true =>
        rw [hf] at hn
        refine ⟨?_, ?_⟩
        · rw [if_pos rfl, allOrNothing_of_not_applied (by simp), hn]
          constructor
          · rintro he ⟨-, job', image', h', hne⟩
            cases h'
            exact hne (congrArg NextBoot.staged he).symm
          · intro hno
            have hsame : w.nextBoot.staged = some image :=
              Classical.byContradiction fun hne => hno ⟨rfl, job, image, rfl, hne⟩
            rw [NextBoot.fetched, if_pos rfl, ← hsame]
        · intro _ job' image' h'
          cases h'
          exact ⟨rfl, hn⟩

end

theorem allOrNothing_iff_offer :
    (offer true).Unattended ∧ ∃ r w', Activity.run Agent.behaviour fetch (offer true) = (some r, w') ∧
      (AllOrNothing (offer true) w' r ↔ ¬ ((offer true).device.store.failWrites = true ∧
        ∃ job image, (offer true).delivery = some (job, image) ∧ (offer true).nextBoot.staged ≠ some image)) ∧
      ((offer true).device.store.failWrites = true → ∀ job image, (offer true).delivery = some (job, image) →
        r = .ok (.rejected notPersisted) ∧
          w'.nextBoot = { (offer true).nextBoot with staged := some image }) :=
  ⟨offer_unattended true, allOrNothing_iff Agent.behaviour (offer_unattended true)⟩

/-- A job is rejected and its image boots next all the same. -/
theorem rejected_yet_staged :
    ∃ w', Activity.run Agent.behaviour fetch (offer true) = (some (.ok (.rejected notPersisted)), w') ∧
      (offer true).nextBoot = ⟨none, none⟩ ∧ w'.nextBoot = ⟨some [1, 2, 3, 4], none⟩ ∧
      ¬ AllOrNothing (offer true) w' (.ok (.rejected notPersisted)) := by
  obtain ⟨job, -, hd⟩ := offer_delivery true
  obtain ⟨t, r, w', hrun, hc⟩ := does_fetch Agent.behaviour (offer true) (offer_unattended true)
  have hn := nextBoot_of_does hrun hc.not_asks
  rw [hc.nextBoot, hd] at hn
  rw [hd] at hc
  have hbefore : (offer true).nextBoot = ⟨none, none⟩ := rfl
  have hafter : w'.nextBoot = ⟨some [1, 2, 3, 4], none⟩ := hn
  have hr : r = .ok (.rejected notPersisted) := by cases hc with | flashed ht => rfl
  refine ⟨w', hr ▸ hrun.run_eq, hbefore, hafter, ?_⟩
  intro hall
  have hsame : w'.nextBoot = (offer true).nextBoot := hall
  rw [hbefore, hafter] at hsame
  cases hsame

end FirmwareUpdate
