import FirmwareUpdate.Proofs.Erasures

/-!
# What the device keeps count of

The network keeps every report that was sent, and the store counts the erasures of the job id. Both are
the deeds in the history of the boot, no more and no less.
-/

namespace FirmwareUpdate

variable {A : Application}

def Effect.post? : Effect A → Option Post
  | .post path body => some ⟨path, body⟩
  | _ => none

def Happening.post? : Happening A → Option Post
  | did _ d => d.request.post?
  | fired .. => none

@[simp] theorem Effect.post?_post (path : String) (body : Bytes) :
    (Effect.post path body : Effect A).post? = some ⟨path, body⟩ := rfl

@[simp] theorem Effect.post?_eraseJobId : (Effect.eraseJobId : Effect A).post? = none := rfl

theorem Effect.post?_of_not_outward {e : Effect A} (h : ¬ e.Outward) : e.post? = none := by
  cases e <;> first | rfl | exact absurd trivial h

theorem filterMap_post?_of_not_outward {t : List (Deed A)} (h : ∀ d ∈ t, ¬ d.request.Outward) :
    t.filterMap (·.request.post?) = [] := by
  rw [List.filterMap_eq_nil_iff]
  exact fun d hd => Effect.post?_of_not_outward (h d hd)

theorem Happening.erases_of_not_outward (task : Nat) {d : Deed A} (h : ¬ d.request.Outward) :
    (did task d).erases = false := by
  obtain ⟨s, e, r⟩ := d
  cases e <;> first | rfl | exact absurd trivial h

/-! ## One effect -/

namespace World

variable (w : World A) (s : Saying) (e : Effect A)

theorem posts_undergo :
    (w.undergo s e).2.device.network.posts = w.device.network.posts ++ e.post?.toList := by
  rw [undergo_snd]
  by_cases ho : e.Outward
  · cases e with
    | get path =>
      simp only [perform, Device.get, Network.get, Effect.post?]
      split <;> simp
    | post path body =>
      simp only [perform, Device.post, Network.post, Effect.post?]
      split <;> rfl
    | saveJobId id =>
      simp only [perform, Device.saveJobId, Effect.post?]
      split <;> simp
    | eraseJobId =>
      simp only [perform, Device.eraseJobId, Effect.post?]
      split <;> simp
    | stage | restart => simp [perform, Device.stage, Device.restart, Effect.post?]
    | _ => exact ho.elim
  · rw [Effect.post?_of_not_outward ho, Option.toList_none, List.append_nil]
    by_cases ha : e.Asks
    · cases e <;> first | rfl | exact ha.elim
    · rw [(w.inward_perform (.saying s) ha ho).network]

theorem erasures_undergo (task : Nat) :
    (w.undergo s e).2.device.store.eraseCount .jobId = w.device.store.eraseCount .jobId +
      (Happening.did task ⟨w, e, (w.undergo s e).1⟩).erases.toNat := by
  have hkept (hn : ∀ r, (Happening.did task ⟨w, e, r⟩).erases = false)
      (hs : (w.undergo s e).2.device.store.erased = w.device.store.erased) :
      (w.undergo s e).2.device.store.eraseCount .jobId = w.device.store.eraseCount .jobId +
        (Happening.did task ⟨w, e, (w.undergo s e).1⟩).erases.toNat := by
    rw [hn, Store.eraseCount, hs]
    rfl
  by_cases ho : e.Outward
  · cases e with
    | eraseJobId =>
      change (w.device.eraseJobId.2).store.eraseCount .jobId = _
      change _ = _ + (Happening.did task ⟨w, .eraseJobId, w.device.eraseJobId.1⟩).erases.toNat
      unfold Device.eraseJobId
      cases w.device.faults.erase with
      | true => rfl
      | false => simp [Store.eraseCount, Store.erase, Happening.erases]
    | saveJobId id =>
      apply hkept fun _ => rfl
      change (w.device.saveJobId id).2.store.erased = _
      unfold Device.saveJobId
      cases hf : w.device.store.failWrites with
      | true => rw [Store.write_refused _ _ hf]
      | false =>
        rw [Store.write_put _ _ hf]
        rfl
    | get | post | stage | restart => exact hkept (fun _ => rfl) rfl
    | _ => exact ho.elim
  · by_cases ha : e.Asks
    · cases e <;> first | rfl | exact ha.elim
    · apply hkept fun r => Happening.erases_of_not_outward task ho
      rw [undergo_snd, (w.inward_perform (.saying s) ha ho).store]

end World

theorem posts_of_does {α : Type} {s : Saying} {p : Activity A α} {w w' : World A} {t : List (Deed A)}
    {o : Option α} (h : Routine.Does (Boot.undergoing s) p w t o w') :
    w'.device.network.posts = w.device.network.posts ++ t.filterMap (·.request.post?) := by
  induction p generalizing w t with
  | done a =>
    obtain ⟨rfl, hrun⟩ := h
    cases hrun
    exact (List.append_nil _).symm
  | died =>
    obtain ⟨rfl, hrun⟩ := h
    cases hrun
    exact (List.append_nil _).symm
  | step e next ih =>
    obtain ⟨rfl, hrun⟩ := h
    rw [ih _ ⟨rfl, hrun⟩, w.posts_undergo, Routine.trace, List.filterMap_cons, List.append_assoc]
    cases e.post? <;> rfl

/-! ## A whole boot -/

structure World.Counted (d : Device) (w : World A) (history : List (Happening A)) : Prop where
  posts : w.device.network.posts = d.network.posts ++ history.reverse.filterMap Happening.post?
  erasures : w.device.store.eraseCount .jobId = d.store.eraseCount .jobId + history.countP Happening.erases

theorem Turn.counted {d : Device} {w w' : World A} {h h' : List (Happening A)} (ht : Turn w h w' h')
    (hc : w.Counted d h) : w'.Counted d h' := by
  cases ht with
  | paced c => exact ⟨hc.posts, hc.erasures⟩
  | surrounded s => exact ⟨hc.posts, hc.erasures⟩
  | fired id =>
    have hfire := w.trialStep_fireOnce id
    refine ⟨?_, ?_⟩
    · rw [hfire.network, hc.posts]
      simp [Happening.post?]
    · rw [hfire.store, hc.erasures]
      simp [Happening.erases]
  | did task s e c =>
    refine ⟨?_, ?_⟩
    · refine (w.posts_undergo s e).trans ?_
      rw [hc.posts, List.reverse_cons, List.filterMap_append, List.append_assoc]
      simp only [Happening.post?, List.filterMap_cons, List.filterMap_nil]
      cases e.post? <;> rfl
    · refine (w.erasures_undergo s e task).trans ?_
      rw [hc.erasures, countP_cons_toNat, Nat.add_assoc]

theorem Boot.counted_run (d : Device) (version : String) (ms : List (Move A)) :
    ((start A d version).run ms).world.Counted d ((start A d version).run ms).history :=
  run_turns (fun ht hc => Turn.counted ht hc) ⟨by simp [start, World.boot], by simp [start, World.boot]⟩ ms

end FirmwareUpdate
