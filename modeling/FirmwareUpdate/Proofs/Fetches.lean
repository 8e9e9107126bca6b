import FirmwareUpdate.Engine.Fetching
import FirmwareUpdate.Proofs.Downloads
import FirmwareUpdate.Proofs.NextBoot

/-!
# The course of a fetch

Left to itself the engine flashes the image of the job that it is sent, says that it is about to
reboot, and then saves the job's id. A fetch either goes through all of these, in this order, or
leaves what the next boot finds alone.
-/

namespace FirmwareUpdate

open Routine Activity

variable {A : Application}

/-! ## What there is to fetch -/

namespace World

def imageFor (w : World A) (job : Job) (chunkSize : Nat) : Option Bytes :=
  match w.device.network.openImage job.url, w.device.openUpdate with
  | .ok source, .ok flash =>
    let room := max chunkSize 1
    if bufferLimit < room then none
    else
      match (Download.start source flash).run Source.read job.size room with
      | (.ok (), d) => some d.flash.image
      | (.error _, _) => none
  | _, _ => none

/-- The image that a task for the job would stage, if the task can be started. -/
def imageUnder (w : World A) (job : Job) (config : Config) : Option Bytes :=
  match w.device.startApplyTask config.applyTaskStackSize.toNat with
  | .error _ => none
  | .ok () => w.imageFor job config.downloadChunkSize.toNat

def deliveryOf (w : World A) (response : Response) (config : Config) : Option (Job × Bytes) :=
  match Payload.ofBytes response.body with
  | .ok (.job job) => (w.imageUnder job config).map (job, ·)
  | _ => none

def letIn (w : World A) : Except UpdateError (Admission A) :=
  if w.engine.inProgress then .error busy else w.admission

def delivery (w : World A) : Option (Job × Bytes) :=
  match w.letIn with
  | .error _ => none
  | .ok a =>
    match (w.device.get (fetchPath a.version)).1 with
    | .error _ => none
    | .ok response => w.deliveryOf response a.config

theorem imageFor_congr {w w' : World A} (h : w'.conditions = w.conditions) (job : Job)
    (chunkSize : Nat) : w'.imageFor job chunkSize = w.imageFor job chunkSize := by
  obtain ⟨hi, hf, -, -, hw⟩ := Conditions.mk.inj h
  simp only [imageFor, Network.openImage, Device.openUpdate, hi, hf, hw]

theorem failWrites_congr {w w' : World A} (h : w'.conditions = w.conditions) :
    w'.device.store.failWrites = w.device.store.failWrites := congrArg (·.failWrites) h

theorem startApplyTask_congr {w w' : World A} (h : w'.conditions = w.conditions) (stack : Nat) :
    w'.device.startApplyTask stack = w.device.startApplyTask stack := by
  obtain ⟨-, hf, -, -, -⟩ := Conditions.mk.inj h
  rw [Device.startApplyTask, hf]
  rfl

theorem imageUnder_congr {w w' : World A} (h : w'.conditions = w.conditions) (job : Job) (config : Config) :
    w'.imageUnder job config = w.imageUnder job config := by
  rw [imageUnder, imageUnder, startApplyTask_congr h, imageFor_congr h]

theorem deliveryOf_congr {w w' : World A} (h : w'.conditions = w.conditions) (response : Response)
    (config : Config) : w'.deliveryOf response config = w.deliveryOf response config := by
  simp only [deliveryOf, imageUnder_congr h]

theorem imageFor_eq_some {w : World A} {job : Job} {chunkSize : Nat} {image : Bytes}
    (h : w.imageFor job chunkSize = some image) :
    image.length = job.size ∧ ∃ served, w.device.network.images.lookup job.url = some served ∧
      image = served.data.take job.size := by
  unfold imageFor Network.openImage Device.openUpdate at h
  cases hs : w.device.network.images.lookup job.url with
  | none => simp [hs] at h
  | some served =>
    cases hf : w.device.faults.openUpdate with
    | true => simp [hs, hf] at h
    | false =>
      simp only [hs, hf, Bool.false_eq_true, if_false] at h
      split at h
      · cases h
      · split at h
        · rename_i d hrun
          cases h
          have hc := Download.complete (Nat.lt_of_lt_of_le Nat.zero_lt_one (Nat.le_max_right _ _)) hrun
          exact ⟨hc.2.1, served, rfl, hc.1⟩
        · cases h

theorem imageUnder_eq_some {w : World A} {job : Job} {config : Config} {image : Bytes}
    (h : w.imageUnder job config = some image) :
    image.length = job.size ∧ ∃ served, w.device.network.images.lookup job.url = some served ∧
      image = served.data.take job.size := by
  unfold imageUnder at h
  split at h
  · cases h
  · exact imageFor_eq_some h

end World

/-! ## Courses -/

def Quietly (t : List (Deed A)) : Prop := ∀ d ∈ t, d.request.Quiet

namespace Quietly

variable {t u : List (Deed A)}

theorem nil : Quietly ([] : List (Deed A)) := fun _ hd => nomatch hd

theorem one {d : Deed A} (h : d.request.Quiet) : Quietly [d] := List.forall_mem_singleton.mpr h

theorem append (ht : Quietly t) (hu : Quietly u) : Quietly (t ++ u) := List.forall_mem_append.mpr ⟨ht, hu⟩

theorem of_requests (h : ∀ e ∈ t.map (·.request), e.Quiet) : Quietly t :=
  fun d hd => h d.request (List.mem_map_of_mem hd)

theorem not_asks (h : Quietly t) : ∀ d ∈ t, ¬ d.request.Asks := fun d hd => (h d hd).not_asks

end Quietly

/-- The run puts the image in place and ends with a line about it and the report that the device is
about to reboot. -/
def Flashes (job : Job) (image : Bytes) (t : List (Deed A)) : Prop :=
  ∃ before s window e₁ e₂, Quietly before ∧ t = before ++ ⟨s, .stage image, ()⟩ :: window ∧
    window.map (·.request) =
      [.note e₁, .post Report.path (Report.body job.id .inProgress "Firmware written, rebooting"), .note e₂]

/-- The run of a job for which a download would stage the given image, on a store that refuses to
write or does not. -/
inductive Course (job : Job) (refuses : Bool) : Option Bytes → List (Deed A) → Prop
  | idle {t : List (Deed A)} (ht : Quietly t) : Course job refuses none t
  | flashed {image : Bytes} {t after : List (Deed A)} {s : World A} {r : Except Cause Unit}
      (ht : Flashes job image t) (hr : r = .ok () ↔ refuses = false) (ha : Quietly after) :
      Course job refuses (some image) (t ++ ⟨s, .saveJobId job.id, r⟩ :: after)

variable {job : Job} {image : Bytes} {found : Option Bytes} {refuses : Bool} {t u : List (Deed A)}

theorem Flashes.after (hu : Quietly u) (h : Flashes job image t) : Flashes job image (u ++ t) := by
  obtain ⟨before, s, window, e₁, e₂, hb, rfl, hw⟩ := h
  exact ⟨u ++ before, s, window, e₁, e₂, hu.append hb, (List.append_assoc _ _ _).symm, hw⟩

theorem Flashes.not_asks (h : Flashes job image t) : ∀ d ∈ t, ¬ d.request.Asks := by
  obtain ⟨before, s, window, e₁, e₂, hb, rfl, hw⟩ := h
  have hquiet : Quietly window := .of_requests (hw ▸ by simp [Effect.Quiet])
  rw [List.forall_mem_append, List.forall_mem_cons]
  exact ⟨hb.not_asks, id, hquiet.not_asks⟩

namespace Course

theorem after (hu : Quietly u) (h : Course job refuses found t) : Course job refuses found (u ++ t) := by
  cases h with
  | idle ht => exact .idle (hu.append ht)
  | flashed ht hr ha => rw [← List.append_assoc]; exact .flashed (ht.after hu) hr ha

theorem before (h : Course job refuses found t) (hu : Quietly u) : Course job refuses found (t ++ u) := by
  cases h with
  | idle ht => exact .idle (ht.append hu)
  | flashed ht hr ha =>
    rw [List.append_assoc, List.cons_append]
    exact .flashed ht hr (ha.append hu)

theorem not_asks (h : Course job refuses found t) : ∀ d ∈ t, ¬ d.request.Asks := by
  cases h with
  | idle ht => exact ht.not_asks
  | flashed ht hr ha =>
    rw [List.forall_mem_append, List.forall_mem_cons]
    exact ⟨ht.not_asks, id, ha.not_asks⟩

end Course

/-! ## Reports on the way -/

section
variable (b : Behaviour A) (w : World A)

theorem does_perform {e : Effect A} {r : e.Reply} {w' : World A} (h : w.perform b e = (r, w')) :
    Does (World.perform b) (perform e) w [⟨w, e, r⟩] (some r) w' := .replied h

theorem does_note (e : Event) :
    Does (World.perform b) (note e) w [⟨w, .note e, ()⟩] (some ()) (w.note e) := .request (Effect.note e) w

theorem does_get (path : String) :
    Does (World.perform b) (get path) w [⟨w, .get path, some (w.device.get path).1⟩]
      (some (w.device.get path).1) { w with device := (w.device.get path).2 } := ⟨rfl, rfl⟩

theorem does_post (path : String) (body : Bytes) :
    Does (World.perform b) (post path body) w [⟨w, .post path body, some (w.device.post path body).1⟩]
      (some (w.device.post path body).1) { w with device := (w.device.post path body).2 } := ⟨rfl, rfl⟩

theorem does_reportFor (id : String) (status : JobStatus) (info : String) :
    ∃ r t o w', Does (World.perform b) (reportFor id status info) w
      (⟨w, .post Report.path (Report.body id status info), r⟩ :: t) (some o) w' ∧
      ((∃ s e, o = .ok () ∧ t = [⟨s, .note e, ()⟩]) ∨ (∃ e, o = .error e) ∧ t = []) := by
  have hp := does_post b w Report.path (Report.body id status info)
  unfold reportFor
  cases hr : (w.device.post Report.path (Report.body id status info)).1 with
  | error c =>
    rw [hr] at hp
    exact ⟨_, [], _, _, hp.bind (.done _ _), .inr ⟨⟨_, rfl⟩, rfl⟩⟩
  | ok response =>
    rw [hr] at hp
    cases hok : response.ok with
    | false =>
      exact ⟨_, [], _, _, hp.bind (o := some (.error (.http response.status)))
        (by dsimp only; rw [if_neg (by simp [hok])]; exact .done _ _), .inr ⟨⟨_, rfl⟩, rfl⟩⟩
    | true =>
      exact ⟨_, [_], _, _, hp.bind (o := some (.ok ()))
        (by dsimp only; rw [if_pos hok]; exact (does_note b _ (.reported id status info)).bind (.done _ _)),
        .inl ⟨_, _, rfl, rfl⟩⟩

theorem does_reportLogged (id : String) (status : JobStatus) (info : String) :
    ∃ r s e w', Does (World.perform b) (reportLogged id status info) w
      [⟨w, .post Report.path (Report.body id status info), r⟩, ⟨s, .note e, ()⟩] (some ()) w' := by
  obtain ⟨r, t, o, w', hd, ⟨s, e, rfl, rfl⟩ | ⟨⟨e, rfl⟩, rfl⟩⟩ := does_reportFor b w id status info
  · exact ⟨r, s, e, w', hd.bind (.done _ _)⟩
  · exact ⟨r, _, _, _, hd.bind (does_note b _ (.reportFailed id status e))⟩

theorem quiet_reportLogged (id : String) (status : JobStatus) (info : String) :
    ∃ t w', Does (World.perform b) (reportLogged id status info) w t (some ()) w' ∧ Quietly t := by
  obtain ⟨r, s, e, w', h⟩ := does_reportLogged b w id status info
  exact ⟨_, w', h, by simp [Quietly, Effect.Quiet]⟩

theorem quiet_noteProgress (told : List Progress) :
    ∃ t w', Does (World.perform b) (noteProgress told) w t (some ()) w' ∧ Quietly t ∧
      w'.device.slots = w.device.slots := by
  induction told generalizing w with
  | nil => exact ⟨[], w, .done () w, .nil, rfl⟩
  | cons p rest ih =>
    obtain ⟨t, w', h, ht, hslots⟩ := ih (w.note (.progress p))
    have hnoted : Quietly [(⟨w, .note (.progress p), ()⟩ : Deed A)] := by simp [Quietly, Effect.Quiet]
    exact ⟨_, w', (does_note b w _).bind h, hnoted.append ht, hslots⟩

end

/-! ## Carrying a job out -/

section
variable (b : Behaviour A) (w : World A)

/-- From whatever is read, a slot is staged once and last, if all goes well, and never else. -/
theorem does_fillSlot {σ : Type} (read : Nat → σ → Except Cause (Bytes × σ)) (source : σ) (flash : Flash)
    (size room : Nat) :
    ∃ t w', Quietly t ∧ w'.device.slots = w.device.slots ∧
      match (Download.start source flash).run read size room with
      | (.error c, _) => Does (World.perform b) (fillSlot read source flash size room) w t (some (.error c)) w'
      | (.ok (), d) => Does (World.perform b) (fillSlot read source flash size room) w
          (t ++ [⟨w', .stage d.flash.image, ()⟩])
          (some (.ok ⟨d.flash.offset, Bytes.hex (Sha256.digest d.flash.image)⟩))
          (w'.perform b (.stage d.flash.image)).2 := by
  obtain ⟨t, w', hnotes, ht, hslots⟩ := quiet_noteProgress b w
    ((Download.start source flash).run read size room).2.told.reverse
  refine ⟨t, w', ht, hslots, ?_⟩
  unfold fillSlot
  generalize (Download.start source flash).run read size room = out at hnotes
  obtain ⟨result, d⟩ := out
  cases result with
  | error c =>
    rw [← List.append_nil t]
    exact hnotes.bind (.done _ w')
  | ok =>
    have hstage := does_perform b w' (e := .stage d.flash.image) rfl
    exact hnotes.bind (hstage.bind (.done _ _))

variable (job : Job) (chunkSize : Nat)

theorem does_downloadAndFlash :
    ∃ t o w', Does (World.perform b) (downloadAndFlash job chunkSize) w t o w' ∧
      match w.imageFor job chunkSize with
      | none => Quietly t ∧ ∀ summary, o ≠ some (.ok summary)
      | some image => ∃ before s summary, Quietly before ∧ t = before ++ [⟨s, .stage image, ()⟩] ∧
          o = some (.ok summary) := by
  unfold downloadAndFlash World.imageFor
  cases hsource : w.device.network.openImage job.url with
  | error c =>
    have hopen := does_perform b w (e := .openImage job.url) (congrArg (·, w) hsource)
    exact ⟨_, _, _, hopen.bind (.done _ _), by simp [Quietly, Effect.Quiet]⟩
  | ok source =>
    have hopen := does_perform b w (e := .openImage job.url) (congrArg (·, w) hsource)
    -- without room for a buffer the task dies before it opens the slot
    by_cases hroom : bufferLimit < max chunkSize 1
    · refine ⟨_, none, w, hopen.bind (u := []) (by dsimp only; rw [if_pos hroom]; exact .died w), ?_⟩
      cases w.device.openUpdate <;> simp [hroom, Quietly, Effect.Quiet]
    · cases hflash : w.device.openUpdate with
      | error c =>
        have hupdate := does_perform b w (e := .openUpdate) (congrArg (·, w) hflash)
        refine ⟨_, some (.error c), w, hopen.bind (u := [_])
          (by dsimp only; rw [if_neg hroom]; exact hupdate.bind (.done _ _)), ?_⟩
        simp [Quietly, Effect.Quiet]
      | ok flash =>
        have hupdate := does_perform b w (e := .openUpdate) (congrArg (·, w) hflash)
        obtain ⟨t, w₁, ht, -, hfill⟩ := does_fillSlot b w Source.read source flash job.size (max chunkSize 1)
        have hopened : Quietly ([⟨w, .openImage job.url, .ok source⟩, ⟨w, .openUpdate, .ok flash⟩] :
            List (Deed A)) := by simp [Quietly, Effect.Quiet]
        simp only [if_neg hroom]
        cases hrun : (Download.start source flash).run Source.read job.size (max chunkSize 1) with
        | mk result d =>
          rw [hrun] at hfill
          cases result with
          | error c => exact ⟨_, some (.error c), w₁, hopen.bind (hupdate.bind hfill), hopened.append ht, by simp⟩
          | ok =>
            exact ⟨_, some (.ok ⟨d.flash.offset, Bytes.hex (Sha256.digest d.flash.image)⟩), _,
              hopen.bind (hupdate.bind hfill), _, w₁, _, hopened.append ht, rfl, rfl⟩

theorem does_flashImage :
    ∃ t o w', Does (World.perform b) (flashImage job chunkSize) w t o w' ∧
      match w.imageFor job chunkSize with
      | none => Quietly t ∧ o ≠ some .applied
      | some image => Flashes job image t ∧ o = some .applied := by
  unfold flashImage
  have hnote := does_note b w (.applying job.id job.size job.version)
  obtain ⟨t₁, w₁, hreport, ht₁⟩ := quiet_reportLogged b
    (w.note (.applying job.id job.size job.version)) job.id .inProgress "Downloading firmware image"
  have hbegin : Quietly ([⟨w, .note (.applying job.id job.size job.version), ()⟩] ++ t₁) :=
    .append (by simp [Quietly, Effect.Quiet]) ht₁
  obtain ⟨t₂, o, w₂, hdown, hcase⟩ := does_downloadAndFlash b w₁ job chunkSize
  -- a report leaves the images and the faults alone, so the image to come is still the same
  have hsame : w₁.conditions = w.conditions := (conditions_of_does hreport ht₁.not_asks).trans rfl
  rw [World.imageFor_congr hsame] at hcase
  cases hi : w.imageFor job chunkSize with
  | none =>
    rw [hi] at hcase
    obtain ⟨ht₂, ho⟩ := hcase
    match o, hdown with
    | none, hdown =>
      refine ⟨_, none, _, hnote.bind (hreport.bind hdown.bind_died), ?_⟩
      rw [← List.append_assoc]
      exact ⟨hbegin.append ht₂, by simp⟩
    | some (.ok summary), _ => exact absurd rfl (ho summary)
    | some (.error c), hdown =>
      have hfail := does_note b w₂ (.applyFailed job.id c)
      refine ⟨_, _, _, hnote.bind (hreport.bind (hdown.bind (hfail.bind (.done _ _)))), ?_⟩
      rw [← List.append_assoc]
      exact ⟨hbegin.append (ht₂.append (by simp [Quietly, Effect.Quiet])), by simp⟩
  | some image =>
    rw [hi] at hcase
    obtain ⟨before, s, summary, hb, rfl, rfl⟩ := hcase
    have hwritten := does_note b w₂ (.imageWritten summary)
    obtain ⟨r, s', e, w₃, hreboot⟩ :=
      does_reportLogged b (w₂.note (.imageWritten summary)) job.id .inProgress "Firmware written, rebooting"
    refine ⟨_, _, _, hnote.bind (hreport.bind (hdown.bind (hwritten.bind (hreboot.bind (.done _ _))))),
      ⟨_, s, [⟨w₂, .note (.imageWritten summary), ()⟩, ⟨w₂.note (.imageWritten summary), .post _ _, r⟩,
        ⟨s', .note e, ()⟩], _, _, hbegin.append hb, ?_, rfl⟩, rfl⟩
    simp only [List.append_assoc, List.cons_append, List.nil_append]

def notPersisted : String := "Failed to persist job id: " ++ Device.saveRefused.top

/-- The run of a job with a result: it is applied if there is something to stage and the store takes
its id, and rejected if the store does not. -/
structure Settles {α : Type} (job : Job) (refuses : Bool) (found : Option Bytes) (applied rejected : α)
    (t : List (Deed A)) (result : α) : Prop where
  course : Course job refuses found t
  applied_iff : result = applied ↔ refuses = false ∧ found.isSome
  rejected_of : refuses = true → found.isSome → result = rejected

theorem does_settle :
    ∃ t o w', Does (World.perform b) (settle none job chunkSize) w t o w' ∧
      Settles job w.device.store.failWrites (w.imageFor job chunkSize) (some .applied)
        (some (.rejected notPersisted)) t o := by
  unfold settle Activity.decide
  obtain ⟨t, o, w₁, hflash, hcase⟩ := does_flashImage b w job chunkSize
  cases hi : w.imageFor job chunkSize with
  | none =>
    rw [hi] at hcase
    obtain ⟨ht, ho⟩ := hcase
    match o, hflash with
    | none, hflash => exact ⟨_, none, _, hflash.bind_died, .idle ht, by simp, by simp⟩
    | some .applied, _ => exact absurd rfl ho
    | some (.deferred reason), hflash =>
      obtain ⟨u, w₂, hreport, hu⟩ := quiet_reportLogged b w₁ job.id .delayed reason
      exact ⟨_, some (.deferred reason), w₂, hflash.bind (hreport.bind (u := []) (.done _ _)),
        .idle (ht.append (hu.append .nil)), by simp, by simp⟩
    | some (.rejected reason), hflash =>
      obtain ⟨u, w₂, hreport, hu⟩ := quiet_reportLogged b w₁ job.id .rejected reason
      exact ⟨_, some (.rejected reason), w₂, hflash.bind (hreport.bind (u := []) (.done _ _)),
        .idle (ht.append (hu.append .nil)), by simp, by simp⟩
  | some image =>
    rw [hi] at hcase
    obtain ⟨ht, rfl⟩ := hcase
    have hsame : w₁.conditions = w.conditions := conditions_of_does hflash ht.not_asks
    have hcases := w₁.device.saveJobId_cases job.id
    cases hs : w₁.device.saveJobId job.id with
    | mk r d =>
      rw [hs, World.failWrites_congr hsame] at hcases
      have hsave : Does (World.perform b) (perform (.saveJobId job.id)) w₁ [⟨w₁, .saveJobId job.id, r⟩]
          (some r) { w₁ with device := d } :=
        does_perform b w₁ (by simp only [World.perform]; rw [hs])
      rcases hcases with ⟨hf, hr, -⟩ | ⟨hf, hr, -⟩
      · obtain rfl : r = .ok () := hr
        refine ⟨_, some .applied, _, hflash.bind ((hsave.bind (.done _ _)).bind (.done _ _)), ?_, ?_, ?_⟩
        · exact .flashed ht (by simp [hf]) .nil
        · simp [hf]
        · simp [hf]
      · obtain rfl : r = .error Device.saveRefused := hr
        have hnote := does_note b { w₁ with device := d } (.jobIdNotPersisted job.id Device.saveRefused)
        have hpersist : Does (World.perform b) (persist job .applied) w₁ _
            (some (.rejected notPersisted)) _ := hsave.bind (hnote.bind (.done _ _))
        obtain ⟨u, w₂, hreport, hu⟩ := quiet_reportLogged b
          ({ w₁ with device := d }.note (.jobIdNotPersisted job.id Device.saveRefused)) job.id .rejected
          notPersisted
        refine ⟨_, some (.rejected notPersisted), w₂,
          hflash.bind (hpersist.bind (hreport.bind (u := []) (.done _ _))), ?_, ?_, ?_⟩
        · exact .flashed ht (by simp [hf]) (.append (t := [_]) (.one trivial) (hu.append .nil))
        · simp [hf]
        · simp

theorem does_applyJob (config : Config) :
    ∃ t o w', Does (World.perform b)
        (applyJob none job config.downloadChunkSize.toNat config.applyTaskStackSize.toNat) w t (some o) w' ∧
      Settles job w.device.store.failWrites (w.imageUnder job config) (.ok .applied)
        (.ok (.rejected notPersisted)) t o := by
  unfold applyJob World.imageUnder
  have hstart := does_perform b w (e := .startApplyTask config.applyTaskStackSize.toNat) rfl
  cases hs : w.device.startApplyTask config.applyTaskStackSize.toNat with
  | error c =>
    rw [hs] at hstart
    exact ⟨_, .error (.apply ("failed to spawn apply task: " ++ c.top)), w, hstart.bind (u := []) (.done _ _),
      .idle (.one trivial), by simp, by simp⟩
  | ok =>
    rw [hs] at hstart
    obtain ⟨t, o, w', h, ht, happlied, hrejected⟩ := does_settle b w job config.downloadChunkSize.toNat
    have ha := h.attempt
    -- a task of its own changes nothing but how a death is told
    cases o with
    | none =>
      refine ⟨_, _, _, hstart.bind (ha.bind (.done _ _)), (ht.before .nil).after (.one trivial), ?_, ?_⟩
      · simpa using happlied
      · simpa using hrejected
    | some outcome =>
      refine ⟨_, _, _, hstart.bind (ha.bind (.done _ _)), (ht.before .nil).after (.one trivial), ?_, ?_⟩
      · simpa using happlied
      · simpa using hrejected

end

/-! ## The fetch -/

def fetched (id : String) : ApplyOutcome → FetchOutcome
  | .applied => .applied id
  | .deferred reason => .deferred reason
  | .rejected reason => .rejected reason

section
variable (b : Behaviour A) (w : World A)

theorem quiet_conclude (config : Config) (id : String) (outcome : ApplyOutcome) :
    ∃ t w', Does (World.perform b) (conclude config id outcome) w t (some (fetched id outcome)) w' ∧
      Quietly t := by
  cases outcome with
  | deferred reason =>
    exact ⟨_, _, (does_note b w _).bind (.done _ _), by simp [Quietly, Effect.Quiet]⟩
  | rejected reason =>
    exact ⟨_, _, (does_note b w _).bind (.done _ _), by simp [Quietly, Effect.Quiet]⟩
  | applied =>
    have hnote := does_note b w (.jobApplied id)
    unfold conclude
    cases hr : config.restartAfterApply with
    | false => exact ⟨_, _, hnote.bind (u := []) (.done _ _), by simp [Quietly, Effect.Quiet]⟩
    | true =>
      have hrest := does_note b (w.note (.jobApplied id)) .restarting
      have hrestart := does_perform b ((w.note (.jobApplied id)).note .restarting) (e := .restart) rfl
      exact ⟨_, _, hnote.bind (hrest.bind (hrestart.bind (.done _ _))), by simp [Quietly, Effect.Quiet]⟩

theorem does_carryOut (a : Admission A) (ha : a.handler = none) (job : Job) :
    ∃ t o w', Does (World.perform b) (carryOut a job) w t (some o) w' ∧
      Settles job w.device.store.failWrites (w.imageUnder job a.config)
        (.ok .applied) (.ok (.rejected notPersisted)) t o := by
  have hnote := does_note b w (.jobAccepted job.id job.url job.size)
  obtain ⟨t₁, w₁, hreport, ht₁⟩ := quiet_reportLogged b (w.note (.jobAccepted job.id job.url job.size))
    job.id .accepted "Job accepted"
  obtain ⟨t₂, o, w₂, happly, hs⟩ := does_applyJob b w₁ job a.config
  have hsame : w₁.conditions = w.conditions := (conditions_of_does hreport ht₁.not_asks).trans rfl
  rw [← ha] at happly
  rw [World.failWrites_congr hsame, World.imageUnder_congr hsame] at hs
  exact ⟨_, o, w₂, hnote.bind (hreport.bind happly), (hs.course.after ht₁).after (.one trivial),
    hs.applied_iff, hs.rejected_of⟩

theorem does_letGo : Does (World.perform b) letGo w [⟨w, .putDown, ()⟩, ⟨w.putDown, .release, ()⟩] (some ())
    w.putDown.release := ⟨rfl, rfl⟩

theorem does_takeOn (a : Admission A) (ha : a.handler = none) (hl : w.engine.inProgress = false) (job : Job) :
    ∃ t r w', Does (World.perform b) (takeOn a job) w t (some r) w' ∧
      Settles job w.device.store.failWrites (w.imageUnder job a.config)
        (.ok (.applied job.id)) (.ok (.rejected notPersisted)) t r ∧
      ∀ id, r = .ok (.applied id) → id = job.id := by
  let w₀ : World A := { w with engine := { w.engine with inProgress := true } }
  have hclaim : Does (World.perform b) (perform .claim) w [⟨w, .claim, true⟩] (some true) w₀ :=
    does_perform b w (by simp [World.perform, World.claim, hl, w₀])
  have htake : Does (World.perform b) (perform (.takeUp job)) w₀ [⟨w₀, .takeUp job, ()⟩] (some ())
      (w₀.takeUp job) := does_perform b w₀ rfl
  have hquiet : Quietly [⟨w, .claim, true⟩, ⟨w₀, .takeUp job, ()⟩] := by simp [Quietly, Effect.Quiet]
  obtain ⟨t, o, w₁, hcarry, hs⟩ := does_carryOut b (w₀.takeUp job) a ha job
  have hsame : (w₀.takeUp job).conditions = w.conditions := rfl
  rw [World.failWrites_congr hsame, World.imageUnder_congr hsame] at hs
  have hheld : Does (World.perform b) (holdJob a job) w₀ _ (some o) w₁ := htake.bind hcarry
  have hboth := hheld.ensuring (does_letGo b w₁)
  have hcourse := (hs.course.before (u := [⟨w₁, .putDown, ()⟩, ⟨w₁.putDown, .release, ()⟩])
    (by simp [Quietly, Effect.Quiet])).after hquiet
  unfold takeOn
  cases o with
  | error e =>
    refine ⟨_, .error e, w₁.putDown.release, hclaim.bind (hboth.bind (u := []) (.done _ _)), ⟨?_, ?_, ?_⟩, ?_⟩
    · rw [List.append_nil]; exact hcourse
    · simpa using hs.applied_iff
    · simpa using hs.rejected_of
    · intro id hr
      cases hr
  | ok outcome =>
    obtain ⟨u, w₂, hconclude, hu⟩ := quiet_conclude b w₁.putDown.release a.config job.id outcome
    refine ⟨_, .ok (fetched job.id outcome), w₂,
      hclaim.bind (hboth.bind (hconclude.bind (.done _ _))), ⟨?_, ?_, ?_⟩, ?_⟩
    · rw [List.append_nil, ← List.append_assoc]; exact hcourse.before hu
    · rw [← hs.applied_iff]
      cases outcome <;> simp [fetched]
    · intro hf hi
      cases hs.rejected_of hf hi
      rfl
    · intro id hr
      cases outcome <;> cases hr
      rfl

/-- The run of a fetch for which there was a job and an image, or nothing, to stage. -/
inductive FetchCourse (refuses : Bool) :
    Option (Job × Bytes) → List (Deed A) → Except UpdateError FetchOutcome → Prop
  | idle {t : List (Deed A)} {r : Except UpdateError FetchOutcome} (ht : Quietly t)
      (hr : ∀ id, r ≠ .ok (.applied id)) : FetchCourse refuses none t r
  | flashed {job : Job} {image : Bytes} {t : List (Deed A)} (ht : Course job refuses (some image) t) :
      FetchCourse refuses (some (job, image)) t
        (.ok (if refuses then .rejected notPersisted else .applied job.id))

namespace FetchCourse

variable {r : Except UpdateError FetchOutcome} {found : Option (Job × Bytes)}

theorem after (hu : Quietly u) (h : FetchCourse refuses found t r) :
    FetchCourse refuses found (u ++ t) r := by
  cases h with
  | idle ht hr => exact .idle (hu.append ht) hr
  | flashed ht => exact .flashed (ht.after hu)

theorem not_asks (h : FetchCourse refuses found t r) : ∀ d ∈ t, ¬ d.request.Asks := by
  cases h with
  | idle ht hr => exact ht.not_asks
  | flashed ht => exact ht.not_asks

theorem applied {id : String} (h : FetchCourse refuses found t (.ok (.applied id))) :
    ∃ job image, found = some (job, image) ∧ job.id = id ∧ refuses = false ∧
      Course job refuses (some image) t := by
  generalize hr : Except.ok (FetchOutcome.applied id) = r at h
  cases h with
  | idle ht hn => exact absurd hr.symm (hn id)
  | @flashed job image _ ht =>
    cases refuses with
    | true => cases hr
    | false => cases hr; exact ⟨job, image, rfl, rfl, rfl, ht⟩

end FetchCourse

theorem quiet_receive (a : Admission A) (response : Response)
    (hp : ∀ job, Payload.ofBytes response.body ≠ .ok (.job job)) :
    ∃ t r w', Does (World.perform b) (receive a response) w t (some r) w' ∧ Quietly t ∧
      ∀ id, r ≠ .ok (.applied id) := by
  unfold receive rejectPayload
  split
  · rename_i why _
    split
    · have hnote := does_note b w (.payloadRejected (.parse why))
      obtain ⟨t, w', hreport, ht⟩ := quiet_reportLogged b (w.note (.payloadRejected (.parse why)))
        ((salvageJobId response.body).getD "") .rejected payloadErrorReason
      exact ⟨_, _, _, hnote.bind (hreport.bind (.done _ _)),
        .append (t := [_]) (.one trivial) (ht.append .nil), by simp⟩
    · exact ⟨_, _, _, .done _ _, .nil, by simp⟩
  · exact ⟨_, _, _, (does_note b w _).bind (.done _ _), .append (t := [_]) (.one trivial) .nil, by simp⟩
  · exact ⟨_, _, _, (does_note b w _).bind (.done _ _), .append (t := [_]) (.one trivial) .nil, by simp⟩
  · rename_i id why _
    have hnote := does_note b w (.jobRejected why)
    obtain ⟨t, w', hreport, ht⟩ := quiet_reportLogged b (w.note (.jobRejected why)) (id.getD "") .rejected
      why.reason
    exact ⟨_, _, _, hnote.bind (hreport.bind (.done _ _)),
      .append (t := [_]) (.one trivial) (ht.append .nil), by simp⟩
  · rename_i job h
    exact absurd h (hp job)

theorem does_receive (a : Admission A) (ha : a.handler = none) (hl : w.engine.inProgress = false)
    (response : Response) :
    ∃ t r w', Does (World.perform b) (receive a response) w t (some r) w' ∧
      FetchCourse w.device.store.failWrites
        (w.deliveryOf response a.config) t r := by
  unfold World.deliveryOf
  by_cases hp : ∃ job, Payload.ofBytes response.body = .ok (.job job)
  · obtain ⟨job, hp⟩ := hp
    obtain ⟨t, r, w', htake, ⟨ht, happlied, hrejected⟩, hid⟩ := does_takeOn b w a ha hl job
    refine ⟨t, r, w', by unfold receive; rw [hp]; exact htake, ?_⟩
    rw [hp]
    dsimp only
    cases hi : w.imageUnder job a.config with
    | none =>
      rw [hi] at ht happlied
      cases ht with
      | idle ht =>
        refine .idle ht ?_
        intro id hr
        obtain rfl := hid id hr
        exact absurd (happlied.mp hr).2 (by simp)
    | some image =>
      rw [hi] at ht happlied hrejected
      have hr : r = .ok (if w.device.store.failWrites then .rejected notPersisted else .applied job.id) := by
        cases hf : w.device.store.failWrites with
        | false => exact happlied.mpr ⟨hf, rfl⟩
        | true => exact hrejected hf rfl
      rw [hr]
      exact .flashed ht
  · have hp := not_exists.mp hp
    obtain ⟨t, r, w', hreceive, ht, hr⟩ := quiet_receive b w a response hp
    refine ⟨t, r, w', hreceive, ?_⟩
    split
    · rename_i job h; exact absurd h (hp job)
    · exact .idle ht hr

/-- No handler decides for the application. -/
def World.Unattended (w : World A) : Prop := ∀ e, w.engine.enabled = some e → e.handler = none

theorem World.Unattended.letIn {w : World A} (h : w.Unattended) {a : Admission A} (ha : w.letIn = .ok a) :
    w.engine.inProgress = false ∧ w.admission = .ok a ∧ a.handler = none := by
  unfold World.letIn at ha
  split at ha
  · cases ha
  · rename_i hl
    refine ⟨by simpa using hl, ha, ?_⟩
    unfold World.admission at ha
    split at ha
    · cases ha
    · rename_i e he
      cases ha
      exact h e he

/-- A fetch that is not let in ends at once, and one that is let in asks for a job. -/
theorem does_fetch_letIn :
    match w.letIn with
    | .error e => ∃ t, Does (World.perform b) fetch w t (some (.error e)) w ∧ Quietly t
    | .ok a => ∃ t, Quietly t ∧ ∀ u o w', Does (World.perform b) (ask a) w u o w' →
        Does (World.perform b) fetch w (t ++ u) o w' := by
  have hflag : Does (World.perform b) (perform .inProgress) w [⟨w, .inProgress, w.engine.inProgress⟩]
      (some w.engine.inProgress) w := does_perform b w rfl
  have hadmission : Does (World.perform b) (perform .admission) w [⟨w, .admission, w.admission⟩]
      (some w.admission) w := does_perform b w rfl
  unfold World.letIn fetch
  cases hl : w.engine.inProgress with
  | true =>
    rw [hl] at hflag
    exact ⟨_, hflag.bind (u := []) (.done _ _), by simp [Quietly, Effect.Quiet]⟩
  | false =>
    rw [hl] at hflag
    cases ha : w.admission with
    | error e =>
      rw [ha] at hadmission
      exact ⟨_, hflag.bind (hadmission.bind (u := []) (.done _ _)), by simp [Quietly, Effect.Quiet]⟩
    | ok a =>
      rw [ha] at hadmission
      exact ⟨[_, _], by simp [Quietly, Effect.Quiet], fun u o w' h => hflag.bind (hadmission.bind h)⟩

theorem does_ask (a : Admission A) (ha : a.handler = none) (hl : w.engine.inProgress = false) :
    ∃ t r w', Does (World.perform b) (ask a) w t (some r) w' ∧
      FetchCourse w.device.store.failWrites
        (match (w.device.get (fetchPath a.version)).1 with
        | .error _ => none
        | .ok response => w.deliveryOf response a.config) t r := by
  have hnote := does_note b w .fetching
  have hget := does_get b (w.note .fetching) (fetchPath a.version)
  have hsame : World.conditions
      (World.mk ((w.note .fetching).device.get (fetchPath a.version)).2 w.engine) = w.conditions :=
    Device.conditions_get _ _
  have hahead : ((w.note .fetching).device.get (fetchPath a.version)).1 =
      (w.device.get (fetchPath a.version)).1 := rfl
  rw [hahead] at hget
  cases hr : (w.device.get (fetchPath a.version)).1 with
  | error c =>
    rw [hr] at hget
    exact ⟨_, .error (.transport c), _, hnote.bind (hget.bind (.done _ _)),
      .idle (by simp [Quietly, Effect.Quiet]) (by simp)⟩
  | ok response =>
    rw [hr] at hget
    obtain ⟨t, r, w', hreceive, ht⟩ := does_receive b
      (World.mk ((w.note .fetching).device.get (fetchPath a.version)).2 w.engine) a ha hl response
    refine ⟨_, r, w', hnote.bind (hget.bind hreceive), ?_⟩
    rw [World.deliveryOf_congr hsame, World.failWrites_congr hsame] at ht
    exact .after (u := [_]) (.one trivial) (.after (.one trivial) ht)

/-- A fetch stages the image that there is to fetch, and only that. The job is applied unless the
store refuses its id. -/
theorem does_fetch (h : w.Unattended) :
    ∃ t r w', Does (World.perform b) fetch w t (some r) w' ∧
      FetchCourse w.device.store.failWrites w.delivery t r := by
  have hcase := does_fetch_letIn b w
  unfold World.delivery
  cases hin : w.letIn with
  | error e =>
    rw [hin] at hcase
    obtain ⟨t, hd, ht⟩ := hcase
    exact ⟨t, .error e, w, hd, .idle ht (by simp)⟩
  | ok a =>
    rw [hin] at hcase
    obtain ⟨t, ht, hgo⟩ := hcase
    obtain ⟨hl, -, ha⟩ := h.letIn hin
    obtain ⟨u, r, w', hask, hc⟩ := does_ask b w a ha hl
    exact ⟨t ++ u, r, w', hgo u _ w' hask, hc.after ht⟩

end

end FirmwareUpdate
