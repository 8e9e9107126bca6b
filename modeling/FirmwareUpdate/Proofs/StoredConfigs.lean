import FirmwareUpdate.Device
import FirmwareUpdate.Proofs.PositionalAnswers
import FirmwareUpdate.Proofs.WrittenNumbers

/-!
# Stored configurations

Whatever bytes are stored, the configuration that is loaded has no fault: it is the one that the bytes spell, or
the default. A configuration that was saved is what the bytes spell from then on, whatever its settings.
-/

namespace FirmwareUpdate

open Json (Numeral Piece Tree)

/-! ## What members say of a field -/

namespace Json.Tree

variable {α : Type} {members : List (String × Tree)} {name : String} {ifMissing a : α}
  {means : Tree → α → Prop} {read : Tree → Option α}

/-- A field has the value that its member stands for. Without a member it has a value all the same; with two of one
name it has none. -/
inductive Gives (members : List (String × Tree)) (name : String) (ifMissing : α) (means : Tree → α → Prop) : α → Prop
  | missing (h : members.filter (·.1 == name) = []) : Gives members name ifMissing means ifMissing
  | told {t : Tree} {a : α} (h : members.filter (·.1 == name) = [(name, t)]) (ha : means t a) :
    Gives members name ifMissing means a

theorem sole?_eq_some_iff {field : Option Tree} : sole? members name = some field ↔
    members.filter (·.1 == name) = (field.map (name, ·)).toList := by
  have hname : ∀ m ∈ members.filter (·.1 == name), m.1 = name :=
    fun m hm => eq_of_beq (List.mem_filter.mp hm).2
  unfold sole?
  split
  · rename_i h
    cases field <;> simp [h]
  · rename_i m h
    have hm := hname m (by simp [h])
    cases field with
    | none => simp [h]
    | some t =>
      obtain ⟨k, u⟩ := m
      cases hm
      simp [h]
  · rename_i hnone hone
    refine iff_of_false nofun ?_
    cases field with
    | none => exact hnone
    | some t => exact hone (name, t)

theorem mapM_eq_some_iff {f : String → Option α} {names : List String} {found : List α} :
    names.mapM f = some found ↔ names.map f = found.map some := by
  induction names generalizing found with
  | nil => cases found <;> simp
  | cons name names ih =>
    rw [List.mapM_cons]
    cases hname : f name with
    | none => cases found <;> simp [hname]
    | some x =>
      cases found with
      | nil => simp [Option.bind_eq_some_iff]
      | cons y ys => simp [hname, Option.bind_eq_some_iff, ← ih, and_left_comm]

theorem gives_iff (hread : ∀ t a, read t = some a ↔ means t a) :
    (∃ field, sole? members name = some field ∧ withDefault ifMissing read field = some a) ↔
      Gives members name ifMissing means a := by
  constructor
  · rintro ⟨field, hsole, hfield⟩
    rw [sole?_eq_some_iff] at hsole
    cases field with
    | none =>
      cases hfield
      exact .missing hsole
    | some t => exact .told hsole ((hread t a).mp hfield)
  · intro h
    cases h with
    | missing h => exact ⟨none, sole?_eq_some_iff.mpr h, rfl⟩
    | @told t _ h ha => exact ⟨some t, sole?_eq_some_iff.mpr h, (hread t a).mpr ha⟩

end Json.Tree

namespace Config

/-! ## What a configuration is spelled like -/

structure ToldBy (members : List (String × Tree)) (c : Config) : Prop where
  hours : Tree.Gives members "autofetch_period_hours" default.autofetchPeriodHours
    (fun t n => t.Counts n.toNat) c.autofetchPeriodHours
  timeout : Tree.Gives members "rollback_timeout_secs" default.rollbackTimeoutSecs
    (fun t n => t.Counts n.toNat) c.rollbackTimeoutSecs
  interval : Tree.Gives members "confirm_retry_interval_ms" default.confirmRetryIntervalMs
    (fun t n => t.Counts n.toNat) c.confirmRetryIntervalMs
  stack : Tree.Gives members "apply_task_stack_size" default.applyTaskStackSize
    (fun t n => t.Counts n.toNat) c.applyTaskStackSize
  chunk : Tree.Gives members "download_chunk_size" default.downloadChunkSize
    (fun t n => t.Counts n.toNat) c.downloadChunkSize
  restart : Tree.Gives members "restart_after_apply" default.restartAfterApply
    (fun t b => t = .bool b) c.restartAfterApply

/-- An object tells the settings by its members, an array by its items, each under the name of the field in whose
place it stands. -/
inductive SpelledBy (c : Config) : Tree → Prop
  | object {ms : List (List Piece × Tree)} {members : List (String × Tree)}
    (hmembers : Tree.named? ms = some members) (h : ToldBy members c) : SpelledBy c (.object ms)
  | array {items : List Tree} (hlength : items.length ≤ fieldNames.length)
    (h : ToldBy (fieldNames.zip items) c) : SpelledBy c (.array items)

def StoredAs (c : Config) (bs : Bytes) : Prop := ∃ t : Tree, t.WrittenAs bs ∧ c.SpelledBy t

variable {c : Config} {members : List (String × Tree)}

theorem word32_told {t : Tree} {n : UInt32} :
    (t.unsigned? 32).map UInt32.ofNat = some n ↔ t.Counts n.toNat := by
  rw [Option.map_eq_some_iff]
  constructor
  · rintro ⟨v, hv, rfl⟩
    obtain ⟨hcounts, hlt⟩ := (Tree.unsigned?_eq_some_iff (by decide)).mp hv
    rwa [UInt32.toNat_ofNat_of_lt' hlt]
  · intro h
    exact ⟨n.toNat, (Tree.unsigned?_eq_some_iff (by decide)).mpr ⟨h, n.toNat_lt⟩, UInt32.ofNat_toNat⟩

theorem word64_told {t : Tree} {n : UInt64} :
    (t.unsigned? 64).map UInt64.ofNat = some n ↔ t.Counts n.toNat := by
  rw [Option.map_eq_some_iff]
  constructor
  · rintro ⟨v, hv, rfl⟩
    obtain ⟨hcounts, hlt⟩ := (Tree.unsigned?_eq_some_iff (by decide)).mp hv
    rwa [UInt64.toNat_ofNat_of_lt' hlt]
  · intro h
    exact ⟨n.toNat, (Tree.unsigned?_eq_some_iff (by decide)).mpr ⟨h, n.toNat_lt⟩, UInt64.ofNat_toNat⟩

theorem bool_told {t : Tree} {b : Bool} : t.bool? = some b ↔ t = .bool b := by
  cases t <;> simp [Tree.bool?]

theorem word32_gives (name : String) (ifMissing n : UInt32) :
    (∃ field, Tree.sole? members name = some field ∧ word32 ifMissing field = some n) ↔
      Tree.Gives members name ifMissing (fun t n => t.Counts n.toNat) n :=
  Tree.gives_iff fun _ _ => word32_told

theorem word64_gives (name : String) (ifMissing n : UInt64) :
    (∃ field, Tree.sole? members name = some field ∧ word64 ifMissing field = some n) ↔
      Tree.Gives members name ifMissing (fun t n => t.Counts n.toNat) n :=
  Tree.gives_iff fun _ _ => word64_told

theorem bool_gives (name : String) (ifMissing b : Bool) :
    (∃ field, Tree.sole? members name = some field ∧ Tree.withDefault ifMissing Tree.bool? field = some b) ↔
      Tree.Gives members name ifMissing (fun t b => t = .bool b) b :=
  Tree.gives_iff fun _ _ => bool_told

theorem ofTree?_eq_some_iff_toldBy {t : Tree} (h : t.fields? fieldNames = fieldNames.mapM (Tree.sole? members)) :
    ofTree? t = some c ↔ ToldBy members c := by
  unfold ofTree?
  constructor
  · intro hc
    obtain ⟨fields, hfields, hc⟩ := Option.bind_eq_some_iff.mp hc
    split at hc
    · obtain ⟨hours, hhours, hc⟩ := Option.bind_eq_some_iff.mp hc
      obtain ⟨timeout, htimeout, hc⟩ := Option.bind_eq_some_iff.mp hc
      obtain ⟨interval, hinterval, hc⟩ := Option.bind_eq_some_iff.mp hc
      obtain ⟨stack, hstack, hc⟩ := Option.bind_eq_some_iff.mp hc
      obtain ⟨chunk, hchunk, hc⟩ := Option.bind_eq_some_iff.mp hc
      obtain ⟨restart, hrestart, hc⟩ := Option.bind_eq_some_iff.mp hc
      cases hc
      rw [h] at hfields
      have found := Tree.mapM_eq_some_iff.mp hfields
      simp only [fieldNames, List.map_cons, List.map_nil, List.cons.injEq, and_true] at found
      obtain ⟨foundHours, foundTimeout, foundInterval, foundStack, foundChunk, foundRestart⟩ := found
      exact ⟨(word32_gives ..).mp ⟨_, foundHours, hhours⟩, (word32_gives ..).mp ⟨_, foundTimeout, htimeout⟩,
        (word64_gives ..).mp ⟨_, foundInterval, hinterval⟩, (word64_gives ..).mp ⟨_, foundStack, hstack⟩,
        (word64_gives ..).mp ⟨_, foundChunk, hchunk⟩, (bool_gives ..).mp ⟨_, foundRestart, hrestart⟩⟩
    · cases hc
  · intro hc
    obtain ⟨hours, foundHours, hhours⟩ := (word32_gives ..).mpr hc.hours
    obtain ⟨timeout, foundTimeout, htimeout⟩ := (word32_gives ..).mpr hc.timeout
    obtain ⟨interval, foundInterval, hinterval⟩ := (word64_gives ..).mpr hc.interval
    obtain ⟨stack, foundStack, hstack⟩ := (word64_gives ..).mpr hc.stack
    obtain ⟨chunk, foundChunk, hchunk⟩ := (word64_gives ..).mpr hc.chunk
    obtain ⟨restart, foundRestart, hrestart⟩ := (bool_gives ..).mpr hc.restart
    have hfields : t.fields? fieldNames = some [hours, timeout, interval, stack, chunk, restart] := by
      rw [h, Tree.mapM_eq_some_iff]
      simp [fieldNames, foundHours, foundTimeout, foundInterval, foundStack, foundChunk, foundRestart]
    rw [hfields]
    simp [hhours, htimeout, hinterval, hstack, hchunk, hrestart]

theorem ofTree?_eq_some_iff {t : Tree} : ofTree? t = some c ↔ c.SpelledBy t := by
  cases t with
  | object ms =>
    cases hmembers : Tree.named? ms with
    | none =>
      have hfields : Tree.fields? fieldNames (.object ms) = none := by simp [Tree.fields?, hmembers]
      refine iff_of_false (by simp [ofTree?, hfields]) ?_
      rintro ⟨hsome, -⟩
      simp [hmembers] at hsome
    | some members =>
      have hfields : Tree.fields? fieldNames (.object ms) = fieldNames.mapM (Tree.sole? members) := by
        simp [Tree.fields?, hmembers]
      rw [ofTree?_eq_some_iff_toldBy hfields]
      constructor
      · exact .object hmembers
      · rintro ⟨hsome, h⟩
        rw [hmembers] at hsome
        cases hsome
        exact h
  | array items =>
    by_cases hlength : items.length ≤ fieldNames.length
    · have hfields : Tree.fields? fieldNames (.array items) =
          fieldNames.mapM (Tree.sole? (fieldNames.zip items)) := by
        rw [Tree.mapM_sole?_zip (by decide) hlength]
        exact if_pos hlength
      rw [ofTree?_eq_some_iff_toldBy hfields]
      constructor
      · exact .array hlength
      · rintro ⟨⟩
        assumption
    · have hfields : Tree.fields? fieldNames (.array items) = none := if_neg hlength
      refine iff_of_false (by simp [ofTree?, hfields]) ?_
      rintro ⟨⟩
      exact hlength (by assumption)
  | _ => exact iff_of_false nofun nofun

theorem ofBytes?_eq_some_iff {bs : Bytes} : ofBytes? bs = some c ↔ c.StoredAs bs := by
  simp only [ofBytes?, bind, Option.bind_eq_some_iff, Tree.ofBytes?_eq_some_iff, ofTree?_eq_some_iff, StoredAs]

/-! ## What a configuration is written as -/

def settings (c : Config) : List Tree :=
  [.number (.ofNat c.autofetchPeriodHours.toNat), .number (.ofNat c.rollbackTimeoutSecs.toNat),
   .number (.ofNat c.confirmRetryIntervalMs.toNat), .number (.ofNat c.applyTaskStackSize.toNat),
   .number (.ofNat c.downloadChunkSize.toNat), .bool c.restartAfterApply]

def tree (c : Config) : Tree := .object (Tree.namedItems fieldNames c.settings)

theorem toldBy_settings (c : Config) : ToldBy (fieldNames.zip c.settings) c where
  hours := .told rfl (Tree.counts_number _)
  timeout := .told rfl (Tree.counts_number _)
  interval := .told rfl (Tree.counts_number _)
  stack := .told rfl (Tree.counts_number _)
  chunk := .told rfl (Tree.counts_number _)
  restart := .told rfl rfl

theorem spelledBy_tree (c : Config) : c.SpelledBy c.tree :=
  .object (Tree.named?_quoted _) c.toldBy_settings

theorem writtenAs_bool (b : Bool) : (Tree.bool b).WrittenAs (Json.renderBool b) := by
  cases b <;> decide +kernel

theorem writtenAs_render (c : Config) : c.tree.WrittenAs c.render := by
  have hmembers : ∀ m ∈ fieldNames.zip (c.settings.zip
      [Bytes.ofText (toString c.autofetchPeriodHours.toNat), Bytes.ofText (toString c.rollbackTimeoutSecs.toNat),
       Bytes.ofText (toString c.confirmRetryIntervalMs.toNat), Bytes.ofText (toString c.applyTaskStackSize.toNat),
       Bytes.ofText (toString c.downloadChunkSize.toNat), Json.renderBool c.restartAfterApply]),
      m.2.1.WrittenAs m.2.2 := by
    simp only [fieldNames, settings, List.zip_cons_cons, List.zip_nil_left, List.forall_mem_cons]
    exact ⟨Tree.writtenAs_number _, Tree.writtenAs_number _, Tree.writtenAs_number _, Tree.writtenAs_number _,
      Tree.writtenAs_number _, writtenAs_bool _, nofun⟩
  exact Tree.writtenAs_braces hmembers

theorem storedAs_render (c : Config) : c.StoredAs c.render := ⟨c.tree, c.writtenAs_render, c.spelledBy_tree⟩

end Config

/-! ## Loading and saving -/

theorem Store.readJson_eq_some_iff {α : Type} {decode : Bytes → Option α} {s : Store} {p : Place} {a : α} :
    s.readJson decode p = .ok (some a) ↔
      s.failReads = false ∧ ∃ bs, s.raw p = some bs ∧ decode bs = some a := by
  unfold readJson
  cases hreads : s.failReads with
  | true => simp [read_refused p hreads]
  | false =>
    rw [read_raw p hreads]
    cases s.raw p with
    | none => simp
    | some bs => cases h : decode bs <;> simp [h]

namespace Device

variable {d : Device} {c : Config}

/-- What is stored can be read, and it spells a configuration without a fault. -/
structure Keeps (d : Device) (c : Config) : Prop where
  readable : d.store.failReads = false
  stored : ∃ bs, d.store.raw .config = some bs ∧ c.StoredAs bs
  sound : c.fault? = none

theorem keeps_iff : d.Keeps c ↔
    d.store.readJson Config.ofBytes? .config = .ok (some c) ∧ c.fault? = none := by
  simp only [Store.readJson_eq_some_iff, Config.ofBytes?_eq_some_iff]
  exact ⟨fun ⟨hreads, hstored, hsound⟩ => ⟨⟨hreads, hstored⟩, hsound⟩,
    fun ⟨⟨hreads, hstored⟩, hsound⟩ => ⟨hreads, hstored, hsound⟩⟩

theorem Keeps.loadConfig (h : d.Keeps c) : d.loadConfig.1 = c := by
  obtain ⟨hread, hsound⟩ := keeps_iff.mp h
  unfold Device.loadConfig
  rw [hread, usableConfig, hsound]

theorem loadConfig_of_not_keeps (h : ∀ c, ¬ d.Keeps c) : d.loadConfig.1 = .default := by
  unfold loadConfig
  cases hread : d.store.readJson Config.ofBytes? .config with
  | error e => rfl
  | ok found =>
    cases found with
    | none => rfl
    | some c =>
      cases hfault : c.fault? with
      | none => exact absurd (keeps_iff.mpr ⟨hread, hfault⟩) (h c)
      | some f => rw [usableConfig, hfault]

theorem loadConfig_eq_iff : d.loadConfig.1 = c ↔ d.Keeps c ∨ (c = .default ∧ ∀ k, ¬ d.Keeps k) := by
  by_cases h : ∃ k, d.Keeps k
  · obtain ⟨k, hk⟩ := h
    rw [hk.loadConfig]
    constructor
    · rintro rfl
      exact .inl hk
    · rintro (hc | ⟨-, hnone⟩)
      · exact hk.loadConfig.symm.trans hc.loadConfig
      · exact absurd hk (hnone k)
  · have hnone : ∀ k, ¬ d.Keeps k := fun k hk => h ⟨k, hk⟩
    rw [loadConfig_of_not_keeps hnone]
    constructor
    · rintro rfl
      exact .inr ⟨rfl, hnone⟩
    · rintro (hc | ⟨rfl, -⟩)
      · exact absurd hc (hnone c)
      · rfl

theorem sound_loadConfig (d : Device) : d.loadConfig.1.fault? = none := by
  rcases loadConfig_eq_iff.mp (rfl : d.loadConfig.1 = _) with h | ⟨h, -⟩
  · exact h.sound
  · rw [h]
    rfl

theorem saveConfig_refused (h : d.store.failWrites = true) (c : Config) :
    (∃ why, (d.saveConfig c).1 = .error why) ∧ (d.saveConfig c).2 = d := by
  unfold saveConfig
  rw [Store.write_refused _ _ h]
  exact ⟨⟨_, rfl⟩, rfl⟩

theorem saveConfig_put (h : d.store.failWrites = false) (c : Config) :
    d.saveConfig c = (.ok (), { d with store := d.store.put .config c.render }.note .configSaved) := by
  unfold saveConfig
  rw [Store.write_put _ _ h]

theorem saveConfig_ok_iff (c : Config) : (d.saveConfig c).1 = .ok () ↔ d.store.failWrites = false := by
  cases h : d.store.failWrites with
  | true =>
    obtain ⟨⟨why, hwhy⟩, -⟩ := saveConfig_refused h c
    simp [hwhy]
  | false => simp [saveConfig_put h]

theorem raw_of_saved (h : (d.saveConfig c).1 = .ok ()) : (d.saveConfig c).2.store.raw .config = some c.render := by
  rw [saveConfig_put ((saveConfig_ok_iff c).mp h)]
  exact (Store.raw_put d.store .config .config c.render).trans (if_pos rfl)

theorem loadConfig_of_render (hraw : d.store.raw .config = some c.render) (hreads : d.store.failReads = false) :
    d.loadConfig.1 = if c.fault? = none then c else .default := by
  have hread : d.store.readJson Config.ofBytes? .config = .ok (some c) :=
    Store.readJson_eq_some_iff.mpr ⟨hreads, _, hraw, Config.ofBytes?_eq_some_iff.mpr c.storedAs_render⟩
  split
  · rename_i hsound
    exact (keeps_iff.mpr ⟨hread, hsound⟩).loadConfig
  · rename_i hfault
    refine loadConfig_of_not_keeps fun k hk => ?_
    obtain ⟨hk, hsound⟩ := keeps_iff.mp hk
    rw [hread] at hk
    cases hk
    exact hfault hsound

/-- Whatever is stored and whether or not it can be read, the configuration that is loaded has no fault: it is the
one that is spelled if that has none, and else the default. A save that fails changes nothing. After one that
succeeds the same configuration is loaded wherever these bytes can be read, unless it has a fault. -/
theorem loaded_config_sound_and_faithful (d : Device) :
    d.loadConfig.1.fault? = none ∧
    (∀ c, d.loadConfig.1 = c ↔ d.Keeps c ∨ (c = .default ∧ ∀ k, ¬ d.Keeps k)) ∧
    ∀ c : Config,
      ((d.saveConfig c).1 = .ok () ↔ d.store.failWrites = false) ∧
      ((d.saveConfig c).1 ≠ .ok () → (d.saveConfig c).2 = d) ∧
      ((d.saveConfig c).1 = .ok () → ∀ later : Device,
        later.store.raw .config = (d.saveConfig c).2.store.raw .config → later.store.failReads = false →
        later.loadConfig.1 = if c.fault? = none then c else .default) := by
  refine ⟨d.sound_loadConfig, fun c => loadConfig_eq_iff, fun c => ⟨saveConfig_ok_iff c, ?_, ?_⟩⟩
  · intro hfailed
    rw [ne_eq, saveConfig_ok_iff, Bool.not_eq_false] at hfailed
    exact (saveConfig_refused hfailed c).2
  · intro hsaved later hraw hreads
    exact loadConfig_of_render (hraw.trans (raw_of_saved hsaved)) hreads

/-! ### A device of which little is said -/

def sparseConfig : Config := { Config.default with autofetchPeriodHours := 0 }

/-- It has stored `{"autofetch_period_hours":0}`. -/
def sparseDevice : Device :=
  { fresh .valid with store := Store.empty.put .config (Bytes.ofText "\x7b\"autofetch_period_hours\":0\x7d") }

def utmostConfig : Config :=
  ⟨0xffffffff, 0xffffffff, 0xffffffffffffffff, 0xffffffffffffffff, 0xffffffffffffffff, false⟩

theorem loaded_config_sound_and_faithful_sparse :
    sparseDevice.Keeps sparseConfig ∧ sparseDevice.loadConfig.1 = sparseConfig ∧
    (sparseDevice.saveConfig utmostConfig).1 = .ok () ∧
    (sparseDevice.saveConfig utmostConfig).2.loadConfig.1 = utmostConfig ∧
    (sparseDevice.saveConfig { utmostConfig with rollbackTimeoutSecs := 0 }).2.loadConfig.1 = .default := by
  have hstored : Config.ofBytes? (Bytes.ofText "\x7b\"autofetch_period_hours\":0\x7d") = some sparseConfig := by
    decide +kernel
  have hkeeps : sparseDevice.Keeps sparseConfig :=
    ⟨rfl, ⟨_, rfl, Config.ofBytes?_eq_some_iff.mp hstored⟩, rfl⟩
  obtain ⟨-, hload, hsave⟩ := loaded_config_sound_and_faithful sparseDevice
  obtain ⟨hok, -, hutmost⟩ := hsave utmostConfig
  obtain ⟨hok', -, hfaulty⟩ := hsave { utmostConfig with rollbackTimeoutSecs := 0 }
  refine ⟨hkeeps, (hload sparseConfig).mpr (.inl hkeeps), hok.mpr rfl, ?_, ?_⟩
  · exact hutmost (hok.mpr rfl) _ rfl (by rw [saveConfig_put rfl]; rfl)
  · exact hfaulty (hok'.mpr rfl) _ rfl (by rw [saveConfig_put rfl]; rfl)

end Device

end FirmwareUpdate
