import FirmwareUpdate.Agent
import FirmwareUpdate.Proofs.TextCuts
import FirmwareUpdate.Rehearsal.Terminal
import Mathlib.Data.List.Forall2

/-!
# Module names on the console

The line of a record names the last segment of its module's path, cut to the width of a column that is counted in
bytes. The cut does not look where characters end. A record in whose segment a character lies across the cut has no
line, and the session ends with it; every other record that the verbosity allows is printed.
-/

namespace FirmwareUpdate

namespace Console

/-! ## The last segment -/

/-- What follows the last separator of a path, or all of it when there is none. -/
structure LastSegment (path segment : String) : Prop where
  ends : path = segment ∨ ∃ front, path = front ++ "::" ++ segment
  /-- No separator has less behind it. -/
  last : ∀ front back, path = front ++ "::" ++ back → segment.length ≤ back.length

theorem backToColons_ends (cs : List Char) :
    cs = backToColons cs ∨ ∃ rest, cs = backToColons cs ++ ':' :: ':' :: rest := by
  fun_induction backToColons cs with
  | case1 rest => exact .inr ⟨rest, rfl⟩
  | case2 c cs _ ih =>
    rcases ih with hall | ⟨rest, hrest⟩
    · exact .inl (congrArg (c :: ·) hall)
    · exact .inr ⟨rest, congrArg (c :: ·) hrest⟩
  | case3 => exact .inl rfl

theorem length_backToColons_le (back rest : List Char) :
    (backToColons (back ++ ':' :: ':' :: rest)).length ≤ back.length := by
  induction back with
  | nil => exact Nat.le_refl 0
  | cons c back ih =>
    rw [List.cons_append, backToColons.eq_def]
    split
    · exact Nat.zero_le _
    · rename_i heq
      obtain ⟨rfl, rfl⟩ := List.cons.inj heq
      exact Nat.succ_le_succ ih
    · contradiction

theorem lastSegment_last (path : String) : LastSegment path (lastSegment path) where
  ends := by
    rcases backToColons_ends path.toList.reverse with hall | ⟨rest, hrest⟩
    · left
      rw [lastSegment, ← hall, List.reverse_reverse, String.ofList_toList]
    · right
      refine ⟨String.ofList rest.reverse, ?_⟩
      rw [← String.toList_inj]
      simpa [lastSegment] using congrArg List.reverse hrest
  last := by
    rintro front back rfl
    have hle := length_backToColons_le back.toList.reverse front.toList.reverse
    simpa [lastSegment, ← String.length_toList] using hle

theorem LastSegment.unique {path s t : String} (hs : LastSegment path s) (ht : LastSegment path t) : s = t := by
  have hshort : ∀ {front back : String}, (front ++ "::" ++ back).length ≤ back.length → False := by
    intro front back h
    simp only [String.length_append] at h
    have : "::".length = 2 := rfl
    omega
  rcases hs.ends with rfl | ⟨front, rfl⟩
  · rcases ht.ends with rfl | ⟨front, rfl⟩
    · rfl
    · exact (hshort (hs.last front t rfl)).elim
  · rcases ht.ends with rfl | ⟨front', heq⟩
    · exact (hshort (ht.last front s rfl)).elim
    · have hlen := Nat.le_antisymm (hs.last front' t heq) (ht.last front s rfl)
      have heq := congrArg String.toList heq
      simp only [String.toList_append] at heq
      exact String.toList_inj.mp (List.append_inj_right' heq hlen)

theorem lastSegment_iff {path segment : String} : LastSegment path segment ↔ lastSegment path = segment := by
  constructor
  · exact (lastSegment_last path).unique
  · rintro rfl
    exact lastSegment_last path

theorem LastSegment.subset {path segment : String} (h : LastSegment path segment) :
    segment.toList ⊆ path.toList := by
  rcases h.ends with rfl | ⟨front, rfl⟩
  · exact List.Subset.refl _
  · rw [String.toList_append]
    exact List.subset_append_right _ _

/-! ## The column -/

inductive Names : Option String → String → Prop
  | unknown : Names none "unknown"
  | cut {path segment name : String} :
      LastSegment path segment → Text.CutTo moduleWidth segment name → Names (some path) name

inductive Severed : Option String → Prop
  | straddled {path segment : String} :
      LastSegment path segment → Text.Straddled moduleWidth segment → Severed (some path)

theorem shortModule?_eq_some_iff {path : Option String} {name : String} :
    shortModule? path = some name ↔ Names path name := by
  cases path with
  | none =>
    constructor
    · rintro ⟨⟩
      exact .unknown
    · rintro ⟨⟩
      rfl
  | some path =>
    rw [shortModule?, Text.cutAt?_eq_some_iff]
    constructor
    · exact .cut (lastSegment_last path)
    · rintro (_ | ⟨hsegment, hcut⟩)
      rwa [lastSegment_iff.mp hsegment]

theorem shortModule?_eq_none_iff {path : Option String} : shortModule? path = none ↔ Severed path := by
  cases path with
  | none => exact ⟨nofun, nofun⟩
  | some path =>
    rw [shortModule?, Text.cutAt?_eq_none_iff]
    constructor
    · exact .straddled (lastSegment_last path)
    · rintro ⟨hsegment, hacross⟩
      rwa [lastSegment_iff.mp hsegment]

theorem not_severed_iff {path : Option String} : ¬ Severed path ↔ ∃ name, shortModule? path = some name := by
  rw [← shortModule?_eq_none_iff]
  exact Option.ne_none_iff_exists'

/-- Names of characters of one byte can always be cut. -/
theorem not_severed_of_ascii {path : String} (h : ∀ c ∈ path.toList, c.utf8Size = 1) : ¬ Severed (some path) := by
  rintro ⟨hsegment, hacross⟩
  exact Text.not_straddled_of_ascii (fun c hc => h c (hsegment.subset hc)) _ hacross

end Console

namespace Rehearsal.Terminal

/-! ## Sessions -/

/-- The entries that a line is due for: what sets the verbosity, and the records that are allowed when they come. -/
def due : Console → List Entry → List Entry
  | _, [] => []
  | c, .setVerbosity name :: rest => .setVerbosity name :: due (c.setVerbosity name).2 rest
  | c, .record level path message :: rest =>
    if c.prints level then .record level path message :: due c rest else due c rest

inductive Shows (stamp : String) : Entry → String → Prop
  | setVerbosity {name : String} {ok : Bool} :
      ok = (Verbosity.ofName? name).isSome → Shows stamp (.setVerbosity name) s!"set {ok}"
  | record {path : Option String} {name : String} (level : Level) (message : String) :
      Console.Names path name → Shows stamp (.record level path message) (Console.line stamp level name message)

/-- One line for each entry in turn, as far as the first record whose module cannot be named. -/
inductive Transcript (stamp : String) : List Entry → List String → Prop
  | done : Transcript stamp [] []
  | shown {e : Entry} {es : List Entry} {line : String} {lines : List String} :
      Shows stamp e line → Transcript stamp es lines → Transcript stamp (e :: es) (line :: lines)
  | ended {path : Option String} {es : List Entry} (level : Level) (message : String) :
      Console.Severed path → Transcript stamp (.record level path message :: es) []

theorem setVerbosity_ok (c : Console) (name : String) :
    (c.setVerbosity name).1 = (Verbosity.ofName? name).isSome := by
  rw [Console.setVerbosity]
  cases Verbosity.ofName? name <;> rfl

theorem session_transcript (stamp : String) (c : Console) (entries : List Entry) :
    Transcript stamp (due c entries) (session stamp c entries) := by
  induction entries generalizing c with
  | nil => exact .done
  | cons e rest ih =>
    cases e with
    | setVerbosity name =>
      rw [session, due]
      exact .shown (.setVerbosity (setVerbosity_ok c name)) (ih _)
    | record level path message =>
      rw [session, due]
      split
      · cases hname : Console.shortModule? path with
        | some name => exact .shown (.record level message (Console.shortModule?_eq_some_iff.mp hname)) (ih c)
        | none => exact .ended level message (Console.shortModule?_eq_none_iff.mp hname)
      · exact ih c

theorem Shows.not_severed {stamp line message : String} {level : Level} {path : Option String}
    (h : Shows stamp (.record level path message) line) : ¬ Console.Severed path := by
  cases h with
  | record _ _ hname => exact Console.not_severed_iff.mpr ⟨_, Console.shortModule?_eq_some_iff.mpr hname⟩

/-- Nothing is left out just if no name is severed. -/
theorem Transcript.complete_iff {stamp : String} {es : List Entry} {lines : List String}
    (h : Transcript stamp es lines) :
    List.Forall₂ (Shows stamp) es lines ↔
      ∀ level path message, .record level path message ∈ es → ¬ Console.Severed path := by
  constructor
  · intro hall level path message hin
    clear h
    induction hall with
    | nil => cases hin
    | cons hline _ ih =>
      rcases List.mem_cons.mp hin with rfl | hin
      · exact hline.not_severed
      · exact ih hin
  · intro hwhole
    induction h with
    | done => exact .nil
    | shown hline _ ih =>
      exact .cons hline (ih fun level path message hin => hwhole level path message (List.mem_cons_of_mem _ hin))
    | ended level message hsevered => exact absurd hsevered (hwhole level _ message List.mem_cons_self)

/-- A record's module can be named just if the cut severs no character of it. A session prints the lines of its records
as far as the first that cannot be named, so it prints the line of every record just if none is severed. -/
theorem every_record_printed_iff (stamp : String) (c : Console) (entries : List Entry) :
    (∀ path, (∃ name, Console.shortModule? path = some name ∧ Console.Names path name) ↔ ¬ Console.Severed path) ∧
    Transcript stamp (due c entries) (session stamp c entries) ∧
    (List.Forall₂ (Shows stamp) (due c entries) (session stamp c entries) ↔
      ∀ level path message, .record level path message ∈ due c entries → ¬ Console.Severed path) := by
  have htranscript := session_transcript stamp c entries
  refine ⟨fun path => ?_, htranscript, htranscript.complete_iff⟩
  simp only [← Console.shortModule?_eq_some_iff, and_self, Console.not_severed_iff]

/-- An error from a module with an umlaut across the cut is not printed. -/
theorem umlaut_severed :
    (¬ ∃ name, Console.shortModule? (some "cloud_ota::firmware_prüfung") = some name) ∧
    Console.silent.install.2.prints .error = true ∧
    run "T" 1 [.record .error (some "cloud_ota::firmware_prüfung") "text"] = ["init ok"] := by
  have hnone : Console.shortModule? (some "cloud_ota::firmware_prüfung") = none := by decide +kernel
  refine ⟨by simp [hnone], rfl, ?_⟩
  simp only [run, install, Console.install, Console.silent, session, hnone]
  rfl

end Rehearsal.Terminal

/-! ## The agent's lines -/

theorem Origin.not_severed (o : Origin) : ¬ Console.Severed (some o.name) := by
  have hascii : o.name.toList.all (·.utf8Size == 1) = true := by cases o <;> rfl
  exact Console.not_severed_of_ascii fun c hc => eq_of_beq (List.all_eq_true.mp hascii c hc)

/-- Every event that the verbosity allows has its line. -/
theorem Agent.lines_complete (stamp : String) (c : Console) (journal : List Event) :
    ∃ column : Event → String, (∀ e, Console.Names (some e.origin.name) (column e)) ∧
      lines stamp c journal = (journal.filter fun e => c.prints e.level).map fun e =>
        (column e, Console.line stamp e.level (column e) e.text) := by
  have hnamed : ∀ e : Event, ∃ name, Console.shortModule? (some e.origin.name) = some name :=
    fun e => Console.not_severed_iff.mp e.origin.not_severed
  obtain ⟨column, hcolumn⟩ := Classical.skolem.mp hnamed
  refine ⟨column, fun e => Console.shortModule?_eq_some_iff.mp (hcolumn e), ?_⟩
  simp only [lines, hcolumn, Option.map_some, List.filterMap_eq_map']

end FirmwareUpdate
