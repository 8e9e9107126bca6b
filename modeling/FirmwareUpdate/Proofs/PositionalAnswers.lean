import FirmwareUpdate.Proofs.MemberOrder

/-!
# Answers by position

A record that is written as an array is the same as one that is written as an object: the items are the first
fields in the order of declaration. So some bodies that are no objects are answers to a fetch all the same.
-/

namespace FirmwareUpdate

namespace Json.Tree

def Admits {α : Type} (read : Tree → Option α) (t : Tree) : Prop := t = .null ∨ (read t).isSome

theorem optional_isSome_iff {α : Type} {read : Tree → Option α} {field : Option Tree} :
    (optional read field).isSome ↔ ∀ t ∈ field, Admits read t := by
  cases field with
  | none => exact iff_of_true rfl nofun
  | some t => cases t <;> simp [optional, nullable, Admits]

def namedItems (names : List String) (items : List Tree) : List (List Piece × Tree) :=
  (names.zip items).map fun p => (Piece.quoted p.1, p.2)

theorem named?_quoted (xs : List (String × Tree)) :
    named? (xs.map fun p => (Piece.quoted p.1, p.2)) = some xs := by
  induction xs with
  | nil => rfl
  | cons p xs ih => rw [List.map_cons, named?_cons, Piece.text?_quoted, ih]; rfl

theorem sole?_first {name : String} {xs : List (String × Tree)} (h : ∀ p ∈ xs, p.1 ≠ name) (t : Tree) :
    sole? ((name, t) :: xs) name = some (some t) := by
  unfold sole?
  rw [List.filter_cons_of_pos (by simp), List.filter_eq_nil_iff.mpr fun p hp => by simpa using h p hp]

theorem mapM_sole?_nil (names : List String) : names.mapM (sole? []) = some (List.replicate names.length none) := by
  induction names with
  | nil => rfl
  | cons name names ih => rw [List.mapM_cons, ih]; rfl

theorem mapM_sole?_zip {names : List String} (hnames : names.Nodup) {items : List Tree}
    (h : items.length ≤ names.length) : names.mapM (sole? (names.zip items)) =
      some (items.map some ++ List.replicate (names.length - items.length) none) := by
  induction names generalizing items with
  | nil => rw [List.length_eq_zero_iff.mp (Nat.le_zero.mp h)]; rfl
  | cons name names ih =>
    cases items with
    | nil => exact mapM_sole?_nil _
    | cons t items =>
      obtain ⟨hname, hnames⟩ := List.nodup_cons.mp hnames
      have hothers : ∀ p ∈ names.zip items, p.1 ≠ name := fun p hp he => hname (he ▸ (List.of_mem_zip hp).1)
      rw [List.zip_cons_cons, List.mapM_cons, sole?_first hothers, mapM_sole?_foreign hname,
        ih hnames (Nat.le_of_succ_le_succ h)]
      simp

/-- An array is read as the object that has its items under the names of the fields. -/
theorem fields?_array {names : List String} (hnames : names.Nodup) {items : List Tree}
    (h : items.length ≤ names.length) :
    fields? names (.array items) = fields? names (.object (namedItems names items)) := by
  unfold fields? namedItems
  dsimp only
  rw [if_pos h, named?_quoted]
  exact (mapM_sole?_zip hnames h).symm

end Json.Tree

open Json (Piece Tree Value)

namespace FetchAnswer

def kinds : List (Tree → Prop) :=
  [Tree.Admits Tree.text?, Tree.Admits Tree.text?, Tree.Admits (Tree.unsigned? 64), Tree.Admits Tree.text?,
   Tree.Admits (Value.ofTree? (Json.depthLimit - 1)), Tree.Admits Tree.signed?, Tree.Admits Tree.text?]

/-- No more items than fields, and each is one that the field in its place admits. -/
def InPlace (items : List Tree) : Prop := items.length ≤ fieldNames.length ∧ ∀ p ∈ items.zip kinds, p.2 p.1

theorem ofTree?_isSome_iff {t : Tree} {fields : List (Option Tree)} (h : t.fields? fieldNames = some fields)
    (hlength : fields.length = fieldNames.length) :
    (ofTree? t).isSome ↔ ∀ p ∈ fields.zip kinds, ∀ u ∈ p.1, p.2 u := by
  match fields, hlength with
  | [jobId, url, size, version, metadata, code, description], _ =>
    unfold ofTree?
    rw [h]
    simp only [kinds, List.zip_cons_cons, List.zip_nil_left, List.forall_mem_cons, ← Tree.optional_isSome_iff]
    simp [Option.isSome_bind, Option.any_eq_true, Option.isSome_iff_exists]

/-- A field that is missing is admitted anywhere. -/
theorem padded_iff (items : List Tree) (n : Nat) (ks : List (Tree → Prop)) :
    (∀ p ∈ (items.map some ++ List.replicate n none).zip ks, ∀ u ∈ p.1, p.2 u) ↔
      ∀ p ∈ items.zip ks, p.2 p.1 := by
  induction items generalizing ks with
  | nil =>
    refine iff_of_true ?_ nofun
    intro p hp u hu
    rw [List.eq_of_mem_replicate (List.of_mem_zip hp).1] at hu
    cases hu
  | cons t items ih =>
    cases ks with
    | nil => simp
    | cons k ks =>
      rw [List.map_cons, List.cons_append, List.zip_cons_cons, List.zip_cons_cons, List.forall_mem_cons,
        List.forall_mem_cons, ih ks]
      simp

theorem ofTree?_array_isSome_iff (items : List Tree) : (ofTree? (.array items)).isSome ↔ InPlace items := by
  by_cases h : items.length ≤ fieldNames.length
  · have hfields : Tree.fields? fieldNames (.array items) = some (items.map some ++ List.replicate _ none) := if_pos h
    rw [ofTree?_isSome_iff hfields (by simp; omega), padded_iff]
    exact (and_iff_right h).symm
  · have hfields : Tree.fields? fieldNames (.array items) = none := if_neg h
    rw [ofTree?_unread hfields]
    exact iff_of_false nofun fun hin => h hin.1

theorem fieldNames_nodup : fieldNames.Nodup := by decide

end FetchAnswer

namespace Payload

variable {body : Bytes}

/-- A body that is no object is an answer exactly if it is an array of the fields in their places; it says then
what the object of the fields says. -/
theorem ofBytes_of_not_object {t : Tree} (hbody : t.WrittenAs body) (ht : ∀ members, t ≠ .object members) :
    (Unreadable body ↔ ∀ items, t = .array items → ¬ FetchAnswer.InPlace items) ∧
    ∀ items, t = .array items → FetchAnswer.InPlace items →
      ∃ a, FetchAnswer.ofTree? (.object (Tree.namedItems FetchAnswer.fieldNames items)) = some a ∧
        Payload.ofBytes body = a.payload := by
  have hanswer := FetchAnswer.ofBytes?_of_written hbody
  constructor
  · rw [unreadable_iff, hanswer]
    cases t with
    | object members => exact absurd rfl (ht members)
    | array items =>
      rw [← Option.not_isSome_iff_eq_none, FetchAnswer.ofTree?_array_isSome_iff]
      exact ⟨fun h _ he => Tree.array.inj he ▸ h, fun h => h items rfl⟩
    | _ => exact iff_of_true rfl nofun
  · rintro items rfl hin
    obtain ⟨a, ha⟩ := Option.isSome_iff_exists.mp ((FetchAnswer.ofTree?_array_isSome_iff items).mpr hin)
    refine ⟨a, ?_, ?_⟩
    · rw [← ha]
      exact FetchAnswer.ofTree?_congr (Tree.fields?_array FetchAnswer.fieldNames_nodup hin.1).symm
    · rw [Payload.ofBytes, hanswer, ha]

/-! ### An offer that is an array -/

def listedOffer : List Tree :=
  [.text (Piece.quoted "j"), .text (Piece.quoted "u"), .number ⟨false, [5], [], none⟩]

def listedOfferText : Bytes := Bytes.ofText "[\"j\",\"u\",5]"

theorem ofBytes_of_not_object_listed :
    (Tree.array listedOffer).WrittenAs listedOfferText ∧ FetchAnswer.InPlace listedOffer ∧
    ¬ Unreadable listedOfferText ∧
    ∃ a, FetchAnswer.ofTree? (.object (Tree.namedItems FetchAnswer.fieldNames listedOffer)) = some a ∧
      Payload.ofBytes listedOfferText = a.payload := by
  have hbody : (Tree.array listedOffer).WrittenAs listedOfferText := by decide +kernel
  have hin : FetchAnswer.InPlace listedOffer := (FetchAnswer.ofTree?_array_isSome_iff _).mp (by decide +kernel)
  obtain ⟨hunreadable, hsays⟩ := ofBytes_of_not_object hbody nofun
  exact ⟨hbody, hin, fun h => hunreadable.mp h _ rfl hin, hsays _ rfl hin⟩

/-- Two arrays, and neither is refused: one offers a job, the other, which is empty, lacks the job's id. -/
theorem arrays_answer :
    (Tree.array listedOffer).WrittenAs listedOfferText ∧
    Payload.ofBytes listedOfferText = .ok (.job ⟨"j", "u", 5, none, none⟩) ∧
    (Tree.array []).WrittenAs (Bytes.ofText "[]") ∧
    Payload.ofBytes (Bytes.ofText "[]") = .ok (.rejected none .missingId) := by
  have hlisted : (Tree.array listedOffer).WrittenAs listedOfferText := by decide +kernel
  have hempty : (Tree.array []).WrittenAs (Bytes.ofText "[]") := by decide +kernel
  refine ⟨hlisted, ?_, hempty, ?_⟩
  · rw [Payload.ofBytes, FetchAnswer.ofBytes?_of_written hlisted]
    rfl
  · rw [Payload.ofBytes, FetchAnswer.ofBytes?_of_written hempty]
    rfl

end Payload

end FirmwareUpdate
