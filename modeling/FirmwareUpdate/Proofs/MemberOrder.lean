import FirmwareUpdate.Job
import FirmwareUpdate.Proofs.WrittenTexts

/-!
# The order of members

A record that is written as an object is found whatever the order of its members and whatever other members
stand among them. Only the names of those must be texts: a name that is none spoils the object.
-/

namespace FirmwareUpdate

namespace Json.Tree

variable {names : List String} {members others : List (List Piece × Tree)}

/-- A member whose name is a text, and none of these. -/
def Foreign (names : List String) (m : List Piece × Tree) : Prop :=
  ∃ name, Piece.text? m.1 = some name ∧ name ∉ names

/-- The members are put in another order, and foreign ones come and go. -/
inductive Rearranged (names : List String) : List (List Piece × Tree) → List (List Piece × Tree) → Prop
  | permuted {ms ns : List (List Piece × Tree)} (h : ms.Perm ns) : Rearranged names ms ns
  | inserted {m : List Piece × Tree} (h : Foreign names m) (front back : List (List Piece × Tree)) :
    Rearranged names (front ++ back) (front ++ m :: back)
  | removed {m : List Piece × Tree} (h : Foreign names m) (front back : List (List Piece × Tree)) :
    Rearranged names (front ++ m :: back) (front ++ back)
  | trans {ms ns ks : List (List Piece × Tree)} (h : Rearranged names ms ns) (h' : Rearranged names ns ks) :
    Rearranged names ms ks

theorem named?_cons (m : List Piece × Tree) (ms : List (List Piece × Tree)) :
    named? (m :: ms) = (Piece.text? m.1).bind fun name => (named? ms).map ((name, m.2) :: ·) := by
  unfold named?
  rw [List.mapM_cons]
  cases Piece.text? m.1 <;> cases ms.mapM fun m => (Piece.text? m.1).map (·, m.2) <;> rfl

theorem named?_perm (h : members.Perm others) {xs : List (String × Tree)} (hx : named? members = some xs) :
    ∃ ys, named? others = some ys ∧ xs.Perm ys := by
  induction h generalizing xs with
  | nil => exact ⟨xs, hx, .refl xs⟩
  | cons m _ ih =>
    rw [named?_cons] at hx
    obtain ⟨name, hname, hx⟩ := Option.bind_eq_some_iff.mp hx
    obtain ⟨zs, hz, rfl⟩ := Option.map_eq_some_iff.mp hx
    obtain ⟨ys, hy, hperm⟩ := ih hz
    exact ⟨(name, m.2) :: ys, by rw [named?_cons, hname, hy]; rfl, hperm.cons _⟩
  | swap m n ms =>
    simp only [named?_cons] at hx
    obtain ⟨name, hname, hx⟩ := Option.bind_eq_some_iff.mp hx
    obtain ⟨zs, hz, rfl⟩ := Option.map_eq_some_iff.mp hx
    obtain ⟨name', hname', hz⟩ := Option.bind_eq_some_iff.mp hz
    obtain ⟨rest, hrest, rfl⟩ := Option.map_eq_some_iff.mp hz
    refine ⟨(name', m.2) :: (name, n.2) :: rest, ?_, .swap _ _ rest⟩
    rw [named?_cons, named?_cons, hname, hname', hrest]
    rfl
  | trans _ _ ih ih' =>
    obtain ⟨ys, hy, hperm⟩ := ih hx
    obtain ⟨zs, hz, hperm'⟩ := ih' hy
    exact ⟨zs, hz, hperm.trans hperm'⟩

theorem sole?_perm {xs ys : List (String × Tree)} (h : xs.Perm ys) (name : String) :
    sole? xs name = sole? ys name := by
  have hfilter := h.filter (·.1 == name)
  unfold sole?
  generalize xs.filter (·.1 == name) = ps at hfilter
  generalize ys.filter (·.1 == name) = qs at hfilter
  match ps, qs, hfilter.length_eq with
  | [], [], _ => rfl
  | [p], [q], _ => rw [List.singleton_perm_singleton.mp hfilter]
  | _ :: _ :: _, _ :: _ :: _, _ => rfl

theorem sole?_foreign {name other : String} (h : other ≠ name) (t : Tree) (xs : List (String × Tree)) :
    sole? ((other, t) :: xs) name = sole? xs name := by
  unfold sole?
  rw [List.filter_cons_of_neg (by simpa using h)]

theorem fields?_permuted (h : members.Perm others) :
    fields? names (.object members) = fields? names (.object others) := by
  have half {ms ns : List (List Piece × Tree)} (h : ms.Perm ns) {found : List (Option Tree)}
      (hfound : fields? names (.object ms) = some found) : fields? names (.object ns) = some found := by
    obtain ⟨xs, hx, hfound⟩ := Option.bind_eq_some_iff.mp hfound
    obtain ⟨ys, hy, hperm⟩ := named?_perm h hx
    rw [funext (sole?_perm hperm)] at hfound
    exact Option.bind_eq_some_iff.mpr ⟨ys, hy, hfound⟩
  exact Option.ext fun found => ⟨half h, half h.symm⟩

theorem mapM_sole?_foreign {name : String} (h : name ∉ names) (t : Tree) (xs : List (String × Tree)) :
    names.mapM (sole? ((name, t) :: xs)) = names.mapM (sole? xs) := by
  induction names with
  | nil => rfl
  | cons k names ih =>
    have hk : name ≠ k := fun he => h (he ▸ List.mem_cons_self)
    rw [List.mapM_cons, List.mapM_cons, sole?_foreign hk, ih fun hm => h (List.mem_cons_of_mem k hm)]

theorem fields?_foreign {m : List Piece × Tree} (h : Foreign names m) (ms : List (List Piece × Tree)) :
    fields? names (.object (m :: ms)) = fields? names (.object ms) := by
  obtain ⟨name, hname, hforeign⟩ := h
  unfold fields?
  dsimp only
  rw [named?_cons, hname]
  cases named? ms with
  | none => rfl
  | some xs => exact mapM_sole?_foreign hforeign m.2 xs

theorem fields?_inserted {m : List Piece × Tree} (h : Foreign names m) (front back : List (List Piece × Tree)) :
    fields? names (.object (front ++ m :: back)) = fields? names (.object (front ++ back)) := by
  rw [fields?_permuted List.perm_middle, fields?_foreign h]

theorem fields?_rearranged (h : Rearranged names members others) :
    fields? names (.object members) = fields? names (.object others) := by
  induction h with
  | permuted h => exact fields?_permuted h
  | inserted h front back => exact (fields?_inserted h front back).symm
  | removed h front back => exact fields?_inserted h front back
  | trans _ _ ih ih' => exact ih.trans ih'

theorem fields?_unnamed {m : List Piece × Tree} (hm : m ∈ members) (h : Piece.text? m.1 = none) :
    fields? names (.object members) = none := by
  have hnone : named? members = none := by
    induction members with
    | nil => cases hm
    | cons n ms ih =>
      rw [named?_cons]
      rcases List.mem_cons.mp hm with rfl | hm
      · rw [h]
        rfl
      · rw [ih hm]
        cases Piece.text? n.1 <;> rfl
  unfold fields?
  dsimp only
  rw [hnone]
  rfl

end Json.Tree

open Json (Piece Tree)

/-! ## Answers to a fetch -/

variable {body body' : Bytes} {members others : List (List Piece × Tree)}

theorem FetchAnswer.ofBytes?_of_written {t : Tree} (h : t.WrittenAs body) : ofBytes? body = ofTree? t := by
  rw [ofBytes?, h.ofBytes?]
  rfl

theorem FetchAnswer.ofTree?_congr {t u : Tree} (h : t.fields? fieldNames = u.fields? fieldNames) :
    ofTree? t = ofTree? u := by
  rw [ofTree?, ofTree?, h]

theorem FetchAnswer.ofTree?_unread {t : Tree} (h : t.fields? fieldNames = none) : ofTree? t = none := by
  rw [ofTree?, h]
  rfl

namespace Payload

def Unreadable (body : Bytes) : Prop := ∃ why, Payload.ofBytes body = .error (.parse why)

theorem unreadable_iff : Unreadable body ↔ FetchAnswer.ofBytes? body = none := by
  unfold Unreadable Payload.ofBytes
  cases h : FetchAnswer.ofBytes? body with
  | none => exact iff_of_true ⟨_, rfl⟩ rfl
  | some a =>
    refine iff_of_false ?_ nofun
    rintro ⟨why, hwhy⟩
    dsimp only [FetchAnswer.payload] at hwhy
    split at hwhy
    · split at hwhy <;> cases hwhy
    · split at hwhy
      · cases hwhy
      · split at hwhy
        · cases hwhy
        · split at hwhy <;> cases hwhy

theorem ofBytes_congr (h : FetchAnswer.ofBytes? body = FetchAnswer.ofBytes? body') :
    Payload.ofBytes body = Payload.ofBytes body' := by
  rw [Payload.ofBytes, Payload.ofBytes, h]

/-- An object says the same in whatever order its members stand, whatever foreign members are among them and
however it is spaced. If the name of a member is no text, it says nothing. -/
theorem ofBytes_rearranged (hbody : (Tree.object members).WrittenAs body)
    (hbody' : (Tree.object others).WrittenAs body') (h : Tree.Rearranged FetchAnswer.fieldNames members others) :
    Payload.ofBytes body' = Payload.ofBytes body ∧
    ((∃ m ∈ members, Piece.text? m.1 = none) → Unreadable body) := by
  constructor
  · refine ofBytes_congr ?_
    rw [FetchAnswer.ofBytes?_of_written hbody, FetchAnswer.ofBytes?_of_written hbody']
    exact FetchAnswer.ofTree?_congr (Tree.fields?_rearranged h).symm
  · rintro ⟨m, hm, hname⟩
    rw [unreadable_iff, FetchAnswer.ofBytes?_of_written hbody]
    exact FetchAnswer.ofTree?_unread (Tree.fields?_unnamed hm hname)

/-! ### An offer told in another way -/

def offer : List (List Piece × Tree) :=
  [(Piece.quoted "ota_job_id", .text (Piece.quoted "B")), (Piece.quoted "url", .text (Piece.quoted "u")),
   (Piece.quoted "file_size", .number ⟨false, [4], [], none⟩)]

def offerText : Bytes :=
  Bytes.ofText "\x7b\"ota_job_id\":\"B\",\"url\":\"u\",\"file_size\":4\x7d"

theorem offer_written : (Tree.object offer).WrittenAs offerText := by decide +kernel

theorem offer_job : Payload.ofBytes offerText = .ok (.job ⟨"B", "u", 4, none, none⟩) := by
  rw [Payload.ofBytes, FetchAnswer.ofBytes?_of_written offer_written]
  rfl

/-- A member called `x`, spelled `\u0078`, with a number in it that no double comes near. -/
def remark : List Piece × Tree :=
  ([.unit 0x78], .array [.array [.number ⟨true, [1], [], some ⟨false, [9, 9, 9]⟩⟩]])

def shuffledOffer : List (List Piece × Tree) :=
  [(Piece.quoted "file_size", .number ⟨false, [4], [], none⟩), remark,
   (Piece.quoted "url", .text (Piece.quoted "u")), (Piece.quoted "ota_job_id", .text (Piece.quoted "B"))]

def shuffledText : Bytes :=
  Bytes.ofText
    "\n\x7b \"file_size\" : 4,\"\\u0078\":[[-1E+999] ],\t\"url\":\"u\",\"ota_job_id\":\"B\"\r\n\x7d "

def halved : List Piece × Tree := ([.unit 0xd800], .number ⟨false, [1], [], none⟩)

def halvedText : Bytes :=
  Bytes.ofText "\x7b\"ota_job_id\":\"B\",\"url\":\"u\",\"file_size\":4,\"\\ud800\":1\x7d"

theorem halved_written : (Tree.object (offer ++ [halved])).WrittenAs halvedText := by decide +kernel

theorem ofBytes_rearranged_shuffled :
    (Tree.object offer).WrittenAs offerText ∧ (Tree.object shuffledOffer).WrittenAs shuffledText ∧
    Tree.Rearranged FetchAnswer.fieldNames offer shuffledOffer ∧
    Payload.ofBytes shuffledText = .ok (.job ⟨"B", "u", 4, none, none⟩) ∧
    (Tree.object (offer ++ [halved])).WrittenAs halvedText ∧ Unreadable halvedText := by
  have hshuffled : (Tree.object shuffledOffer).WrittenAs shuffledText := by decide +kernel
  have hforeign : Tree.Foreign FetchAnswer.fieldNames remark :=
    ⟨"x", by decide +kernel, by decide⟩
  have h : Tree.Rearranged FetchAnswer.fieldNames offer shuffledOffer :=
    .trans (.permuted (List.reverse_perm offer).symm) (.inserted hforeign [_] [_, _])
  have hsame := (ofBytes_rearranged offer_written hshuffled h).1
  have hunnamed : ∃ m ∈ offer ++ [halved], Piece.text? m.1 = none := ⟨halved, by simp, by decide +kernel⟩
  have hunreadable := (ofBytes_rearranged halved_written halved_written (.permuted (.refl _))).2 hunnamed
  exact ⟨offer_written, hshuffled, h, hsame.trans offer_job, halved_written, hunreadable⟩

/-- A member of none of the seven names, and still the offer is not what it was. -/
theorem halved_name_unreadable :
    (Tree.object offer).WrittenAs offerText ∧ (Tree.object (offer ++ [halved])).WrittenAs halvedText ∧
    (∀ name ∈ FetchAnswer.fieldNames, Piece.text? halved.1 ≠ some name) ∧
    Payload.ofBytes offerText = .ok (.job ⟨"B", "u", 4, none, none⟩) ∧ Unreadable halvedText := by
  have hnone : (FetchAnswer.ofBytes? halvedText).isNone = true := by decide +kernel
  exact ⟨offer_written, halved_written, by decide +kernel, offer_job,
    unreadable_iff.mpr (Option.isNone_iff_eq_none.mp hnone)⟩

end Payload

end FirmwareUpdate
