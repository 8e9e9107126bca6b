import FirmwareUpdate.Proofs.MemberOrder

/-!
# Salvaged ids

The id of a job is salvaged from a body by reading it once more, as a value in which the last of several members
of a name counts. For an answer, in which a declared field may stand only once, both readings find one id.
-/

namespace FirmwareUpdate

namespace Json

theorem Value.lookup_cons (name k : String) (w : Value) (members : List (String × Value)) :
    ((k, w) :: members).lookup name = if name = k then some w else members.lookup name := by
  rw [List.lookup_cons]
  by_cases h : name = k <;> simp [h, beq_false_of_ne]

theorem Value.lookup_insert (key name : String) (v : Value) (members : List (String × Value)) :
    (insert key v members).lookup name = if name = key then some v else members.lookup name := by
  induction members with
  | nil => exact lookup_cons name key v []
  | cons m rest ih =>
    obtain ⟨k, w⟩ := m
    unfold insert
    split
    · exact lookup_cons name key v _
    · split
      · rename_i hkey
        subst hkey
        rw [lookup_cons, lookup_cons]
        split <;> rfl
      · rename_i hkey
        rw [lookup_cons, lookup_cons, ih]
        by_cases h : name = key
        · rw [if_pos h, if_pos h, if_neg fun hk => hkey (h ▸ hk)]
        · rw [if_neg h, if_neg h]

namespace Tree

theorem sole?_same {name : String} {t : Tree} {xs : List (String × Tree)} {field : Option Tree}
    (h : sole? ((name, t) :: xs) name = some field) : field = some t ∧ sole? xs name = some none := by
  unfold sole? at h ⊢
  rw [List.filter_cons_of_pos (by simp)] at h
  generalize xs.filter (·.1 == name) = found at h ⊢
  cases found with
  | nil =>
    cases h
    exact ⟨rfl, rfl⟩
  | cons p rest => cases h

end Tree

/-- What a kept object has under a name that stands in it once at most. -/
theorem Value.lookup_membersOf? {depth : Nat} {before vs : List (String × Value)}
    {members : List (List Piece × Tree)} (hv : membersOf? depth before members = some vs)
    {xs : List (String × Tree)} (hx : Tree.named? members = some xs) {name : String} {field : Option Tree}
    (h : Tree.sole? xs name = some field) :
    vs.lookup name = match field with
      | some t => ofTree? depth t
      | none => before.lookup name := by
  induction members generalizing before xs field with
  | nil =>
    cases hx
    cases h
    cases hv
    rfl
  | cons m members ih =>
    obtain ⟨key, t⟩ := m
    rw [Tree.named?_cons] at hx
    obtain ⟨k, hkey, hx⟩ := Option.bind_eq_some_iff.mp hx
    obtain ⟨rest, hrest, rfl⟩ := Option.map_eq_some_iff.mp hx
    unfold membersOf? at hv
    rw [hkey, Option.bind_eq_bind, Option.bind_some] at hv
    obtain ⟨v, hvalue, hv⟩ := Option.bind_eq_some_iff.mp hv
    by_cases hk : k = name
    · subst hk
      obtain ⟨rfl, hothers⟩ := Tree.sole?_same h
      rw [ih hv hrest hothers]
      dsimp only
      rw [lookup_insert, if_pos rfl, hvalue]
    · rw [Tree.sole?_foreign hk] at h
      rw [ih hv hrest h]
      cases field with
      | none => exact (lookup_insert k name v before).trans (if_neg (Ne.symm hk))
      | some u => rfl

/-- A text that is read in a record is kept as that text; what is read as nothing is kept as no text. -/
theorem Value.text?_of_optional {depth : Nat} {field : Option Tree} {s : Option String}
    (h : Tree.optional Tree.text? field = some s) : (field.bind (ofTree? depth)).bind text? = s := by
  cases field with
  | none =>
    cases h
    rfl
  | some t =>
    cases t with
    | null =>
      cases h
      simp [ofTree?, text?]
    | text ps =>
      obtain ⟨x, hx, rfl⟩ := Option.map_eq_some_iff.mp h
      have hx : Piece.text? ps = some x := hx
      simp [ofTree?, hx, text?]
    | _ => cases h

end Json

open Json (Piece Tree Value)

namespace FetchAnswer

theorem payload_uncoded {a : FetchAnswer} (hcode : a.errorCode = none) :
    (∃ r, a.payload = .ok (.rejected (present a.jobId) r)) ∨
    ∃ job, a.payload = .ok (.job job) ∧ present a.jobId = some job.id := by
  unfold payload
  rw [hcode]
  dsimp only
  cases present a.jobId with
  | none => exact .inl ⟨_, rfl⟩
  | some id =>
    cases present a.url with
    | none => exact .inl ⟨_, rfl⟩
    | some url =>
      cases a.size with
      | none => exact .inl ⟨_, rfl⟩
      | some size => exact .inr ⟨_, rfl, rfl⟩

/-- The member that the job's id is read from. -/
theorem sole?_jobId {members : List (List Piece × Tree)} {a : FetchAnswer} (h : ofTree? (.object members) = some a) :
    ∃ xs field, Tree.named? members = some xs ∧ Tree.sole? xs "ota_job_id" = some field ∧
      Tree.optional Tree.text? field = some a.jobId := by
  obtain ⟨fields, hfields, h⟩ := Option.bind_eq_some_iff.mp h
  obtain ⟨xs, hx, hfields⟩ := Option.bind_eq_some_iff.mp hfields
  rw [fieldNames, List.mapM_cons] at hfields
  obtain ⟨field, hfield, hfields⟩ := Option.bind_eq_some_iff.mp hfields
  obtain ⟨others, -, hfields⟩ := Option.bind_eq_some_iff.mp hfields
  cases hfields
  split at h
  · rename_i heq
    cases heq
    obtain ⟨id, hid, h⟩ := Option.bind_eq_some_iff.mp h
    obtain ⟨_, -, h⟩ := Option.bind_eq_some_iff.mp h
    obtain ⟨_, -, h⟩ := Option.bind_eq_some_iff.mp h
    obtain ⟨_, -, h⟩ := Option.bind_eq_some_iff.mp h
    obtain ⟨_, -, h⟩ := Option.bind_eq_some_iff.mp h
    obtain ⟨_, -, h⟩ := Option.bind_eq_some_iff.mp h
    obtain ⟨_, -, h⟩ := Option.bind_eq_some_iff.mp h
    cases h
    exact ⟨xs, field, hx, hfield, hid⟩
  · cases h

end FetchAnswer

variable {body : Bytes} {members : List (List Piece × Tree)} {a : FetchAnswer} {v : Value}

theorem salvageJobId_of_answer (hbody : (Tree.object members).WrittenAs body)
    (ha : FetchAnswer.ofBytes? body = some a) (hv : Value.ofBytes? body = some v) :
    salvageJobId body = FetchAnswer.present a.jobId := by
  rw [FetchAnswer.ofBytes?_of_written hbody] at ha
  obtain ⟨xs, field, hx, hfield, hid⟩ := FetchAnswer.sole?_jobId ha
  have hkept : Value.ofTree? Json.depthLimit (.object members) = some v := by
    rw [← hv, Value.ofBytes?, hbody.ofBytes?]
    rfl
  obtain ⟨vs, hvs, rfl⟩ := Option.map_eq_some_iff.mp (show
    (Value.membersOf? (Json.depthLimit - 1) [] members).map .object = some v from hkept)
  have hmember : vs.lookup "ota_job_id" = field.bind (Value.ofTree? (Json.depthLimit - 1)) := by
    rw [Value.lookup_membersOf? hvs hx hfield]
    cases field <;> rfl
  have htext : (vs.lookup "ota_job_id").bind Value.text? = a.jobId := by
    rw [hmember]
    exact Value.text?_of_optional hid
  rw [salvageJobId, hv, ← htext]
  show (vs.lookup "ota_job_id").bind (fun m => FetchAnswer.present m.text?) = _
  cases vs.lookup "ota_job_id" <;> rfl

namespace Payload

/-- The body offers the job of that id, or is rejected in its name. -/
def Names (body : Bytes) (id : String) : Prop :=
  (∃ job, Payload.ofBytes body = .ok (.job job) ∧ job.id = id) ∨
  ∃ r, Payload.ofBytes body = .ok (.rejected (some id) r)

/-- From an object without error code that can be read in both ways the id is salvaged that its payload names;
none is salvaged exactly if the payload is rejected without an id. -/
theorem names_iff_salvaged (hbody : (Tree.object members).WrittenAs body)
    (ha : FetchAnswer.ofBytes? body = some a) (hcode : a.errorCode = none) (hv : Value.ofBytes? body = some v) :
    (∀ id, salvageJobId body = some id ↔ Names body id) ∧
    (salvageJobId body = none ↔ ∃ r, Payload.ofBytes body = .ok (.rejected none r)) := by
  have hpayload : Payload.ofBytes body = a.payload := by rw [Payload.ofBytes, ha]
  unfold Names
  rw [salvageJobId_of_answer hbody ha hv, hpayload]
  rcases FetchAnswer.payload_uncoded hcode with ⟨r, hr⟩ | ⟨job, hjob, hid⟩
  · simp [hr, eq_comm]
  · simp [hjob, hid]

/-- An answer with a job's id that is spelled with escapes, and no url. -/
def escapedAnswer : List (List Piece × Tree) :=
  [(Piece.quoted "remark", .array []),
   (Piece.quoted "ota_job" ++ .unit 0x5f :: Piece.quoted "id", .text (Piece.quoted "A" ++ [.unit 0x42]))]

def escapedText : Bytes :=
  Bytes.ofText "\x7b\"remark\":[], \"ota_job\\u005fid\":\"A\\u0042\"\x7d"

theorem names_iff_salvaged_escaped :
    (Tree.object escapedAnswer).WrittenAs escapedText ∧ salvageJobId escapedText = some "AB" ∧
    Names escapedText "AB" ∧ ¬ ∃ r, Payload.ofBytes escapedText = .ok (.rejected none r) := by
  have hbody : (Tree.object escapedAnswer).WrittenAs escapedText := by decide +kernel
  have hanswer : (FetchAnswer.ofBytes? escapedText).map (·.errorCode) = some none := by decide +kernel
  obtain ⟨a, ha, hcode⟩ := Option.map_eq_some_iff.mp hanswer
  have hvalue : (Value.ofBytes? escapedText).isSome := by decide +kernel
  obtain ⟨v, hv⟩ := Option.isSome_iff_exists.mp hvalue
  have hid : salvageJobId escapedText = some "AB" := by decide +kernel
  obtain ⟨hnames, hnone⟩ := names_iff_salvaged hbody ha hcode hv
  refine ⟨hbody, hid, (hnames "AB").mp hid, fun h => ?_⟩
  rw [hnone.mpr h] at hid
  cases hid

end Payload

end FirmwareUpdate
