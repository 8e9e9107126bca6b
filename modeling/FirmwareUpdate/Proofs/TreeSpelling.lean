import FirmwareUpdate.Json.Tree
import FirmwareUpdate.Proofs.TokenSpelling

/-!
# How trees are written

The tokens of a tree, and the texts that are written with them. A text has a tree exactly if it is one of the
tree's texts, so a text is JSON in one way at most.
-/

namespace FirmwareUpdate.Json

def listed : List (List Token) → List Token
  | [] => []
  | [x] => x
  | x :: rest => x ++ .comma :: listed rest

def before (parts : List (List Token)) : List Token := parts.flatMap (· ++ [.comma])

theorem listed_cons {parts : List (List Token)} (h : parts ≠ []) (x : List Token) :
    listed (x :: parts) = x ++ .comma :: listed parts := by
  cases parts with
  | nil => exact absurd rfl h
  | cons y rest => rfl

theorem listed_append (x : List Token) (parts : List (List Token)) : ∃ rest, listed (x :: parts) = x ++ rest := by
  cases parts with
  | nil => exact ⟨[], (List.append_nil x).symm⟩
  | cons y parts => exact ⟨_, rfl⟩

theorem listed_snoc (parts : List (List Token)) (x : List Token) : listed (parts ++ [x]) = before parts ++ x := by
  induction parts with
  | nil => rfl
  | cons y parts ih =>
    rw [List.cons_append, listed_cons (List.append_ne_nil_of_right_ne_nil _ (List.cons_ne_nil x [])), ih]
    simp [before]

namespace Tree

mutual

def tokens : Tree → List Token
  | .null => [.null]
  | .bool b => [.bool b]
  | .number n => [.number n]
  | .text ps => [.text ps]
  | .array items => .openArray :: listed (itemTokens items) ++ [.closeArray]
  | .object members => .openObject :: listed (memberTokens members) ++ [.closeObject]

def itemTokens : List Tree → List (List Token)
  | [] => []
  | t :: rest => tokens t :: itemTokens rest

def memberTokens : List (List Piece × Tree) → List (List Token)
  | [] => []
  | (key, t) :: rest => (.text key :: .colon :: tokens t) :: memberTokens rest

end

/-- The text is this tree's: its tokens with any blanks around them. -/
def WrittenAs (t : Tree) (bs : Bytes) : Prop := Written t.tokens bs

/-! ## Reading the tokens of a tree -/

/-- A first item is read as any other is. -/
theorem first_item (stack : List Frame) (t : Tree) (rest : List Token) :
    (t.tokens ++ rest).foldlM step? (.item, stack) =
      (t.tokens ++ rest).foldlM step? (.value, .array [] :: stack) := by
  cases t <;> rfl

mutual

theorem read_tokens : ∀ (t : Tree) (stack : List Frame),
    t.tokens.foldlM step? (.value, stack) = some (.separator t, stack)
  | .null, _ => rfl
  | .bool _, _ => rfl
  | .number _, _ => rfl
  | .text _, _ => rfl
  | .array [], _ => rfl
  | .object [], _ => rfl
  | .array (t :: rest), stack => by
    have hitems := read_items (t :: rest) [] stack (List.cons_ne_nil t rest)
    obtain ⟨others, hothers⟩ := listed_append t.tokens (itemTokens rest)
    rw [itemTokens, hothers, List.append_assoc, ← first_item] at hitems
    rw [tokens, itemTokens, hothers, List.cons_append, List.append_assoc, List.foldlM_cons]
    exact hitems
  | .object ((key, t) :: rest), stack => by
    have hmembers := read_members ((key, t) :: rest) [] stack (List.cons_ne_nil _ rest)
    obtain ⟨others, hothers⟩ := listed_append (.text key :: .colon :: t.tokens) (memberTokens rest)
    rw [memberTokens, hothers] at hmembers
    rw [tokens, memberTokens, hothers, List.cons_append, List.foldlM_cons]
    exact hmembers

theorem read_items : ∀ (items done : List Tree) (stack : List Frame), items ≠ [] →
    (listed (itemTokens items) ++ [Token.closeArray]).foldlM step? (.value, .array done :: stack) =
      some (.separator (.array (done.reverse ++ items)), stack)
  | [], _, _, h => absurd rfl h
  | [t], done, stack, _ => by
    rw [itemTokens, itemTokens, listed, List.foldlM_append, read_tokens t]
    simp [step?]
  | t :: u :: rest, done, stack, _ => by
    have hrest := read_items (u :: rest) (t :: done) stack (List.cons_ne_nil u rest)
    rw [itemTokens, listed_cons (by simp [itemTokens]), List.append_assoc, List.foldlM_append, read_tokens t]
    simpa [step?] using hrest

theorem read_members : ∀ (members done : List (List Piece × Tree)) (stack : List Frame), members ≠ [] →
    (listed (memberTokens members) ++ [Token.closeObject]).foldlM step? (.key done, stack) =
      some (.separator (.object (done.reverse ++ members)), stack)
  | [], _, _, h => absurd rfl h
  | [(key, t)], done, stack, _ => by
    have hvalue := read_tokens t (.object done key :: stack)
    rw [memberTokens, memberTokens, listed, List.foldlM_append]
    simp [step?, hvalue]
  | (key, t) :: m :: rest, done, stack, _ => by
    have hvalue := read_tokens t (.object done key :: stack)
    have hrest := read_members (m :: rest) ((key, t) :: done) stack (List.cons_ne_nil m rest)
    rw [memberTokens, listed_cons (by simp [memberTokens]), List.append_assoc, List.foldlM_append]
    simpa [step?, hvalue] using hrest

end

/-! ## What has been read -/

def opened : List Frame → List Token
  | [] => []
  | .array done :: stack => opened stack ++ .openArray :: before (itemTokens done.reverse)
  | .object done key :: stack =>
    opened stack ++ .openObject :: before (memberTokens done.reverse) ++ [.text key, .colon]

def soFar : Position → List Token
  | (.value, stack) => opened stack
  | (.item, stack) => opened stack ++ [.openArray]
  | (.member, stack) => opened stack ++ [.openObject]
  | (.key done, stack) => opened stack ++ .openObject :: before (memberTokens done.reverse)
  | (.colon done key, stack) => opened stack ++ .openObject :: before (memberTokens done.reverse) ++ [.text key]
  | (.separator t, stack) => opened stack ++ t.tokens

theorem itemTokens_eq_map (items : List Tree) : itemTokens items = items.map tokens := by
  induction items with
  | nil => rfl
  | cons t items ih => rw [itemTokens, ih, List.map_cons]

theorem memberTokens_eq_map (members : List (List Piece × Tree)) :
    memberTokens members = members.map fun m => .text m.1 :: .colon :: m.2.tokens := by
  induction members with
  | nil => rfl
  | cons m members ih => rw [memberTokens, ih, List.map_cons]

theorem soFar_begin {stack : List Frame} {t : Token} {q : Position} (h : begin? stack t = some q) :
    soFar q = opened stack ++ [t] := by
  unfold begin? at h
  split at h <;> cases h <;> rfl

/-- A token that is taken stands behind those before it. -/
theorem soFar_step {p q : Position} {t : Token} (h : step? p t = some q) : soFar q = soFar p ++ [t] := by
  unfold step? at h
  -- the rules in their order: value, item, member, key, colon, separator in an array, separator in an object
  split at h
  · exact soFar_begin h
  · cases h
    simp [soFar, tokens, itemTokens, listed]
  · rw [soFar_begin h]
    simp [soFar, opened, itemTokens, before]
  · cases h
    simp [soFar, tokens, memberTokens, listed]
  · cases h
    simp [soFar, memberTokens, before]
  · cases h
    rfl
  · cases h
    simp [soFar, opened]
  · cases h
    simp [soFar, opened, itemTokens_eq_map, before]
  · cases h
    simp [soFar, opened, tokens, itemTokens_eq_map, listed_snoc]
  · cases h
    simp [soFar, opened, memberTokens_eq_map, before]
  · cases h
    simp [soFar, opened, tokens, memberTokens_eq_map, listed_snoc]
  · cases h

theorem soFar_steps {p q : Position} {ts : List Token} (h : ts.foldlM step? p = some q) :
    soFar q = soFar p ++ ts := by
  induction ts generalizing p with
  | nil =>
    cases h
    exact (List.append_nil _).symm
  | cons t ts ih =>
    rw [List.foldlM_cons] at h
    obtain ⟨r, hr, h⟩ := Option.bind_eq_some_iff.mp h
    rw [ih h, soFar_step hr, List.append_assoc, List.singleton_append]

theorem ofTokens?_eq_some_iff {ts : List Token} {t : Tree} : ofTokens? ts = some t ↔ ts = t.tokens := by
  constructor
  · intro h
    obtain ⟨q, hq, h⟩ := Option.bind_eq_some_iff.mp h
    unfold complete? at h
    split at h
    · cases h
      exact (soFar_steps hq).symm
    · cases h
  · rintro rfl
    rw [ofTokens?, read_tokens]
    rfl

/-! ## Texts of a tree -/

/-- Tokens before any others that do not begin with a number keep numbers apart. -/
def Parted (ts : List Token) : Prop :=
  ∀ us, (∀ u ∈ us.head?, u.isNumber = false) → Token.Apart us → Token.Apart (ts ++ us)

theorem Parted.cons {ts : List Token} (h : Parted ts) {t : Token} (ht : t.isNumber = false) : Parted (t :: ts) :=
  fun us hus hapart => ⟨fun hn => absurd hn (by simp [ht]), h us hus hapart⟩

theorem parted_nil : Parted [] := fun _ _ h => h

theorem parted_singleton (t : Token) : Parted [t] := fun _ hus hapart => ⟨fun _ => hus, hapart⟩

/-- In front of a token that is no number. -/
theorem Parted.append {ts us : List Token} (h : Parted ts) {u : Token} (hu : u.isNumber = false)
    (h' : Parted us) : Parted (ts ++ u :: us) := by
  intro vs hvs hapart
  rw [List.append_assoc]
  refine h _ ?_ (h'.cons hu vs hvs hapart)
  rintro w ⟨⟩
  exact hu

theorem parted_listed {parts : List (List Token)} (h : ∀ x ∈ parts, Parted x) : Parted (listed parts) := by
  induction parts with
  | nil => exact parted_nil
  | cons x parts ih =>
    have hx := h x List.mem_cons_self
    have hrest := ih fun y hy => h y (List.mem_cons_of_mem x hy)
    cases parts with
    | nil => exact hx
    | cons y rest => exact hx.append rfl hrest

mutual

theorem parted_tokens : ∀ t : Tree, Parted t.tokens
  | .null => parted_singleton _
  | .bool _ => parted_singleton _
  | .number _ => parted_singleton _
  | .text _ => parted_singleton _
  | .array items => ((parted_listed (parted_items items)).append rfl parted_nil).cons rfl
  | .object members => ((parted_listed (parted_members members)).append rfl parted_nil).cons rfl

theorem parted_items : ∀ items : List Tree, ∀ x ∈ itemTokens items, Parted x
  | [], _, h => nomatch h
  | t :: rest, x, h => by
    rcases List.mem_cons.mp h with rfl | h
    · exact parted_tokens t
    · exact parted_items rest x h

theorem parted_members : ∀ members : List (List Piece × Tree), ∀ x ∈ memberTokens members, Parted x
  | [], _, h => nomatch h
  | (key, t) :: rest, x, h => by
    rcases List.mem_cons.mp h with rfl | h
    · exact ((parted_tokens t).cons rfl).cons rfl
    · exact parted_members rest x h

end

theorem apart_tokens (t : Tree) : Token.Apart t.tokens :=
  List.append_nil t.tokens ▸ parted_tokens t [] (fun _ h => nomatch h) trivial

/-- A text is read as a tree exactly if it is one of the tree's texts. -/
theorem ofBytes?_eq_some_iff {bs : Bytes} {t : Tree} : ofBytes? bs = some t ↔ t.WrittenAs bs := by
  unfold ofBytes?
  constructor
  · intro h
    obtain ⟨ts, hts, h⟩ := Option.bind_eq_some_iff.mp h
    rw [ofTokens?_eq_some_iff] at h
    subst h
    exact (Token.ofBytes?_eq_some_iff t.apart_tokens).mp hts
  · intro h
    exact Option.bind_eq_some_iff.mpr
      ⟨t.tokens, (Token.ofBytes?_eq_some_iff t.apart_tokens).mpr h, ofTokens?_eq_some_iff.mpr rfl⟩

theorem WrittenAs.ofBytes? {bs : Bytes} {t : Tree} (h : t.WrittenAs bs) : ofBytes? bs = some t :=
  ofBytes?_eq_some_iff.mpr h

instance (t : Tree) (bs : Bytes) : Decidable (t.WrittenAs bs) :=
  decidable_of_iff (Token.ofBytes? bs = some t.tokens) (Token.ofBytes?_eq_some_iff t.apart_tokens)

end Tree

end FirmwareUpdate.Json
