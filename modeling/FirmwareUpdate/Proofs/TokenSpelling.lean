import FirmwareUpdate.Json.Token

/-!
# How tokens are spelled

What a JSON text is, byte by byte and without a scanner: signs and words, digits, the elements of a string,
and blanks around them. The scanner finds in a text the tokens that it spells. The same holds the other way
round: whatever spells tokens is scanned, if no number stands right behind another.
-/

namespace FirmwareUpdate.Json

/-! ## The grammar -/

def Digits (ds : List Nat) : Prop := ∀ d ∈ ds, d < 10

def digit (d : Nat) : UInt8 := UInt8.ofNat (0x30 + d)

def digits (ds : List Nat) : Bytes := ds.map digit

namespace Numeral

def sign (negative : Bool) : Bytes := if negative then [0x2d] else []

inductive Whole : List Nat → Prop
  | zero : Whole [0]
  | other {d : Nat} {ds : List Nat} (hzero : d ≠ 0) (h : Digits (d :: ds)) : Whole (d :: ds)

def point : List Nat → Bytes
  | [] => []
  | ds => 0x2e :: digits ds

inductive PowerSign : Bool → Bytes → Prop
  | none : PowerSign false []
  | plus : PowerSign false [0x2b]
  | minus : PowerSign true [0x2d]

def Mark (b : UInt8) : Prop := b = 0x65 ∨ b = 0x45

instance (b : UInt8) : Decidable (Mark b) := inferInstanceAs (Decidable (_ ∨ _))

inductive Power : Option Exponent → Bytes → Prop
  | none : Power none []
  | some {x : Exponent} {mark : UInt8} {s : Bytes} (hm : Mark mark) (hs : PowerSign x.negative s)
    (hne : x.digits ≠ []) (hd : Digits x.digits) : Power (some x) (mark :: s ++ digits x.digits)

inductive Spelled (n : Numeral) : Bytes → Prop
  | intro {power : Bytes} (hw : Whole n.whole) (hf : Digits n.fraction) (hp : Power n.exponent power) :
    Spelled n (sign n.negative ++ digits n.whole ++ point n.fraction ++ power)

end Numeral

def hexValue? (value : Nat) (xs : Bytes) : Option Nat :=
  xs.foldlM (fun v b => (Token.hexDigit? b).map (16 * v + ·)) value

inductive Piece.Spelled : Piece → Bytes → Prop
  | plain {b : UInt8} (hctrl : ¬ b < 0x20) (hquote : b ≠ 0x22) (hslash : b ≠ 0x5c) : Spelled (.byte b) [b]
  | short {b c : UInt8} (h : Token.shortEscape? b = some c) : Spelled (.byte c) [0x5c, b]
  | unit {xs : Bytes} {u : Nat} (hlen : xs.length = 4) (h : hexValue? 0 xs = some u) :
    Spelled (.unit u) (0x5c :: 0x75 :: xs)

inductive Literal : List Piece → Bytes → Prop
  | nil : Literal [] []
  | cons {p : Piece} {ps : List Piece} {xs ys : Bytes} (h : p.Spelled xs) (rest : Literal ps ys) :
    Literal (p :: ps) (xs ++ ys)

inductive Token.Spelled : Token → Bytes → Prop
  | openArray : Spelled .openArray [0x5b]
  | closeArray : Spelled .closeArray [0x5d]
  | openObject : Spelled .openObject [0x7b]
  | closeObject : Spelled .closeObject [0x7d]
  | comma : Spelled .comma [0x2c]
  | colon : Spelled .colon [0x3a]
  | null : Spelled .null [0x6e, 0x75, 0x6c, 0x6c]
  | isTrue : Spelled (.bool true) [0x74, 0x72, 0x75, 0x65]
  | isFalse : Spelled (.bool false) [0x66, 0x61, 0x6c, 0x73, 0x65]
  | text {ps : List Piece} {xs : Bytes} (h : Literal ps xs) : Spelled (.text ps) (0x22 :: xs ++ [0x22])
  | number {n : Numeral} {xs : Bytes} (h : n.Spelled xs) : Spelled (.number n) xs

/-- A text that spells tokens one after another, with blanks before, between and after them. -/
inductive Written : List Token → Bytes → Prop
  | done : Written [] []
  | blank {b : UInt8} {ts : List Token} {bs : Bytes} (h : Token.isBlank b = true) (rest : Written ts bs) :
    Written ts (b :: bs)
  | token {t : Token} {ts : List Token} {xs bs : Bytes} (h : t.Spelled xs) (rest : Written ts bs) :
    Written (t :: ts) (xs ++ bs)

theorem Literal.append {ps qs : List Piece} {xs ys : Bytes} (h : Literal ps xs) (h' : Literal qs ys) :
    Literal (ps ++ qs) (xs ++ ys) := by
  induction h with
  | nil => exact h'
  | cons hp _ ih =>
    rw [List.append_assoc]
    exact .cons hp ih

theorem Literal.snoc {ps : List Piece} {p : Piece} {xs ys : Bytes} (h : Literal ps.reverse xs)
    (hp : p.Spelled ys) : Literal (p :: ps).reverse (xs ++ ys) := by
  rw [List.reverse_cons]
  simpa using h.append (.cons hp .nil)

theorem Digits.snoc {ds : List Nat} {d : Nat} (h : Digits ds) (hd : d < 10) : Digits (ds ++ [d]) := by
  intro e he
  rcases List.mem_append.mp he with he | he
  · exact h e he
  · exact List.mem_singleton.mp he ▸ hd

theorem Numeral.Whole.snoc {ds : List Nat} {d : Nat} (h : Whole ds) (hz : ds ≠ [0]) (hd : d < 10) :
    Whole (ds ++ [d]) := by
  cases h with
  | zero => exact absurd rfl hz
  | other hzero h => exact .other hzero (h.snoc hd)

theorem digits_append (ds es : List Nat) : digits (ds ++ es) = digits ds ++ digits es := List.map_append

theorem digits_singleton (d : Nat) : digits [d] = [digit d] := rfl

theorem Numeral.point_of_ne_nil {ds : List Nat} (h : ds ≠ []) : point ds = 0x2e :: digits ds := by
  cases ds with
  | nil => exact absurd rfl h
  | cons d ds => rfl

namespace Token

theorem digit?_digit : ∀ d < 10, digit? (digit d) = some d := by decide

theorem digit?_eq_some {b : UInt8} {d : Nat} (h : digit? b = some d) : d < 10 ∧ b = digit d := by
  unfold digit? at h
  split at h
  · rename_i hb
    obtain ⟨hlow, hhigh⟩ := hb
    rw [UInt8.le_iff_toNat_le] at hlow hhigh
    cases h
    have hsum : 0x30 + (b.toNat - 0x30) = b.toNat := Nat.add_sub_cancel' hlow
    refine ⟨?_, ?_⟩
    · have : b.toNat ≤ 57 := hhigh
      omega
    · rw [digit, hsum, UInt8.ofNat_toNat]
  · cases h

/-! ## Numbers on the way -/

structure Mantissa (n : Numeral) (xs : Bytes) : Prop where
  whole : Numeral.Whole n.whole.reverse
  fraction : Digits n.fraction.reverse
  spelled : xs = Numeral.sign n.negative ++ digits n.whole.reverse ++ Numeral.point n.fraction.reverse

inductive Reading : Phase → Numeral → Bytes → Prop
  | start (negative : Bool) : Reading .start (unread negative) (Numeral.sign negative)
  | zero {n : Numeral} {xs : Bytes} (h : Mantissa n xs) (hf : n.fraction = []) (he : n.exponent = none) :
    Reading .zero n xs
  | whole {n : Numeral} {xs : Bytes} (h : Mantissa n xs) (hz : n.whole ≠ [0]) (hf : n.fraction = [])
    (he : n.exponent = none) : Reading .whole n xs
  | point {n : Numeral} {xs : Bytes} (h : Mantissa n xs) (hf : n.fraction = []) (he : n.exponent = none) :
    Reading .point n (xs ++ [0x2e])
  | fraction {n : Numeral} {xs : Bytes} (h : Mantissa n xs) (hf : n.fraction ≠ []) (he : n.exponent = none) :
    Reading .fraction n xs
  | mark {n : Numeral} {xs : Bytes} {b : UInt8} (h : Mantissa n xs) (he : n.exponent = none)
    (hb : Numeral.Mark b) : Reading .mark n (xs ++ [b])
  | sign {n : Numeral} {xs s : Bytes} {b : UInt8} {negative : Bool} (h : Mantissa n xs)
    (he : n.exponent = some ⟨negative, []⟩) (hb : Numeral.Mark b) (hs : Numeral.PowerSign negative s) :
    Reading .sign n (xs ++ b :: s)
  | power {n : Numeral} {xs s : Bytes} {b : UInt8} {negative : Bool} {ds : List Nat} (h : Mantissa n xs)
    (he : n.exponent = some ⟨negative, ds⟩) (hb : Numeral.Mark b) (hs : Numeral.PowerSign negative s)
    (hne : ds ≠ []) (hd : Digits ds.reverse) : Reading .power n (xs ++ b :: s ++ digits ds.reverse)

theorem Mantissa.withExponent {n : Numeral} {xs : Bytes} (h : Mantissa n xs) (x : Option Exponent) :
    Mantissa { n with exponent := x } xs := ⟨h.whole, h.fraction, h.spelled⟩

theorem mantissa_firstDigit {d : Nat} (hd : d < 10) (negative : Bool) :
    Mantissa { unread negative with whole := [d] } (Numeral.sign negative ++ [digit d]) := by
  refine ⟨?_, nofun, (List.append_nil _).symm⟩
  by_cases hz : d = 0
  · rw [hz]
    exact .zero
  · exact .other hz fun e he => List.mem_singleton.mp he ▸ hd

theorem Mantissa.pushWhole {n : Numeral} {xs : Bytes} {d : Nat} (h : Mantissa n xs) (hz : n.whole ≠ [0])
    (hf : n.fraction = []) (hd : d < 10) :
    Mantissa { n with whole := d :: n.whole } (xs ++ [digit d]) := by
  have hrev : n.whole.reverse ≠ [0] := fun he => hz (by simpa using congrArg List.reverse he)
  refine ⟨?_, h.fraction, ?_⟩
  · rw [List.reverse_cons]
    exact h.whole.snoc hrev hd
  · rw [h.spelled, List.reverse_cons, digits_append, digits_singleton]
    simp [hf, Numeral.point]

theorem Mantissa.pushFraction {n : Numeral} {xs : Bytes} {d : Nat} (h : Mantissa n xs) (hd : d < 10) :
    Mantissa { n with fraction := d :: n.fraction }
      (xs ++ (if n.fraction = [] then [0x2e] else []) ++ [digit d]) := by
  refine ⟨h.whole, List.reverse_cons ▸ h.fraction.snoc hd, ?_⟩
  have hlonger : n.fraction.reverse ++ [d] ≠ [] := List.append_ne_nil_of_right_ne_nil _ (List.cons_ne_nil d [])
  dsimp only
  rw [h.spelled, List.reverse_cons, Numeral.point_of_ne_nil hlonger, digits_append, digits_singleton]
  by_cases hf : n.fraction = []
  · simp [hf, Numeral.point, digits]
  · rw [Numeral.point_of_ne_nil (fun he => hf (List.reverse_eq_nil_iff.mp he))]
    simp [hf]

/-- What may stand behind the digits before the point, other than a digit. -/
theorem Mantissa.endWhole {n m : Numeral} {q : Phase} {xs : Bytes} {b : UInt8} (h : Mantissa n xs)
    (hf : n.fraction = []) (he : n.exponent = none)
    (hnext : (if (b == 0x2e) = true then some (Phase.point, n)
      else if (b == 0x65 || b == 0x45) = true then some (.mark, n) else none) = some (q, m)) :
    Reading q m (xs ++ [b]) := by
  split at hnext
  · rename_i hpoint
    cases hnext
    rw [eq_of_beq hpoint]
    exact .point h hf he
  · split at hnext
    · rename_i hmark
      cases hnext
      exact .mark h he (by simpa [Numeral.Mark] using hmark)
    · cases hnext

theorem Reading.step {p q : Phase} {n m : Numeral} {xs : Bytes} {b : UInt8} (h : Reading p n xs)
    (hnext : p.next? n b = some (q, m)) : Reading q m (xs ++ [b]) := by
  -- whether the byte is a digit decides first, in every phase
  cases hb : digit? b with
  | some d =>
    obtain ⟨hd, rfl⟩ := digit?_eq_some hb
    cases h with
    | start negative =>
      simp only [Phase.next?, hb, firstDigit] at hnext
      have hm := mantissa_firstDigit hd negative
      by_cases hz : d = 0
      · rw [if_pos hz] at hnext
        cases hnext
        exact .zero hm rfl rfl
      · rw [if_neg hz] at hnext
        cases hnext
        exact .whole hm (fun he => hz (List.cons.inj he).1) rfl rfl
    | zero => simp [Phase.next?, hb] at hnext
    | whole hm hz hf he =>
      simp only [Phase.next?, hb] at hnext
      cases hnext
      refine .whole (hm.pushWhole hz hf hd) (fun hw => ?_) hf he
      have := (List.cons.inj hw).2
      have hne := hm.whole
      rw [this] at hne
      cases hne
    | point hm hf he =>
      simp only [Phase.next?, hb] at hnext
      cases hnext
      have := hm.pushFraction hd
      rw [if_pos hf] at this
      rw [hf] at this
      exact .fraction this nofun he
    | fraction hm hf he =>
      simp only [Phase.next?, hb] at hnext
      cases hnext
      have := hm.pushFraction hd
      rw [if_neg hf, List.append_nil] at this
      exact .fraction this nofun he
    | mark hm he hmark =>
      simp only [Phase.next?, hb, pushPower, he] at hnext
      cases hnext
      have := Reading.power (hm.withExponent (some ⟨false, [d]⟩)) rfl hmark .none nofun
        (fun e he => List.mem_singleton.mp he ▸ hd)
      simpa [digits] using this
    | sign hm he hmark hs =>
      simp only [Phase.next?, hb, pushPower, he] at hnext
      cases hnext
      have := Reading.power (hm.withExponent (some ⟨_, [d]⟩)) rfl hmark hs nofun
        (fun e he => List.mem_singleton.mp he ▸ hd)
      simpa [digits] using this
    | power hm he hmark hs hne hds =>
      simp only [Phase.next?, hb, pushPower, he] at hnext
      cases hnext
      have := Reading.power (hm.withExponent (some ⟨_, d :: _⟩)) rfl hmark hs nofun
        (List.reverse_cons ▸ hds.snoc hd)
      simpa [digits] using this
  | none =>
    cases h with
    | start | point | sign | power => simp [Phase.next?, hb] at hnext
    | zero hm hf he =>
      simp only [Phase.next?, hb] at hnext
      exact hm.endWhole hf he hnext
    | whole hm hz hf he =>
      simp only [Phase.next?, hb] at hnext
      exact hm.endWhole hf he hnext
    | fraction hm hf he =>
      simp only [Phase.next?, hb] at hnext
      split at hnext
      · rename_i hmark
        cases hnext
        exact .mark hm he (by simpa [Numeral.Mark] using hmark)
      · cases hnext
    | mark hm he hmark =>
      simp only [Phase.next?, hb] at hnext
      split at hnext
      · rename_i hplus
        cases hnext
        rw [eq_of_beq hplus, List.append_assoc]
        exact .sign (hm.withExponent (some ⟨false, []⟩)) rfl hmark .plus
      · split at hnext
        · rename_i hminus
          cases hnext
          rw [eq_of_beq hminus, List.append_assoc]
          exact .sign (hm.withExponent (some ⟨true, []⟩)) rfl hmark .minus
        · cases hnext

theorem Mantissa.finished {n : Numeral} {xs power : Bytes} (h : Mantissa n xs)
    (hp : Numeral.Power (n.exponent.map fun x => { x with digits := x.digits.reverse }) power) :
    Spelled (finish n) (xs ++ power) := by
  rw [h.spelled]
  exact .number (.intro h.whole h.fraction hp)

theorem Reading.finished {p : Phase} {n : Numeral} {xs : Bytes} (h : Reading p n xs) (hp : p.final = true) :
    Spelled (finish n) xs := by
  cases h with
  | start | point | mark | sign => cases hp
  | zero hm hf he | whole hm _ hf he | fraction hm hf he =>
    rw [← List.append_nil xs]
    refine hm.finished ?_
    rw [he]
    exact .none
  | power hm he hb hs hne hd =>
    rw [List.append_assoc]
    refine hm.finished ?_
    rw [he]
    exact .some hb hs (fun h => hne (List.reverse_eq_nil_iff.mp h)) hd

/-! ## The scanner finds what is spelled -/

/-- What has been read, in each mode, of a token that is not complete yet. -/
inductive Underway : Mode → Bytes → Prop
  | gap : Underway .gap []
  | word {rest xs : Bytes} {t : Token} (h : t.Spelled (xs ++ rest)) : Underway (.word rest t) xs
  | text {ps : List Piece} {xs : Bytes} (h : Literal ps.reverse xs) : Underway (.text ps) (0x22 :: xs)
  | escape {ps : List Piece} {xs : Bytes} (h : Literal ps.reverse xs) :
    Underway (.escape ps) (0x22 :: xs ++ [0x5c])
  | hex {ps : List Piece} {xs hs : Bytes} {left value : Nat} (h : Literal ps.reverse xs)
    (hlen : hs.length + left = 4) (hleft : 1 ≤ left) (hv : hexValue? 0 hs = some value) :
    Underway (.hex ps left value) (0x22 :: xs ++ 0x5c :: 0x75 :: hs)
  | number {p : Phase} {n : Numeral} {xs : Bytes} (h : Reading p n xs) : Underway (.number p n) xs

/-- What a byte between two tokens comes to. -/
def Entry.Opens (b : UInt8) : Entry → Prop
  | .skip => isBlank b = true
  | .emit t => t.Spelled [b]
  | .enter m => Underway m [b]
  | .reject => True

theorem entry_opens (b : UInt8) : (entry b).Opens b := by
  unfold entry
  split
  · assumption
  · split
    · exact .openArray
    · exact .closeArray
    · exact .openObject
    · exact .closeObject
    · exact .comma
    · exact .colon
    · exact .text .nil
    · exact .word .null
    · exact .word .isTrue
    · exact .word .isFalse
    · exact .number (.start true)
    · split
      · rename_i d hd
        have hnext : Phase.start.next? (unread false) b = some (firstDigit (unread false) d) := by
          simp only [Phase.next?, hd]
        exact .number (Reading.step (.start false) hnext)
      · trivial

theorem hexValue?_snoc {v w d : Nat} {xs : Bytes} {b : UInt8} (h : hexValue? v xs = some w)
    (hd : hexDigit? b = some d) : hexValue? v (xs ++ [b]) = some (16 * w + d) := by
  unfold hexValue? at h ⊢
  rw [List.foldlM_append, h]
  simp [hd]

theorem written_of_follow {e : Entry} {b : UInt8} {bs : Bytes} {ts : List Token} (he : e.Opens b)
    (hscan : ∀ {m : Mode} {xs : Bytes} {ts : List Token}, Underway m xs → scan m bs = some ts →
      Written ts (xs ++ bs))
    (h : (e.follow fun m => scan m bs) = some ts) : Written ts (b :: bs) := by
  cases e with
  | skip => exact .blank he (hscan .gap h)
  | emit t =>
    obtain ⟨rest, hrest, rfl⟩ := Option.map_eq_some_iff.mp h
    exact .token he (hscan .gap hrest)
  | enter m => exact hscan he h
  | reject => cases h

/-- Whatever is scanned is spelled. The induction is on what is still to be read; `Underway` says what has
been read of the token at hand. -/
theorem written_of_scan {m : Mode} {xs bs : Bytes} {ts : List Token} (hm : Underway m xs)
    (h : scan m bs = some ts) : Written ts (xs ++ bs) := by
  induction bs generalizing m xs ts with
  | nil =>
    cases hm with
    | gap =>
      cases h
      exact .done
    | number hn =>
      rw [scan] at h
      split at h
      · cases h
        exact .token (hn.finished ‹_›) .done
      · cases h
    | word | text | escape | hex => cases h
  | cons b bs ih =>
    have emitted {t : Token} {ys : Bytes} (ht : t.Spelled ys)
        (h : (scan .gap bs).map (t :: ·) = some ts) : Written ts (ys ++ bs) := by
      obtain ⟨rest, hrest, rfl⟩ := Option.map_eq_some_iff.mp h
      exact .token ht (ih .gap hrest)
    cases hm with
    | gap => exact written_of_follow (entry_opens b) ih h
    | @word rest xs t ht =>
      rcases rest with _ | ⟨c, _ | ⟨d, rest⟩⟩
      · cases h
      · rw [scan] at h
        split at h
        · rename_i hb
          rw [List.append_cons, hb]
          exact emitted ht h
        · cases h
      · rw [scan] at h
        · split at h
          · rename_i hb
            rw [List.append_cons, hb]
            exact ih (.word (by rwa [← List.append_cons])) h
          · cases h
        · exact nofun
    | text hl =>
      rw [scan] at h
      split at h
      · rename_i hb
        rw [hb, List.append_cons]
        exact emitted (.text hl) h
      · split at h
        · rename_i hb
          rw [hb, List.append_cons]
          exact ih (.escape hl) h
        · split at h
          · cases h
          · rename_i hquote hslash hctrl
            rw [List.append_cons]
            exact ih (.text (hl.snoc (.plain hctrl hquote hslash))) h
    | escape hl =>
      rw [scan] at h
      split at h
      · rename_i hb
        have hnone : hexValue? 0 [] = some 0 := rfl
        simpa [hb] using ih (.hex hl rfl (by decide) hnone) h
      · split at h
        · rename_i hb
          simpa using ih (.text (hl.snoc (.short hb))) h
        · cases h
    | hex hl hlen hleft hv =>
      rw [scan] at h
      split at h
      · cases h
      · rename_i d hd
        have hv' := hexValue?_snoc hv hd
        split at h
        · simpa using ih (.text (hl.snoc (.unit (by simp; omega) hv'))) h
        · simpa using ih (.hex hl (by simp; omega) (by omega) hv') h
    | number hn =>
      rw [scan] at h
      split at h
      · rename_i hnext
        rw [List.append_cons]
        exact ih (.number (hn.step hnext)) h
      · split at h
        · obtain ⟨rest, hrest, rfl⟩ := Option.map_eq_some_iff.mp h
          exact .token (hn.finished ‹_›) (written_of_follow (entry_opens b) ih hrest)
        · cases h

/-! ## What is spelled is scanned -/

def EndsNumber (b : UInt8) : Prop := digit? b = none ∧ b ≠ 0x2e ∧ ¬ Numeral.Mark b

instance (b : UInt8) : Decidable (EndsNumber b) := inferInstanceAs (Decidable (_ ∧ _ ∧ _))

/-- No number goes on into these bytes. -/
def Detached (bs : Bytes) : Prop := ∀ b ∈ bs.head?, EndsNumber b

theorem detached_of_blank {b : UInt8} (h : isBlank b = true) (bs : Bytes) : Detached (b :: bs) := by
  rintro c ⟨⟩
  have hblanks : ∀ c ∈ [(0x20 : UInt8), 0x0a, 0x09, 0x0d], EndsNumber c := by decide +kernel
  exact hblanks b (by simpa [isBlank, or_assoc] using h)

/-- These bytes take the scanner from one state of a number to another. -/
def Leads (xs : Bytes) (p : Phase) (n : Numeral) (q : Phase) (m : Numeral) : Prop :=
  ∀ rest, scan (.number p n) (xs ++ rest) = scan (.number q m) rest

theorem leads_nil (p : Phase) (n : Numeral) : Leads [] p n p n := fun _ => rfl

theorem Leads.trans {xs ys : Bytes} {p q r : Phase} {n m k : Numeral} (h : Leads xs p n q m)
    (h' : Leads ys q m r k) : Leads (xs ++ ys) p n r k := by
  intro rest
  rw [List.append_assoc, h, h']

theorem leads_of_next {p q : Phase} {n m : Numeral} {b : UInt8} (h : p.next? n b = some (q, m)) :
    Leads [b] p n q m := by
  intro rest
  rw [List.singleton_append, scan, h]

/-- Digits that are collected in one place of the number. -/
theorem leads_digits (p : Phase) (state : List Nat → Numeral)
    (hstate : ∀ acc, ∀ d < 10, p.next? (state acc) (digit d) = some (p, state (d :: acc))) {ds : List Nat}
    (hd : Digits ds) (acc : List Nat) : Leads (digits ds) p (state acc) p (state (ds.reverse ++ acc)) := by
  induction ds generalizing acc with
  | nil => exact leads_nil p (state acc)
  | cons d ds ih =>
    have hfirst := leads_of_next (hstate acc d (hd d List.mem_cons_self))
    rw [List.reverse_cons, List.append_assoc]
    exact hfirst.trans (ih (fun e he => hd e (List.mem_cons_of_mem d he)) (d :: acc))

theorem leads_whole {ds : List Nat} (h : Numeral.Whole ds) (negative : Bool) : ∃ p, (p = .zero ∨ p = .whole) ∧
    Leads (digits ds) .start (unread negative) p { unread negative with whole := ds.reverse } := by
  cases h with
  | zero => exact ⟨.zero, .inl rfl, leads_of_next rfl⟩
  | @other d ds hzero h =>
    have hfirst : Leads [digit d] .start (unread negative) .whole { unread negative with whole := [d] } := by
      refine leads_of_next ?_
      simp only [Phase.next?, digit?_digit d (h d List.mem_cons_self), firstDigit, if_neg hzero]
    have hrest := leads_digits .whole (fun acc => { unread negative with whole := acc })
      (fun acc d hd => by simp only [Phase.next?, digit?_digit d hd])
      (fun e he => h e (List.mem_cons_of_mem d he)) [d]
    rw [List.reverse_cons]
    exact ⟨.whole, .inr rfl, hfirst.trans hrest⟩

theorem leads_fraction {p : Phase} {n : Numeral} (hp : p = .zero ∨ p = .whole) (hn : n.fraction = [])
    {ds : List Nat} (hd : Digits ds) : ∃ q, (q = .zero ∨ q = .whole ∨ q = .fraction) ∧
    Leads (Numeral.point ds) p n q { n with fraction := ds.reverse } := by
  cases ds with
  | nil =>
    obtain ⟨negative, whole, fraction, x⟩ := n
    cases hn
    exact ⟨p, hp.elim .inl (.inr ∘ .inl), leads_nil p _⟩
  | cons d ds =>
    have hpoint : Leads [0x2e] p n .point n := by
      refine leads_of_next ?_
      rcases hp with rfl | rfl <;> rfl
    have hfirst : Leads [digit d] .point n .fraction { n with fraction := [d] } := by
      refine leads_of_next ?_
      simp only [Phase.next?, digit?_digit d (hd d List.mem_cons_self)]
    have hrest := leads_digits .fraction (fun acc => { n with fraction := acc })
      (fun acc d hd => by simp only [Phase.next?, digit?_digit d hd])
      (fun e he => hd e (List.mem_cons_of_mem d he)) [d]
    rw [List.reverse_cons]
    exact ⟨.fraction, .inr (.inr rfl), hpoint.trans (hfirst.trans hrest)⟩

theorem leads_power {p : Phase} {n : Numeral} (hp : p = .zero ∨ p = .whole ∨ p = .fraction)
    {x : Option Exponent} (hn : n.exponent = none) {power : Bytes} (h : Numeral.Power x power) :
    ∃ q, q.final = true ∧
      Leads power p n q { n with exponent := x.map fun x => { x with digits := x.digits.reverse } } := by
  cases h with
  | none =>
    obtain ⟨negative, whole, fraction, x⟩ := n
    cases hn
    exact ⟨p, by rcases hp with rfl | rfl | rfl <;> rfl, leads_nil p _⟩
  | @some x mark s hm hs hne hd =>
    have hmark : Leads [mark] p n .mark n := by
      refine leads_of_next ?_
      rcases hp with rfl | rfl | rfl <;> rcases hm with rfl | rfl <;> rfl
    obtain ⟨negative, ds⟩ := x
    obtain ⟨d, ds, rfl⟩ := List.exists_cons_of_ne_nil hne
    have hrest := leads_digits .power (fun acc => { n with exponent := some ⟨negative, acc⟩ })
      (fun acc d hd => by simp only [Phase.next?, digit?_digit d hd, pushPower])
      (fun e he => hd e (List.mem_cons_of_mem d he)) [d]
    have hfirst : Leads (s ++ [digit d]) .mark n .power { n with exponent := some ⟨negative, [d]⟩ } := by
      have hdigit := digit?_digit d (hd d List.mem_cons_self)
      cases hs with
      | none => exact leads_of_next (by simp only [Phase.next?, hdigit, pushPower, hn])
      | plus =>
        have hsign : Leads [0x2b] .mark n .sign { n with exponent := some ⟨false, []⟩ } := leads_of_next rfl
        exact hsign.trans (leads_of_next (by simp only [Phase.next?, hdigit, pushPower]))
      | minus =>
        have hsign : Leads [0x2d] .mark n .sign { n with exponent := some ⟨true, []⟩ } := leads_of_next rfl
        exact hsign.trans (leads_of_next (by simp only [Phase.next?, hdigit, pushPower]))
    refine ⟨.power, rfl, ?_⟩
    have hall := hmark.trans (hfirst.trans hrest)
    rw [List.append_assoc] at hall
    simpa [digits] using hall

theorem scan_detached {p : Phase} (hp : p.final = true) (n : Numeral) {rest : Bytes} (h : Detached rest) :
    scan (.number p n) rest = (scan .gap rest).map (finish n :: ·) := by
  cases rest with
  | nil => simp [scan, hp]
  | cons b bs =>
    obtain ⟨hdigit, hpoint, hmark⟩ := h b rfl
    have hnext : p.next? n b = none := by
      cases p with
      | start | point | mark | sign => cases hp
      | zero | whole => simpa [Phase.next?, hdigit, hpoint, Numeral.Mark] using hmark
      | fraction => simpa [Phase.next?, hdigit, Numeral.Mark] using hmark
      | power => simp [Phase.next?, hdigit]
    have hgap : scan .gap (b :: bs) = (entry b).follow fun m => scan m bs := rfl
    rw [hgap, scan, hnext]
    exact if_pos hp

theorem scan_firstDigit {d : Nat} (hd : d < 10) (bs : Bytes) :
    scan .gap (digit d :: bs) = scan (.number .start (unread false)) (digit d :: bs) := by
  have : ∀ d < 10, entry (digit d) =
      .enter (.number (firstDigit (unread false) d).1 (firstDigit (unread false) d).2) := by decide
  have hgap : scan .gap (digit d :: bs) = (entry (digit d)).follow fun m => scan m bs := rfl
  have hnext : Phase.start.next? (unread false) (digit d) = some (firstDigit (unread false) d) := by
    simp only [Phase.next?, digit?_digit d hd]
  rw [hgap, this d hd]
  exact (leads_of_next hnext bs).symm

theorem scan_sign {ds : List Nat} (h : Numeral.Whole ds) (negative : Bool) (bs : Bytes) :
    scan .gap (Numeral.sign negative ++ digits ds ++ bs) =
      scan (.number .start (unread negative)) (digits ds ++ bs) := by
  cases negative with
  | true => rfl
  | false =>
    cases h with
    | zero => exact scan_firstDigit (by decide) bs
    | other _ h => exact scan_firstDigit (h _ List.mem_cons_self) _

theorem scan_number {n : Numeral} {xs rest : Bytes} (h : n.Spelled xs) (hrest : Detached rest) :
    scan .gap (xs ++ rest) = (scan .gap rest).map (.number n :: ·) := by
  obtain @⟨power, hw, hf, hp⟩ := h
  obtain ⟨p, hphase, hwhole⟩ := leads_whole hw n.negative
  obtain ⟨q, hphase, hfraction⟩ := leads_fraction (n := ⟨n.negative, n.whole.reverse, [], none⟩) hphase rfl hf
  obtain ⟨r, hfinal, hpower⟩ := leads_power (n := ⟨n.negative, n.whole.reverse, n.fraction.reverse, none⟩)
    hphase rfl hp
  rw [List.append_assoc, List.append_assoc, scan_sign hw]
  refine (hwhole _).trans ((hfraction _).trans ((hpower rest).trans ?_))
  rw [scan_detached hfinal _ hrest]
  congr 1
  funext ts
  obtain ⟨negative, whole, fraction, x⟩ := n
  cases x <;> simp [finish]

/-! ### Strings -/

theorem scan_hex (ps : List Piece) {left value u : Nat} {xs : Bytes} (hlen : xs.length = left) (hleft : 1 ≤ left)
    (h : hexValue? value xs = some u) (rest : Bytes) :
    scan (.hex ps left value) (xs ++ rest) = scan (.text (.unit u :: ps)) rest := by
  induction xs generalizing left value with
  | nil =>
    rw [← hlen] at hleft
    exact absurd hleft (by decide)
  | cons b xs ih =>
    obtain ⟨w, hw, h⟩ := Option.bind_eq_some_iff.mp h
    obtain ⟨d, hd, rfl⟩ := Option.map_eq_some_iff.mp hw
    rw [List.cons_append, scan, hd]
    dsimp only
    rw [List.length_cons] at hlen
    split
    · rename_i hlast
      have hnil : xs = [] := List.eq_nil_of_length_eq_zero (by omega)
      rw [hnil] at h ⊢
      cases h
      rfl
    · exact ih (by omega) (by omega) h

theorem scan_piece {p : Piece} {xs : Bytes} (h : p.Spelled xs) (ps : List Piece) (rest : Bytes) :
    scan (.text ps) (xs ++ rest) = scan (.text (p :: ps)) rest := by
  cases h with
  | plain hctrl hquote hslash => rw [List.singleton_append, scan, if_neg hquote, if_neg hslash, if_neg hctrl]
  | @short b c h =>
    have hunit : b ≠ 0x75 := by
      rintro rfl
      cases h
    have hslash : scan (.text ps) (0x5c :: b :: rest) = scan (.escape ps) (b :: rest) := rfl
    rw [List.cons_append, List.singleton_append, hslash, scan, if_neg hunit, h]
  | unit hlen h =>
    have hslash : ∀ bs, scan (.text ps) (0x5c :: 0x75 :: bs) = scan (.hex ps 4 0) bs := fun _ => rfl
    rw [List.cons_append, List.cons_append, hslash]
    exact scan_hex ps hlen (by decide) h rest

theorem scan_literal {ps qs : List Piece} {xs : Bytes} (h : Literal ps xs) (rest : Bytes) :
    scan (.text qs) (xs ++ 0x22 :: rest) = (scan .gap rest).map (.text (qs.reverse ++ ps) :: ·) := by
  induction h generalizing qs with
  | nil =>
    rw [List.append_nil]
    rfl
  | cons hp _ ih =>
    rw [List.append_assoc, scan_piece hp, ih, List.reverse_cons, List.append_assoc]
    rfl

/-! ### Texts -/

def isNumber : Token → Bool
  | .number _ => true
  | _ => false

def Apart : List Token → Prop
  | [] => True
  | t :: ts => (t.isNumber = true → ∀ u ∈ ts.head?, u.isNumber = false) ∧ Apart ts

theorem scan_spelled {t : Token} {xs rest : Bytes} (h : t.Spelled xs) (hrest : t.isNumber = true → Detached rest) :
    scan .gap (xs ++ rest) = (scan .gap rest).map (t :: ·) := by
  cases h with
  | openArray | closeArray | openObject | closeObject | comma | colon | null | isTrue | isFalse => rfl
  | text h =>
    rw [List.append_assoc]
    exact scan_literal h rest
  | number h => exact scan_number h (hrest rfl)

theorem detached_of_spelled {t : Token} {xs : Bytes} (h : t.Spelled xs) (ht : t.isNumber = false) (bs : Bytes) :
    Detached (xs ++ bs) := by
  have hfirst : ∀ c ∈ [(0x5b : UInt8), 0x5d, 0x7b, 0x7d, 0x2c, 0x3a, 0x6e, 0x74, 0x66, 0x22], EndsNumber c := by
    decide +kernel
  rintro b hb
  refine hfirst b ?_
  cases h with
  | number => cases ht
  | _ =>
    cases hb
    decide

theorem detached_of_written {ts : List Token} {bs : Bytes} (h : Written ts bs)
    (hts : ∀ u ∈ ts.head?, u.isNumber = false) : Detached bs := by
  cases h with
  | done => exact nofun
  | blank h => exact detached_of_blank h _
  | token h => exact detached_of_spelled h (hts _ rfl) _

/-- Whatever is spelled is scanned. -/
theorem scan_of_written {ts : List Token} {bs : Bytes} (h : Written ts bs) (hts : Apart ts) :
    scan .gap bs = some ts := by
  induction h with
  | done => rfl
  | @blank b ts bs hb _ ih =>
    have hskip : entry b = .skip := if_pos hb
    have hgap : scan .gap (b :: bs) = (entry b).follow fun m => scan m bs := rfl
    rw [hgap, hskip]
    exact ih hts
  | token ht hrest ih =>
    rw [scan_spelled ht fun hn => detached_of_written hrest (hts.1 hn), ih hts.2]
    rfl

/-- The scanner finds in a text the tokens that it spells, and only those. -/
theorem ofBytes?_eq_some_iff {ts : List Token} (hts : Apart ts) {bs : Bytes} :
    ofBytes? bs = some ts ↔ Written ts bs :=
  ⟨fun h => written_of_scan .gap h, fun h => scan_of_written h hts⟩

end Token

end FirmwareUpdate.Json
