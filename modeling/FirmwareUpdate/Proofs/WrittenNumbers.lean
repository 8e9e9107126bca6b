import FirmwareUpdate.Json.Record
import FirmwareUpdate.Proofs.TreeSpelling

/-!
# Whole numbers as they are written

A whole number is written in its decimal digits, the highest first and no zero before it. Whoever reads it back
at some width gets the number, if it fits in that many bits.
-/

namespace FirmwareUpdate

theorem Bytes.ofText_ofList (cs : List Char) : ofText (String.ofList cs) = cs.flatMap String.utf8EncodeChar := by
  rw [ofText, String.toByteArray_ofList, List.utf8Encode, List.data_toByteArray]

namespace Json

/-- The decimal digits of a number; zero has one. -/
def decimals (n : Nat) : List Nat :=
  if n < 10 then [n] else decimals (n / 10) ++ [n % 10]

theorem toDigits_eq_decimals (n : Nat) : Nat.toDigits 10 n = (decimals n).map Nat.digitChar := by
  fun_induction decimals n with
  | case1 n h => rw [Nat.toDigits_of_lt_base h, List.map_singleton]
  | case2 n h ih =>
    rw [Nat.toDigits_of_base_le (by decide) (Nat.not_lt.mp h), ih, List.map_append, List.map_singleton]

theorem digits_decimals (n : Nat) : Digits (decimals n) := by
  fun_induction decimals n with
  | case1 n h => exact fun d hd => List.mem_singleton.mp hd ▸ h
  | case2 n h ih => exact ih.snoc (Nat.mod_lt n (by decide))

theorem digitsValue_decimals (n : Nat) : Numeral.digitsValue (decimals n) = n := by
  fun_induction decimals n with
  | case1 n h => simp [Numeral.digitsValue]
  | case2 n h ih =>
    rw [Numeral.digitsValue, List.foldl_append, ← Numeral.digitsValue, ih, List.foldl_cons, List.foldl_nil]
    exact Nat.div_add_mod n 10

theorem whole_decimals (n : Nat) : Numeral.Whole (decimals n) := by
  fun_induction decimals n with
  | case1 n h =>
    by_cases hzero : n = 0
    · rw [hzero]
      exact .zero
    · exact .other hzero fun d hd => List.mem_singleton.mp hd ▸ h
  | case2 n h ih =>
    refine ih.snoc ?_ (Nat.mod_lt n (by decide))
    -- the digits in front are those of a tenth of the number, and that is not zero
    intro hzero
    have hvalue := digitsValue_decimals (n / 10)
    rw [hzero] at hvalue
    have htenth : n / 10 = 0 := hvalue.symm
    omega

theorem encode_digitChar : ∀ d < 10, String.utf8EncodeChar (Nat.digitChar d) = [digit d] := by decide +kernel

theorem encode_digits {ds : List Nat} (h : Digits ds) :
    (ds.map Nat.digitChar).flatMap String.utf8EncodeChar = digits ds := by
  induction ds with
  | nil => rfl
  | cons d ds ih =>
    have hd := encode_digitChar d (h d List.mem_cons_self)
    have hds := ih fun e he => h e (List.mem_cons_of_mem d he)
    rw [List.map_cons, List.flatMap_cons, hd, hds]
    rfl

theorem ofText_toString (n : Nat) : Bytes.ofText (toString n) = digits (decimals n) := by
  have htext : toString n = String.ofList (Nat.toDigits 10 n) := Nat.repr_eq_ofList_toDigits
  rw [htext, Bytes.ofText_ofList, toDigits_eq_decimals, encode_digits (digits_decimals n)]

def Numeral.ofNat (n : Nat) : Numeral := ⟨false, decimals n, [], none⟩

theorem Numeral.spelled_ofNat (n : Nat) : (ofNat n).Spelled (Bytes.ofText (toString n)) := by
  have h : (ofNat n).Spelled _ := .intro (whole_decimals n) nofun .none
  rw [ofText_toString]
  simpa [ofNat, sign, point] using h

/-! ## Reading a number back -/

theorem Numeral.integer?_eq_some_iff {n : Numeral} {v : Nat} (hv : v < integerLimit) :
    n.integer? = some (v : Int) ↔
      n.negative = false ∧ n.fraction = [] ∧ n.exponent = none ∧ digitsValue n.whole = v := by
  obtain ⟨negative, whole, fraction, exponent⟩ := n
  have hcapped := cappedValue_eq_min integerLimit whole
  cases fraction with
  | cons d ds => simp [integer?]
  | nil =>
    cases exponent with
    | some x => simp [integer?]
    | none =>
      cases negative with
      | true =>
        simp [integer?, hcapped]
        omega
      | false =>
        simp [integer?, hcapped]
        omega

namespace Tree

/-- A number with neither sign nor point nor exponent. -/
def Counts (t : Tree) (v : Nat) : Prop := ∃ ds, t = .number ⟨false, ds, [], none⟩ ∧ Numeral.digitsValue ds = v

theorem unsigned?_eq_some_iff {t : Tree} {width v : Nat} (hwidth : width ≤ 64) :
    t.unsigned? width = some v ↔ t.Counts v ∧ v < Nat.pow 2 width := by
  cases t with
  | number n =>
    have hlimit (h : v < Nat.pow 2 width) : v < Numeral.integerLimit :=
      Nat.lt_of_lt_of_le h (Nat.pow_le_pow_right (by decide) hwidth)
    have hcounts : (Tree.number n).Counts v ↔
        n.negative = false ∧ n.fraction = [] ∧ n.exponent = none ∧ Numeral.digitsValue n.whole = v := by
      obtain ⟨negative, whole, fraction, exponent⟩ := n
      simp [Counts, and_assoc]
    have hinteger : (Tree.number n).unsigned? width = some v ↔ n.integer? = some (v : Int) ∧ v < Nat.pow 2 width := by
      rw [unsigned?, Numeral.unsigned?]
      cases n.integer? with
      | none => simp
      | some i =>
        have hi : (0 ≤ i ∧ i.toNat < Nat.pow 2 width) ∧ i.toNat = v ↔ i = v ∧ v < Nat.pow 2 width := by
          generalize Nat.pow 2 width = bound
          omega
        simpa only [Option.ite_none_right_eq_some, Option.some.injEq] using hi
    rw [hinteger, hcounts]
    exact and_congr_left fun h => Numeral.integer?_eq_some_iff (hlimit h)
  | _ => simp [unsigned?, Counts]

theorem counts_number (n : Nat) : (Tree.number (Numeral.ofNat n)).Counts n :=
  ⟨decimals n, rfl, digitsValue_decimals n⟩

theorem writtenAs_number (n : Nat) :
    (Tree.number (Numeral.ofNat n)).WrittenAs (Bytes.ofText (toString n)) :=
  List.append_nil (Bytes.ofText (toString n)) ▸ .token (.number (Numeral.spelled_ofNat n)) .done

end Tree

end Json

end FirmwareUpdate
