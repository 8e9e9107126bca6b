import FirmwareUpdate.Json.Printer
import FirmwareUpdate.Proofs.TreeSpelling

/-!
# What is written

A text that is quoted is read back as it was, whatever is in it. An object that is written from members is
read back with these members, in their order.
-/

namespace FirmwareUpdate.Json

/-! ## Texts -/

/-- The element that is read where a byte has been escaped: control characters without an escape of their own
are written as code units. -/
def Piece.ofByte (b : UInt8) : Piece :=
  match b with
  | 0x08 => .byte b
  | 0x09 => .byte b
  | 0x0a => .byte b
  | 0x0c => .byte b
  | 0x0d => .byte b
  | _ => if b < 0x20 then .unit b.toNat else .byte b

def Piece.quoted (s : String) : List Piece := (Bytes.ofText s).map ofByte

def controls : List UInt8 := (List.range 0x20).map UInt8.ofNat

theorem mem_controls {b : UInt8} (h : b < 0x20) : b ∈ controls :=
  List.mem_map.mpr ⟨b.toNat, List.mem_range.mpr (UInt8.lt_iff_toNat_lt.mp h), UInt8.ofNat_toNat⟩

theorem hexValue?_control : ∀ b ∈ controls, (Bytes.ofText (Bytes.hex [b])).length = 2 ∧
    hexValue? 0 (0x30 :: 0x30 :: Bytes.ofText (Bytes.hex [b])) = some b.toNat := by decide +kernel

theorem encode_control : ∀ b ∈ controls, String.utf8EncodeChar (Char.ofNat b.toNat) = [b] := by decide +kernel

theorem spelled_escapeByte (b : UInt8) : (Piece.ofByte b).Spelled (escapeByte b) := by
  unfold escapeByte
  split
  · exact .short rfl
  · exact .short rfl
  · exact .short rfl
  · exact .short rfl
  · exact .short rfl
  · exact .short rfl
  · exact .short rfl
  · rename_i hquote hslash hback htab hline hfeed hreturn
    unfold Piece.ofByte
    split
    · exact absurd rfl hback
    · exact absurd rfl htab
    · exact absurd rfl hline
    · exact absurd rfl hfeed
    · exact absurd rfl hreturn
    · split
      · rename_i hctrl
        obtain ⟨hlength, hvalue⟩ := hexValue?_control b (mem_controls hctrl)
        exact .unit (congrArg (· + 2) hlength) hvalue
      · rename_i hctrl
        exact .plain hctrl hquote hslash

theorem literal_escape (bs : Bytes) : Literal (bs.map Piece.ofByte) (bs.flatMap escapeByte) := by
  induction bs with
  | nil => exact .nil
  | cons b bs ih => exact .cons (spelled_escapeByte b) ih

theorem Piece.bytes?_ofByte (b : UInt8) (ps : List Piece) : bytes? (ofByte b :: ps) = (bytes? ps).map (b :: ·) := by
  unfold ofByte
  split
  case h_6 =>
    split
    · rename_i hctrl
      have hlow : b.toNat < 0x20 := UInt8.lt_iff_toNat_lt.mp hctrl
      rw [bytes?.eq_def]
      dsimp only
      rw [if_pos (.inl (by omega)), encode_control b (mem_controls hctrl)]
      rfl
    · rfl
  all_goals rfl

theorem Piece.text?_quoted (s : String) : text? (quoted s) = some s := by
  have hbytes : ∀ bs : Bytes, bytes? (bs.map ofByte) = some bs := by
    intro bs
    induction bs with
    | nil => rfl
    | cons b bs ih => rw [List.map_cons, bytes?_ofByte, ih, Option.map_some]
  rw [text?, quoted, hbytes]
  exact Bytes.text?_ofText s

/-! ## Objects -/

theorem Written.append {ts us : List Token} {xs ys : Bytes} (h : Written ts xs) (h' : Written us ys) :
    Written (ts ++ us) (xs ++ ys) := by
  induction h with
  | done => exact h'
  | blank hb _ ih => exact .blank hb ih
  | token ht _ ih =>
    rw [List.append_assoc]
    exact .token ht ih

theorem written_singleton {t : Token} {xs : Bytes} (h : t.Spelled xs) : Written [t] xs :=
  List.append_nil xs ▸ .token h .done

theorem written_quote (s : String) : Written [.text (Piece.quoted s)] (quote s) :=
  written_singleton (.text (literal_escape _))

theorem written_separated {parts : List (List Token × Bytes)} (h : ∀ p ∈ parts, Written p.1 p.2) :
    Written (listed (parts.map (·.1))) (separated (parts.map (·.2))) := by
  induction parts with
  | nil => exact .done
  | cons p parts ih =>
    have hp := h p List.mem_cons_self
    have hrest := ih fun q hq => h q (List.mem_cons_of_mem p hq)
    cases parts with
    | nil => exact hp
    | cons q rest => exact hp.append (.token .comma hrest)

namespace Tree

theorem writtenAs_quote (s : String) : (Tree.text (Piece.quoted s)).WrittenAs (quote s) := written_quote s

/-- Members of which each is written as its tree, between braces. -/
theorem writtenAs_braces {members : List (String × Tree × Bytes)} (h : ∀ m ∈ members, m.2.1.WrittenAs m.2.2) :
    (Tree.object (members.map fun m => (Piece.quoted m.1, m.2.1))).WrittenAs
      (braces (members.map fun m => (m.1, m.2.2))) := by
  have hparts : ∀ p ∈ members.map fun m =>
      (Token.text (Piece.quoted m.1) :: .colon :: m.2.1.tokens, quote m.1 ++ 0x3a :: m.2.2), Written p.1 p.2 := by
    intro p hp
    obtain ⟨m, hm, rfl⟩ := List.mem_map.mp hp
    exact (written_quote m.1).append (.token .colon (h m hm))
  have hmembers := written_separated hparts
  rw [List.map_map, List.map_map] at hmembers
  rw [WrittenAs, tokens, memberTokens_eq_map, List.map_map, braces, List.map_map]
  exact (Written.token .openObject hmembers).append (written_singleton .closeObject)

end Tree

end FirmwareUpdate.Json
