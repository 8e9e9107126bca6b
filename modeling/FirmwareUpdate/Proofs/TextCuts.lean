import FirmwareUpdate.Bytes
import FirmwareUpdate.Text.Boundary

/-!
# Cut texts

A text that is cut at a byte count is the longest of its beginnings that fit. It ends where a scan backwards
from the limit meets the first position at which a character ends. A cut at the limit itself fails if that is inside
a character.
-/

namespace FirmwareUpdate.Text

/-! ## Runs of characters -/

def width : List Char → Nat
  | [] => 0
  | c :: cs => c.utf8Size + width cs

theorem width_append (cs ds : List Char) : width (cs ++ ds) = width cs + width ds := by
  induction cs with
  | nil => exact (Nat.zero_add _).symm
  | cons c cs ih => rw [List.cons_append, width, width, ih, Nat.add_assoc]

theorem utf8ByteSize_eq_width (s : String) : s.utf8ByteSize = width s.toList := by
  have hlist : ∀ cs, (String.ofList cs).utf8ByteSize = width cs := by
    intro cs
    induction cs with
    | nil => rfl
    | cons c cs ih =>
      have hsplit : c :: cs = [c] ++ cs := rfl
      rw [hsplit, String.ofList_append, String.utf8ByteSize_append, ih]
      simp [width]
  rw [← hlist, String.ofList_toList]

theorem takeFitting_prefix (n : Nat) (cs : List Char) : takeFitting n cs <+: cs := by
  induction cs generalizing n with
  | nil => exact List.nil_prefix
  | cons c cs ih =>
    rw [takeFitting]
    split
    · exact List.prefix_cons_inj c |>.mpr (ih _)
    · exact List.nil_prefix

theorem width_takeFitting (n : Nat) (cs : List Char) : width (takeFitting n cs) ≤ n := by
  induction cs generalizing n with
  | nil => exact Nat.zero_le n
  | cons c cs ih =>
    rw [takeFitting]
    split
    · have hrest := ih (n - c.utf8Size)
      rw [width]
      omega
    · exact Nat.zero_le n

/-- A beginning that fits is not longer than what is kept. -/
theorem prefix_takeFitting {n : Nat} {front : List Char} (h : width front ≤ n) (back : List Char) :
    front <+: takeFitting n (front ++ back) := by
  induction front generalizing n with
  | nil => exact List.nil_prefix
  | cons c front ih =>
    rw [width] at h
    rw [List.cons_append, takeFitting, if_pos (by omega)]
    exact List.prefix_cons_inj c |>.mpr (ih (by omega))

/-- A front that fits is kept, and what fits of the rest behind it. -/
theorem takeFitting_append {n : Nat} {front : List Char} (h : takeFitting n front = front)
    (back : List Char) : ∃ room, takeFitting n (front ++ back) = front ++ takeFitting room back := by
  induction front generalizing n with
  | nil => exact ⟨n, rfl⟩
  | cons c front ih =>
    rw [takeFitting] at h
    split at h
    · rename_i hc
      obtain ⟨room, hroom⟩ := ih (List.cons.inj h).2
      exact ⟨room, by rw [List.cons_append, takeFitting, if_pos hc, hroom, List.cons_append]⟩
    · cases h

/-- Texts that begin differently still do so when they are cut. -/
theorem takeBytes_ne {n : Nat} {s t : String} {front front' back back' : List Char}
    (hs : s.toList = front ++ back) (ht : t.toList = front' ++ back') (hlen : front.length = front'.length)
    (hn : takeFitting n front = front) (hn' : takeFitting n front' = front') (h : front ≠ front') :
    takeBytes n s ≠ takeBytes n t := by
  intro he
  have he := congrArg String.toList he
  obtain ⟨room, hroom⟩ := takeFitting_append hn back
  obtain ⟨room', hroom'⟩ := takeFitting_append hn' back'
  rw [takeBytes, takeBytes, String.toList_ofList, String.toList_ofList, hs, ht, hroom, hroom'] at he
  exact h (List.append_inj he hlen).1

/-! ## The longest beginning -/

/-- Of the beginnings of `s` that take at most `n` bytes, the longest. -/
structure Longest (n : Nat) (s t : String) : Prop where
  begins : ∃ rest, s = t ++ rest
  fits : t.utf8ByteSize ≤ n
  most : ∀ u rest, s = u ++ rest → u.utf8ByteSize ≤ n → u.utf8ByteSize ≤ t.utf8ByteSize

theorem takeBytes_longest (n : Nat) (s : String) : Longest n s (takeBytes n s) where
  begins := by
    obtain ⟨rest, hrest⟩ := takeFitting_prefix n s.toList
    exact ⟨String.ofList rest, by rw [takeBytes, ← String.ofList_append, hrest, String.ofList_toList]⟩
  fits := by
    rw [utf8ByteSize_eq_width, takeBytes, String.toList_ofList]
    exact width_takeFitting n s.toList
  most := by
    rintro u rest rfl hu
    rw [utf8ByteSize_eq_width] at hu ⊢
    rw [utf8ByteSize_eq_width, takeBytes, String.toList_ofList, String.toList_append]
    obtain ⟨more, hmore⟩ := prefix_takeFitting hu rest.toList
    rw [← hmore, width_append]
    exact Nat.le_add_right _ _

/-! ## The scan backwards -/

/-- The first position at or before `n`, counted backwards, at which a character of `s` ends. -/
def lastBoundary (s : String) : Nat → Nat
  | 0 => 0
  | n + 1 => if String.Pos.Raw.isValid s ⟨n + 1⟩ then n + 1 else lastBoundary s n

/-- Characters end exactly where beginnings do. -/
theorem isValid_iff_begins {s : String} {n : Nat} :
    String.Pos.Raw.isValid s ⟨n⟩ = true ↔ ∃ t rest, s = t ++ rest ∧ t.utf8ByteSize = n := by
  rw [String.Pos.Raw.isValid_eq_true_iff, String.Pos.Raw.isValid_iff_exists_append]
  constructor
  · rintro ⟨t, rest, hs, hn⟩
    exact ⟨t, rest, hs, (congrArg String.Pos.Raw.byteIdx hn).symm⟩
  · rintro ⟨t, rest, hs, rfl⟩
    exact ⟨t, rest, hs, rfl⟩

theorem lastBoundary_eq {n : Nat} {s t : String} (h : Longest n s t) : lastBoundary s n = t.utf8ByteSize := by
  obtain ⟨rest, hs⟩ := h.begins
  have hfits := h.fits
  have hmost := h.most
  clear h
  induction n with
  | zero => exact (Nat.le_zero.mp hfits).symm
  | succ n ih =>
    rw [lastBoundary]
    split
    · rename_i hvalid
      obtain ⟨u, rest', hu, hsize⟩ := isValid_iff_begins.mp hvalid
      have hle := hmost u rest' hu (Nat.le_of_eq hsize)
      omega
    · rename_i hvalid
      have hne : t.utf8ByteSize ≠ n + 1 := fun he => hvalid (isValid_iff_begins.mpr ⟨t, rest, hs, he⟩)
      exact ih (by omega) fun u rest' hu hsize => hmost u rest' hu (by omega)

theorem take_ofText {s t rest : String} (h : s = t ++ rest) :
    (Bytes.ofText s).take t.utf8ByteSize = Bytes.ofText t := by
  rw [h, Bytes.ofText_append, ← Bytes.length_ofText, List.take_left]

theorem longest_iff {n : Nat} {s t : String} : Longest n s t ↔ t = takeBytes n s := by
  constructor
  · intro h
    have h' := takeBytes_longest n s
    obtain ⟨_, hs⟩ := h.begins
    obtain ⟨_, hs'⟩ := h'.begins
    apply Bytes.ofText_inj
    rw [← take_ofText hs, ← take_ofText hs', ← lastBoundary_eq h, ← lastBoundary_eq h']
  · rintro rfl
    exact takeBytes_longest n s

/-- What is kept are the bytes up to the position that the scan stops at. -/
theorem ofText_takeBytes (n : Nat) (s : String) :
    Bytes.ofText (takeBytes n s) = (Bytes.ofText s).take (lastBoundary s n) := by
  have h := takeBytes_longest n s
  obtain ⟨rest, hs⟩ := h.begins
  rw [lastBoundary_eq h, take_ofText hs]

/-! ## Cuts at a byte -/

/-- `t` is what a cut at byte `n` leaves of `s`: all of it if it fits, and otherwise its first `n` bytes. -/
structure CutTo (n : Nat) (s t : String) : Prop where
  begins : ∃ rest, s = t ++ rest
  fits : t.utf8ByteSize ≤ n
  whole : s.utf8ByteSize ≤ n → t = s
  full : n ≤ s.utf8ByteSize → t.utf8ByteSize = n

def Straddled (n : Nat) (s : String) : Prop :=
  ∃ front c back, s = front ++ String.singleton c ++ back ∧
    front.utf8ByteSize < n ∧ n < front.utf8ByteSize + c.utf8Size

/-- The first character that is not kept would not have fitted. -/
theorem takeFitting_stops (n : Nat) (cs : List Char) :
    takeFitting n cs = cs ∨
      ∃ c back, cs = takeFitting n cs ++ c :: back ∧ n < width (takeFitting n cs) + c.utf8Size := by
  induction cs generalizing n with
  | nil => exact .inl rfl
  | cons c cs ih =>
    rw [takeFitting]
    split
    · rcases ih (n - c.utf8Size) with hall | ⟨d, back, hcs, hd⟩
      · exact .inl (by rw [hall])
      · refine .inr ⟨d, back, by rw [List.cons_append, ← hcs], ?_⟩
        rw [width]
        omega
    · rename_i hc
      exact .inr ⟨c, cs, rfl, by rw [width]; omega⟩

theorem takeBytes_stops {n : Nat} {s : String} (h : n < s.utf8ByteSize) :
    ∃ c back, s = takeBytes n s ++ String.singleton c ++ back ∧ n < (takeBytes n s).utf8ByteSize + c.utf8Size := by
  rcases takeFitting_stops n s.toList with hall | ⟨c, back, hs, hc⟩
  · have hfits := (takeBytes_longest n s).fits
    rw [takeBytes, hall, String.ofList_toList] at hfits
    omega
  · refine ⟨c, String.ofList back, ?_, ?_⟩
    · rw [← String.toList_inj]
      simpa [takeBytes] using hs
    · rwa [utf8ByteSize_eq_width, takeBytes, String.toList_ofList]

theorem takeFitting_append_cons {n : Nat} {front : List Char} {c : Char} (h : width front ≤ n)
    (hc : n < width front + c.utf8Size) (back : List Char) : takeFitting n (front ++ c :: back) = front := by
  induction front generalizing n with
  | nil =>
    rw [width] at hc
    rw [List.nil_append, takeFitting, if_neg (by omega)]
  | cons d front ih =>
    rw [width] at h hc
    rw [List.cons_append, takeFitting, if_pos (by omega), ih (by omega) (by omega)]

/-- What is kept ends before the character that is across the limit. -/
theorem takeBytes_append_singleton {n : Nat} {front : String} {c : Char} (h : front.utf8ByteSize ≤ n)
    (hc : n < front.utf8ByteSize + c.utf8Size) (back : String) :
    takeBytes n (front ++ String.singleton c ++ back) = front := by
  rw [utf8ByteSize_eq_width] at h hc
  rw [← String.toList_inj]
  simpa [takeBytes] using takeFitting_append_cons h hc back.toList

theorem cutAt?_of_lt {n : Nat} {s : String} (h : n < s.utf8ByteSize) :
    cutAt? n s = if (takeBytes n s).utf8ByteSize = n then some (takeBytes n s) else none :=
  if_neg (Nat.not_le_of_lt h)

theorem cutAt?_eq_some_iff {n : Nat} {s t : String} : cutAt? n s = some t ↔ CutTo n s t := by
  rcases Nat.lt_or_ge n s.utf8ByteSize with hlong | hfits
  · have hlongest := takeBytes_longest n s
    rw [cutAt?_of_lt hlong]
    constructor
    · intro h
      obtain ⟨hsize, ⟨⟩⟩ := Option.ite_none_right_eq_some.mp h
      exact ⟨hlongest.begins, hlongest.fits, fun hfits => absurd hfits (by omega), fun _ => hsize⟩
    · intro h
      have hsize := h.full (Nat.le_of_lt hlong)
      have ht : t = takeBytes n s :=
        longest_iff.mp ⟨h.begins, h.fits, fun _ _ _ hu => by rw [hsize]; exact hu⟩
      rw [← ht, if_pos hsize]
  · rw [cutAt?, if_pos hfits]
    constructor
    · rintro ⟨⟩
      exact ⟨⟨"", String.append_empty.symm⟩, hfits, fun _ => rfl, Nat.le_antisymm hfits⟩
    · intro h
      rw [h.whole hfits]

theorem cutAt?_eq_none_iff {n : Nat} {s : String} : cutAt? n s = none ↔ Straddled n s := by
  constructor
  · intro h
    have hlong : n < s.utf8ByteSize := Nat.lt_of_not_le fun hfits => by simp [cutAt?, hfits] at h
    rw [cutAt?_of_lt hlong] at h
    have hkept : (takeBytes n s).utf8ByteSize ≠ n := by simpa using h
    have hfits := (takeBytes_longest n s).fits
    obtain ⟨c, back, hs, hc⟩ := takeBytes_stops hlong
    exact ⟨takeBytes n s, c, back, hs, by omega, hc⟩
  · rintro ⟨front, c, back, rfl, hfront, hc⟩
    have hlong : n < (front ++ String.singleton c ++ back).utf8ByteSize := by
      rw [String.utf8ByteSize_append, String.utf8ByteSize_append, String.utf8ByteSize_singleton]
      omega
    rw [cutAt?_of_lt hlong, takeBytes_append_singleton (Nat.le_of_lt hfront) hc, if_neg (Nat.ne_of_lt hfront)]

/-- Characters of one byte are never cut. -/
theorem not_straddled_of_ascii {s : String} (h : ∀ c ∈ s.toList, c.utf8Size = 1) (n : Nat) : ¬ Straddled n s := by
  rintro ⟨front, c, back, rfl, hfront, hc⟩
  have hone := h c (by simp)
  omega

end FirmwareUpdate.Text
