/-!
# Bytes

Byte strings are lists of octets. Text becomes bytes by UTF-8, and bytes are text exactly when they
are well-formed UTF-8.
-/

namespace FirmwareUpdate

abbrev Bytes := List UInt8

namespace Bytes

def ofText (s : String) : Bytes := s.toByteArray.data.toList

/-- The text whose UTF-8 form is given, if there is one. -/
def text? (bs : Bytes) : Option String := String.fromUTF8? ⟨bs.toArray⟩

theorem text?_ofText (s : String) : text? (ofText s) = some s := by
  have h : (⟨(ofText s).toArray⟩ : ByteArray) = s.toByteArray := by simp [ofText]
  simp only [text?, h, String.fromUTF8?]
  rw [dif_pos s.isValidUTF8]
  rfl

theorem ofText_of_text? {bs : Bytes} {s : String} (h : text? bs = some s) : ofText s = bs := by
  simp only [text?, String.fromUTF8?] at h
  split at h
  · cases h; simp [ofText, String.fromUTF8]
  · cases h

theorem ofText_inj {s t : String} (h : ofText s = ofText t) : s = t := by
  have := text?_ofText s
  rw [h, text?_ofText t] at this
  exact (Option.some.inj this).symm

theorem ofText_append (s t : String) : ofText (s ++ t) = ofText s ++ ofText t := by
  simp [ofText]

theorem length_ofText (s : String) : (ofText s).length = s.utf8ByteSize := by
  simp [ofText]

def nibble (n : UInt8) : Char :=
  if n < 10 then Char.ofNat (48 + n.toNat) else Char.ofNat (87 + n.toNat)

def hex (bs : Bytes) : String :=
  String.ofList (bs.flatMap fun (b : UInt8) => [nibble (b >>> 4), nibble (b &&& 15)])

end Bytes

end FirmwareUpdate
