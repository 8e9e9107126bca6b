import FirmwareUpdate.Bytes

/-!
# JSON tokens

A text is read byte by byte into tokens. The scanner checks what holds for every value, kept or
skipped: no control character inside a string, known escapes, well-formed numbers. Whether a string
is Unicode and whether a number has a range is left to those who keep it.
-/

namespace FirmwareUpdate.Json

/-- One element of a string: a byte as it stands or from a short escape, or a `\u` code unit. -/
inductive Piece where
  | byte (b : UInt8)
  | unit (u : Nat)
  deriving DecidableEq, Repr

structure Exponent where
  negative : Bool
  digits : List Nat
  deriving DecidableEq, Repr

/-- A number as it is written. There is a point exactly if there are fraction digits. -/
structure Numeral where
  negative : Bool
  whole : List Nat
  fraction : List Nat
  exponent : Option Exponent
  deriving DecidableEq, Repr

inductive Token where
  | openArray
  | closeArray
  | openObject
  | closeObject
  | comma
  | colon
  | null
  | bool (b : Bool)
  | text (ps : List Piece)
  | number (n : Numeral)
  deriving DecidableEq, Repr

namespace Token

inductive Phase where
  | start
  | zero
  | whole
  | point
  | fraction
  | mark
  | sign
  | power
  deriving DecidableEq, Repr

inductive Mode where
  | gap
  | word (rest : Bytes) (t : Token)
  | text (ps : List Piece)
  | escape (ps : List Piece)
  | hex (ps : List Piece) (left value : Nat)
  | number (phase : Phase) (n : Numeral)
  deriving DecidableEq, Repr

inductive Entry where
  | skip
  | emit (t : Token)
  | enter (m : Mode)
  | reject
  deriving DecidableEq, Repr

def isBlank (b : UInt8) : Bool := b == 0x20 || b == 0x0a || b == 0x09 || b == 0x0d

def digit? (b : UInt8) : Option Nat :=
  if 0x30 ≤ b ∧ b ≤ 0x39 then some (b.toNat - 0x30) else none

def hexDigit? (b : UInt8) : Option Nat :=
  if 0x30 ≤ b ∧ b ≤ 0x39 then some (b.toNat - 0x30)
  else if 0x61 ≤ b ∧ b ≤ 0x66 then some (b.toNat - 0x57)
  else if 0x41 ≤ b ∧ b ≤ 0x46 then some (b.toNat - 0x37)
  else none

def shortEscape? (b : UInt8) : Option UInt8 :=
  match b with
  | 0x22 => some 0x22
  | 0x5c => some 0x5c
  | 0x2f => some 0x2f
  | 0x62 => some 0x08
  | 0x66 => some 0x0c
  | 0x6e => some 0x0a
  | 0x72 => some 0x0d
  | 0x74 => some 0x09
  | _ => none

def unread (negative : Bool) : Numeral := ⟨negative, [], [], none⟩

/-- The first digit of a number: a zero stands alone. -/
def firstDigit (n : Numeral) (d : Nat) : Phase × Numeral :=
  (if d = 0 then .zero else .whole, { n with whole := [d] })

def entry (b : UInt8) : Entry :=
  if isBlank b then .skip
  else
    match b with
    | 0x5b => .emit .openArray
    | 0x5d => .emit .closeArray
    | 0x7b => .emit .openObject
    | 0x7d => .emit .closeObject
    | 0x2c => .emit .comma
    | 0x3a => .emit .colon
    | 0x22 => .enter (.text [])
    | 0x6e => .enter (.word [0x75, 0x6c, 0x6c] .null)
    | 0x74 => .enter (.word [0x72, 0x75, 0x65] (.bool true))
    | 0x66 => .enter (.word [0x61, 0x6c, 0x73, 0x65] (.bool false))
    | 0x2d => .enter (.number .start (unread true))
    | _ =>
      match digit? b with
      | some d => let (p, n) := firstDigit (unread false) d; .enter (.number p n)
      | none => .reject

def Entry.follow (e : Entry) (next : Mode → Option (List Token)) : Option (List Token) :=
  match e with
  | .skip => next .gap
  | .emit t => (next .gap).map (t :: ·)
  | .enter m => next m
  | .reject => none

def Phase.final : Phase → Bool
  | .zero | .whole | .fraction | .power => true
  | .start | .point | .mark | .sign => false

def pushPower (n : Numeral) (d : Nat) : Numeral :=
  match n.exponent with
  | some x => { n with exponent := some { x with digits := d :: x.digits } }
  | none => { n with exponent := some ⟨false, [d]⟩ }

/-- The number with one more byte; none if the byte does not belong to it. -/
def Phase.next? (phase : Phase) (n : Numeral) (b : UInt8) : Option (Phase × Numeral) :=
  let opensExponent := b == 0x65 || b == 0x45
  match phase, digit? b with
  | .start, some d => some (firstDigit n d)
  | .whole, some d => some (.whole, { n with whole := d :: n.whole })
  | .point, some d => some (.fraction, { n with fraction := [d] })
  | .fraction, some d => some (.fraction, { n with fraction := d :: n.fraction })
  | .mark, some d => some (.power, pushPower n d)
  | .sign, some d => some (.power, pushPower n d)
  | .power, some d => some (.power, pushPower n d)
  | .zero, none | .whole, none =>
    if b == 0x2e then some (.point, n) else if opensExponent then some (.mark, n) else none
  | .fraction, none => if opensExponent then some (.mark, n) else none
  | .mark, none =>
    if b == 0x2b then some (.sign, { n with exponent := some ⟨false, []⟩ })
    else if b == 0x2d then some (.sign, { n with exponent := some ⟨true, []⟩ })
    else none
  | _, _ => none

def finish (n : Numeral) : Token :=
  .number
    { n with
      whole := n.whole.reverse
      fraction := n.fraction.reverse
      exponent := n.exponent.map fun x => { x with digits := x.digits.reverse } }

def scan : Mode → Bytes → Option (List Token)
  | .gap, [] => some []
  | .number phase n, [] => if phase.final then some [finish n] else none
  | _, [] => none
  | .gap, b :: bs => (entry b).follow fun m => scan m bs
  | .word rest t, b :: bs =>
    match rest with
    | [c] => if b = c then (scan .gap bs).map (t :: ·) else none
    | c :: rest => if b = c then scan (.word rest t) bs else none
    | [] => none
  | .text ps, b :: bs =>
    if b = 0x22 then (scan .gap bs).map (.text ps.reverse :: ·)
    else if b = 0x5c then scan (.escape ps) bs
    else if b < 0x20 then none
    else scan (.text (.byte b :: ps)) bs
  | .escape ps, b :: bs =>
    if b = 0x75 then scan (.hex ps 4 0) bs
    else
      match shortEscape? b with
      | some c => scan (.text (.byte c :: ps)) bs
      | none => none
  | .hex ps left value, b :: bs =>
    match hexDigit? b with
    | none => none
    | some d =>
      if left ≤ 1 then scan (.text (.unit (16 * value + d) :: ps)) bs
      else scan (.hex ps (left - 1) (16 * value + d)) bs
  | .number phase n, b :: bs =>
    match phase.next? n b with
    | some (phase, n) => scan (.number phase n) bs
    | none =>
      if phase.final then
        ((entry b).follow fun m => scan m bs).map (finish n :: ·)
      else none

def ofBytes? (bs : Bytes) : Option (List Token) := scan .gap bs

end Token

end FirmwareUpdate.Json
