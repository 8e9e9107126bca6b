import FirmwareUpdate.Json.Number
import FirmwareUpdate.Json.Tree

/-!
# JSON values

A value that is kept, with its strings decoded and its numbers read. Object members are sorted by
name, and of two members with one name the later one counts. A kept value may open a limited number
of containers inside one another.
-/

namespace FirmwareUpdate.Json

inductive Value where
  | null
  | bool (b : Bool)
  | number (n : Number)
  | text (s : String)
  | array (items : List Value)
  | object (members : List (String × Value))
  deriving Repr

/-- The bytes of a string's elements. A leading surrogate must be followed by a trailing one, and
the two name one character. -/
def Piece.bytes? : List Piece → Option Bytes
  | [] => some []
  | .byte b :: rest => (bytes? rest).map (b :: ·)
  | .unit u :: rest =>
    if u < 0xd800 ∨ 0xdfff < u then
      (bytes? rest).map (String.utf8EncodeChar (Char.ofNat u) ++ ·)
    else
      match rest with
      | .unit v :: rest =>
        if u < 0xdc00 ∧ 0xdc00 ≤ v ∧ v ≤ 0xdfff then
          (bytes? rest).map
            (String.utf8EncodeChar (Char.ofNat (0x10000 + (u - 0xd800) * 0x400 + (v - 0xdc00))) ++ ·)
        else none
      | _ => none

def Piece.text? (ps : List Piece) : Option String := (bytes? ps).bind Bytes.text?

def depthLimit : Nat := 127

namespace Value

/-- The members with one more, kept in order of their names; an earlier value is replaced. -/
def insert (key : String) (v : Value) : List (String × Value) → List (String × Value)
  | [] => [(key, v)]
  | (k, w) :: rest =>
    if key < k then (key, v) :: (k, w) :: rest
    else if key = k then (key, v) :: rest
    else (k, w) :: insert key v rest

mutual

def ofTree? (depth : Nat) : Tree → Option Value
  | .null => some .null
  | .bool b => some (.bool b)
  | .number n => n.number?.map .number
  | .text ps => (Piece.text? ps).map .text
  | .array items =>
    match depth with
    | 0 => none
    | depth + 1 => (itemsOf? depth items).map .array
  | .object members =>
    match depth with
    | 0 => none
    | depth + 1 => (membersOf? depth [] members).map .object

def itemsOf? (depth : Nat) : List Tree → Option (List Value)
  | [] => some []
  | t :: rest => do
    let v ← ofTree? depth t
    let vs ← itemsOf? depth rest
    return v :: vs

def membersOf? (depth : Nat) (before : List (String × Value)) :
    List (List Piece × Tree) → Option (List (String × Value))
  | [] => some before
  | (key, t) :: rest => do
    let key ← Piece.text? key
    let v ← ofTree? depth t
    membersOf? depth (insert key v before) rest

end

def ofBytes? (bs : Bytes) : Option Value := do
  ofTree? depthLimit (← Tree.ofBytes? bs)

def member? (v : Value) (key : String) : Option Value :=
  match v with
  | .object members => members.lookup key
  | _ => none

def text? : Value → Option String
  | .text s => some s
  | _ => none

end Value

end FirmwareUpdate.Json
