import FirmwareUpdate.Json.Value

/-!
# Records

A record has declared fields. It is written as an object, where unknown members are passed over and
a declared one may stand only once, or as an array of its fields in the order of declaration, where
fields at the end may be missing.
-/

namespace FirmwareUpdate.Json

namespace Tree

def named? (members : List (List Piece × Tree)) : Option (List (String × Tree)) :=
  members.mapM fun m => (Piece.text? m.1).map (·, m.2)

/-- The one member of a name, or nothing; none if there are two. -/
def sole? (members : List (String × Tree)) (name : String) : Option (Option Tree) :=
  match members.filter (·.1 == name) with
  | [] => some none
  | [m] => some (some m.2)
  | _ => none

def fields? (names : List String) : Tree → Option (List (Option Tree))
  | .object members => do
    let members ← named? members
    names.mapM (sole? members)
  | .array items =>
    if items.length ≤ names.length then
      some (items.map some ++ List.replicate (names.length - items.length) none)
    else none
  | _ => none

def nullable (read : Tree → Option α) : Tree → Option (Option α)
  | .null => some none
  | t => (read t).map some

/-- A field that may be missing or `null`. -/
def optional (read : Tree → Option α) : Option Tree → Option (Option α)
  | none => some none
  | some t => nullable read t

def withDefault (default : α) (read : Tree → Option α) : Option Tree → Option α
  | none => some default
  | some t => read t

def text? : Tree → Option String
  | .text ps => Piece.text? ps
  | _ => none

def bool? : Tree → Option Bool
  | .bool b => some b
  | _ => none

def unsigned? (width : Nat) : Tree → Option Nat
  | .number n => n.unsigned? width
  | _ => none

def signed? : Tree → Option Int
  | .number n => n.signed?
  | _ => none

def list? (read : Tree → Option α) : Tree → Option (List α)
  | .array items => items.mapM read
  | _ => none

end Tree

end FirmwareUpdate.Json
