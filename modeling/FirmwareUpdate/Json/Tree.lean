import FirmwareUpdate.Json.Token

/-!
# JSON trees

The shape of a JSON text, with strings and numbers as they are written. Tokens are put together on
a stack, so a tree may be of any depth.
-/

namespace FirmwareUpdate.Json

inductive Tree where
  | null
  | bool (b : Bool)
  | number (n : Numeral)
  | text (ps : List Piece)
  | array (items : List Tree)
  | object (members : List (List Piece × Tree))
  deriving Repr

namespace Tree

/-- A container that is still open. What it holds is collected backwards. -/
inductive Frame where
  | array (done : List Tree)
  | object (done : List (List Piece × Tree)) (key : List Piece)

inductive Await where
  | value
  | item
  | member
  | key (done : List (List Piece × Tree))
  | colon (done : List (List Piece × Tree)) (key : List Piece)
  | separator (t : Tree)

abbrev Position := Await × List Frame

def begin? (stack : List Frame) : Token → Option Position
  | .null => some (.separator .null, stack)
  | .bool b => some (.separator (.bool b), stack)
  | .number n => some (.separator (.number n), stack)
  | .text ps => some (.separator (.text ps), stack)
  | .openArray => some (.item, stack)
  | .openObject => some (.member, stack)
  | _ => none

def step? : Position → Token → Option Position
  | (.value, stack), t => begin? stack t
  | (.item, stack), .closeArray => some (.separator (.array []), stack)
  | (.item, stack), t => begin? (.array [] :: stack) t
  | (.member, stack), .closeObject => some (.separator (.object []), stack)
  | (.member, stack), .text key => some (.colon [] key, stack)
  | (.key done, stack), .text key => some (.colon done key, stack)
  | (.colon done key, stack), .colon => some (.value, .object done key :: stack)
  | (.separator t, .array done :: stack), .comma => some (.value, .array (t :: done) :: stack)
  | (.separator t, .array done :: stack), .closeArray =>
    some (.separator (.array (t :: done).reverse), stack)
  | (.separator t, .object done key :: stack), .comma => some (.key ((key, t) :: done), stack)
  | (.separator t, .object done key :: stack), .closeObject =>
    some (.separator (.object ((key, t) :: done).reverse), stack)
  | _, _ => none

/-- The tree of a whole text: one value, and nothing left open. -/
def complete? : Position → Option Tree
  | (.separator t, []) => some t
  | _ => none

def ofTokens? (ts : List Token) : Option Tree := do
  complete? (← ts.foldlM step? (.value, []))

def ofBytes? (bs : Bytes) : Option Tree := do
  ofTokens? (← Token.ofBytes? bs)

end Tree

end FirmwareUpdate.Json
