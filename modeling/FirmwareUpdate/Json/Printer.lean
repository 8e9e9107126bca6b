import FirmwareUpdate.Decimal.Layout
import FirmwareUpdate.Json.Value

/-!
# Writing JSON

Values are written without blanks. In a string only the quote, the backslash and control characters
are escaped; all else stands as it is.
-/

namespace FirmwareUpdate.Json

/-- Doubles are written positionally from `1e-5` up to but not including `1e16`, a whole one with
`.0`, and with a bare `e` elsewhere. -/
def numberLayout : Decimal.Layout where
  leastPoint := -4
  mostPoint := 16
  wholeTail := ".0"
  mark := "e"

def escapeByte (b : UInt8) : Bytes :=
  match b with
  | 0x22 => [0x5c, 0x22]
  | 0x5c => [0x5c, 0x5c]
  | 0x08 => [0x5c, 0x62]
  | 0x09 => [0x5c, 0x74]
  | 0x0a => [0x5c, 0x6e]
  | 0x0c => [0x5c, 0x66]
  | 0x0d => [0x5c, 0x72]
  | _ =>
    if b < 0x20 then
      [0x5c, 0x75, 0x30, 0x30] ++ Bytes.ofText (Bytes.hex [b])
    else [b]

def quote (s : String) : Bytes :=
  0x22 :: (Bytes.ofText s).flatMap escapeByte ++ [0x22]

def separated : List Bytes → Bytes
  | [] => []
  | [x] => x
  | x :: rest => x ++ 0x2c :: separated rest

def braces (members : List (String × Bytes)) : Bytes :=
  0x7b :: separated (members.map fun m => quote m.1 ++ 0x3a :: m.2) ++ [0x7d]

def brackets (items : List Bytes) : Bytes := 0x5b :: separated items ++ [0x5d]

def Number.render : Number → Bytes
  | .int i => Bytes.ofText (toString i)
  | .real x => Bytes.ofText (numberLayout.render x)

def renderBool (b : Bool) : Bytes := Bytes.ofText (if b then "true" else "false")

namespace Value

mutual

def render : Value → Bytes
  | .null => Bytes.ofText "null"
  | .bool b => renderBool b
  | .number n => n.render
  | .text s => quote s
  | .array items => brackets (renderItems items)
  | .object members => braces (renderMembers members)

def renderItems : List Value → List Bytes
  | [] => []
  | v :: rest => render v :: renderItems rest

def renderMembers : List (String × Value) → List (String × Bytes)
  | [] => []
  | (k, v) :: rest => (k, render v) :: renderMembers rest

end

end Value

end FirmwareUpdate.Json
