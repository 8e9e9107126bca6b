/-!
# Cutting text at a byte count

A limit in bytes must not split a character. `takeBytes n` keeps whole characters while they fit;
the result is the longest prefix of at most `n` bytes.
-/

namespace FirmwareUpdate.Text

/-- The longest run of leading characters whose UTF-8 forms fit together in `n` bytes. -/
def takeFitting : Nat → List Char → List Char
  | _, [] => []
  | n, c :: cs => if c.utf8Size ≤ n then c :: takeFitting (n - c.utf8Size) cs else []

def takeBytes (n : Nat) (s : String) : String :=
  String.ofList (takeFitting n s.toList)

/-- The first `n` bytes of `s` as a text; none when that cut falls inside a character. A text of
at most `n` bytes is kept whole. -/
def cutAt? (n : Nat) (s : String) : Option String :=
  if s.utf8ByteSize ≤ n then some s
  else
    let kept := takeBytes n s
    if kept.utf8ByteSize = n then some kept else none

end FirmwareUpdate.Text
