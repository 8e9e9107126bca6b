import FirmwareUpdate.Text.Unprintable

/-!
# Quoted text

A text between double quotes as it stands in log lines: quotes, backslashes and line controls have
short escapes, and other unprintable characters are given by their code point.
-/

namespace FirmwareUpdate.Text

def quoteChar (c : Char) : String :=
  match c with
  | '"' => "\\\""
  | '\\' => "\\\\"
  | '\n' => "\\n"
  | '\r' => "\\r"
  | '\t' => "\\t"
  | '\x00' => "\\0"
  | c =>
    if isUnprintable c then "\\u\x7b" ++ String.ofList (Nat.toDigits 16 c.toNat) ++ "\x7d"
    else String.singleton c

def quoted (s : String) : String := "\"" ++ String.join (s.toList.map quoteChar) ++ "\""

end FirmwareUpdate.Text
