import ControlPlane.Text.Class
import ControlPlane.Text.Numeral

/-!
# Quoted texts

How messages and log lines show an identifier or a key: between double quotes, with a backslash
before the characters that would end or disturb the quotation, and with the number of every
character that cannot be shown on its own.
-/

namespace ControlPlane.Text

/-- One character inside a quotation. -/
def quoteChar (c : Char) : List Char :=
  match c with
  | '"' => ['\\', '"']
  | '\\' => ['\\', '\\']
  | '\n' => ['\\', 'n']
  | '\r' => ['\\', 'r']
  | '\t' => ['\\', 't']
  | '\x00' => ['\\', '0']
  | c =>
    if isUnshown c then ['\\', 'u', '\x7b'] ++ Numeral.hex c.toNat ++ ['\x7d'] else [c]

/-- A text between double quotes. -/
def quoted (s : String) : String :=
  String.ofList ('"' :: s.toList.flatMap quoteChar ++ ['"'])

end ControlPlane.Text
