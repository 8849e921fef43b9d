import Inventory.Text.Hex
import Inventory.Text.Printable

/-! # Quoted text in messages

A text between double quotes. The quote, the backslash and the four controls with a letter of their own
are escaped by a backslash; any other character that is not printable is given by its number.
-/

namespace Inventory.Text

def quotedChar (c : Char) : List Char :=
  match c with
  | '"' => ['\\', '"']
  | '\\' => ['\\', '\\']
  | '\n' => ['\\', 'n']
  | '\r' => ['\\', 'r']
  | '\t' => ['\\', 't']
  | '\x00' => ['\\', '0']
  | _ =>
    if isPrintable c then [c]
    else ['\\', 'u', '\x7b'] ++ hexShort c.toNat ++ ['\x7d']

def quoted (s : String) : String :=
  String.ofList ('"' :: (s.toList.flatMap quotedChar ++ ['"']))

end Inventory.Text
