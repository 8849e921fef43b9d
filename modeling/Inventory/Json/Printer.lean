import Inventory.Datum
import Inventory.Decimal.Shortest

/-! # Writing JSON text

No white space; entries in the order given. In strings the quote, the backslash and the controls below
U+0020 are escaped and nothing else. What has no form in JSON (bytes, keys other than texts, numbers that
are not finite) is written as `null` or as the empty key.
-/

namespace Inventory.Json

def escapeChar (c : Char) : List Char :=
  match c with
  | '"' => ['\\', '"']
  | '\\' => ['\\', '\\']
  | '\x08' => ['\\', 'b']
  | '\x0C' => ['\\', 'f']
  | '\n' => ['\\', 'n']
  | '\r' => ['\\', 'r']
  | '\t' => ['\\', 't']
  | _ => if c.toNat < 0x20 then '\\' :: 'u' :: Text.hexFixed 4 c.toNat else [c]

def stringChars (s : String) : List Char :=
  '"' :: (s.toList.flatMap escapeChar ++ ['"'])

def integerChars (i : Int) : List Char :=
  if i < 0 then '-' :: Text.decimal i.natAbs else Text.decimal i.natAbs

def realChars (x : Binary64) : List Char :=
  if x.isFinite then Decimal.render x else ['n', 'u', 'l', 'l']

def keyChars : Key → List Char
  | .text s => stringChars s
  | _ => stringChars ""

mutual

def printChars : Datum → List Char
  | .null => ['n', 'u', 'l', 'l']
  | .bool true => ['t', 'r', 'u', 'e']
  | .bool false => ['f', 'a', 'l', 's', 'e']
  | .unsigned n => Text.decimal n
  | .signed i => integerChars i
  | .real x => realChars x
  | .text s => stringChars s
  | .bytes _ => ['n', 'u', 'l', 'l']
  | .undefined => ['n', 'u', 'l', 'l']
  | .list items => '[' :: (printItems items ++ [']'])
  | .map entries => '{' :: (printEntries entries ++ ['}'])

def printItems : List Datum → List Char
  | [] => []
  | [d] => printChars d
  | d :: next :: rest => printChars d ++ ',' :: printItems (next :: rest)

def printEntries : List (Key × Datum) → List Char
  | [] => []
  | [(key, d)] => keyChars key ++ ':' :: printChars d
  | (key, d) :: next :: rest => keyChars key ++ ':' :: (printChars d ++ ',' :: printEntries (next :: rest))

end

def print (d : Datum) : String :=
  String.ofList (printChars d)

end Inventory.Json
