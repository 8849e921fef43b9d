import Inventory.ByteOrder
import Inventory.Datum
import Inventory.Text.Utf8

/-! # Writing MessagePack

Sizes and integers take the shortest form, integers that are not negative one without sign, and every other
number eight bytes. What the format cannot hold (something undefined, a key that names nothing) is written as
`nil`.
-/

namespace Inventory.MessagePack

def numbered (first : Nat) (width n : Nat) : Bytes :=
  UInt8.ofNat first :: bigEndian width n

def unsignedBytes (n : Nat) : Bytes :=
  if n < 0x80 then [UInt8.ofNat n]
  else if n < 0x100 then numbered 0xCC 1 n
  else if n < 0x10000 then numbered 0xCD 2 n
  else if n < 0x100000000 then numbered 0xCE 4 n
  else numbered 0xCF 8 n

def signedNumbered (first : Nat) (width : Nat) (i : Int) : Bytes :=
  numbered first width (i % byteRange width).toNat

def integerBytes (i : Int) : Bytes :=
  if 0 ≤ i then unsignedBytes i.toNat
  else if -0x20 ≤ i then [UInt8.ofNat (i + 0x100).toNat]
  else if -0x80 ≤ i then signedNumbered 0xD0 1 i
  else if -0x8000 ≤ i then signedNumbered 0xD1 2 i
  else if -0x80000000 ≤ i then signedNumbered 0xD2 4 i
  else signedNumbered 0xD3 8 i

def textBytes (s : String) : Bytes :=
  let bytes := Text.utf8 s
  let count := bytes.length
  (if count < 0x20 then [UInt8.ofNat (0xA0 + count)]
    else if count < 0x100 then numbered 0xD9 1 count
    else if count < 0x10000 then numbered 0xDA 2 count
    else numbered 0xDB 4 count) ++ bytes

def binaryBytes (bytes : Bytes) : Bytes :=
  let count := bytes.length
  (if count < 0x100 then numbered 0xC4 1 count
    else if count < 0x10000 then numbered 0xC5 2 count
    else numbered 0xC6 4 count) ++ bytes

def listHead (count : Nat) : Bytes :=
  if count < 0x10 then [UInt8.ofNat (0x90 + count)]
  else if count < 0x10000 then numbered 0xDC 2 count
  else numbered 0xDD 4 count

def mapHead (count : Nat) : Bytes :=
  if count < 0x10 then [UInt8.ofNat (0x80 + count)]
  else if count < 0x10000 then numbered 0xDE 2 count
  else numbered 0xDF 4 count

def keyBytes : Key → Bytes
  | .text s => textBytes s
  | .bytes b => binaryBytes b
  | .index n => unsignedBytes n
  | .other => [0xC0]

mutual

def write : Datum → Bytes
  | .null => [0xC0]
  | .bool false => [0xC2]
  | .bool true => [0xC3]
  | .unsigned n => unsignedBytes n
  | .signed i => integerBytes i
  | .real x => numbered 0xCB 8 x.bits.toNat
  | .text s => textBytes s
  | .bytes b => binaryBytes b
  | .undefined => [0xC0]
  | .list items => listHead items.length ++ writeItems items
  | .map entries => mapHead entries.length ++ writeEntries entries

def writeItems : List Datum → Bytes
  | [] => []
  | d :: rest => write d ++ writeItems rest

def writeEntries : List (Key × Datum) → Bytes
  | [] => []
  | (key, d) :: rest => keyBytes key ++ (write d ++ writeEntries rest)

end

end Inventory.MessagePack
