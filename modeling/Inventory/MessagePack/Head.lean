import Inventory.ByteOrder
import Inventory.Datum
import Inventory.Text.Utf8

/-! # Heads of MessagePack values

A value begins with a byte that gives its kind and, for the smaller ones, its size or the value itself; a size
or a number in more bytes follows, highest byte first. `head?` reads all of a scalar, and of a container
the number of its parts.
-/

namespace Inventory.MessagePack

inductive Head where
  /-- A scalar, and what it names as a key. -/
  | scalar (d : Datum) (key : Key)
  | list (count : Nat)
  | map (count : Nat)
  /-- Something of a type outside the format. -/
  | extension

def plain (d : Datum) (rest : Bytes) : Head × Bytes :=
  (.scalar d .other, rest)

def number? (width : Nat) (bytes : Bytes) : Option (Nat × Bytes) :=
  (takeBytes? width bytes).map fun (front, rest) => (ofBigEndian front, rest)

def signed? (width : Nat) (bytes : Bytes) : Option (Head × Bytes) :=
  (number? width bytes).map fun (n, rest) =>
    plain (.signed (Int.bmod n (byteRange width))) rest

/-- A number without sign. As a key only the forms of one and of eight bytes name a field. -/
def unsigned? (width : Nat) (bytes : Bytes) : Option (Head × Bytes) :=
  (number? width bytes).map fun (n, rest) =>
    (.scalar (.unsigned n) (if width = 1 ∨ width = 8 then .index n else .other), rest)

/-- A text of `count` bytes; one that is not well-formed stays bytes. -/
def text? (count : Nat) (bytes : Bytes) : Option (Head × Bytes) :=
  (takeBytes? count bytes).map fun (front, rest) =>
    match Text.ofUtf8? front with
    | some s => (.scalar (.text s) (.text s), rest)
    | none => (.scalar (.bytes front) (.bytes front), rest)

def bytes? (count : Nat) (bytes : Bytes) : Option (Head × Bytes) :=
  (takeBytes? count bytes).map fun (front, rest) => (.scalar (.bytes front) (.bytes front), rest)

def extension? (count : Nat) (bytes : Bytes) : Option (Head × Bytes) :=
  (takeBytes? (count + 1) bytes).map fun (_, rest) => (.extension, rest)

def sized? (width : Nat) (read : Nat → Bytes → Option (Head × Bytes)) (bytes : Bytes) :
    Option (Head × Bytes) :=
  (number? width bytes).bind fun (count, rest) => read count rest

def real? (width : Nat) (ofBits : Nat → Binary64) (bytes : Bytes) : Option (Head × Bytes) :=
  (number? width bytes).map fun (n, rest) => plain (.real (ofBits n)) rest

/-- The head that the first byte opens where the byte does not hold the size or the value. -/
def longHead? (first : Nat) (rest : Bytes) : Option (Head × Bytes) :=
  match first with
  | 0xC0 => some (plain .null rest)
  | 0xC2 => some (plain (.bool false) rest)
  | 0xC3 => some (plain (.bool true) rest)
  | 0xC4 => sized? 1 bytes? rest
  | 0xC5 => sized? 2 bytes? rest
  | 0xC6 => sized? 4 bytes? rest
  | 0xC7 => sized? 1 extension? rest
  | 0xC8 => sized? 2 extension? rest
  | 0xC9 => sized? 4 extension? rest
  | 0xCA => real? 4 Binary64.ofBits32 rest
  | 0xCB => real? 8 (fun n => ⟨UInt64.ofNat n⟩) rest
  | 0xCC => unsigned? 1 rest
  | 0xCD => unsigned? 2 rest
  | 0xCE => unsigned? 4 rest
  | 0xCF => unsigned? 8 rest
  | 0xD0 => signed? 1 rest
  | 0xD1 => signed? 2 rest
  | 0xD2 => signed? 4 rest
  | 0xD3 => signed? 8 rest
  | 0xD4 => extension? 1 rest
  | 0xD5 => extension? 2 rest
  | 0xD6 => extension? 4 rest
  | 0xD7 => extension? 8 rest
  | 0xD8 => extension? 16 rest
  | 0xD9 => sized? 1 text? rest
  | 0xDA => sized? 2 text? rest
  | 0xDB => sized? 4 text? rest
  | 0xDC => (number? 2 rest).map fun (count, rest) => (.list count, rest)
  | 0xDD => (number? 4 rest).map fun (count, rest) => (.list count, rest)
  | 0xDE => (number? 2 rest).map fun (count, rest) => (.map count, rest)
  | 0xDF => (number? 4 rest).map fun (count, rest) => (.map count, rest)
  | _ => none

def head? : Bytes → Option (Head × Bytes)
  | [] => none
  | b :: rest =>
    let first := b.toNat
    if first < 0x80 then some (.scalar (.unsigned first) (.index first), rest)
    else if first < 0x90 then some (.map (first - 0x80), rest)
    else if first < 0xA0 then some (.list (first - 0x90), rest)
    else if first < 0xC0 then text? (first - 0xA0) rest
    else if 0xE0 ≤ first then some (plain (.signed (first - 0x100)) rest)
    else longHead? first rest

end Inventory.MessagePack
