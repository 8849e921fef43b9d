import Inventory.Gzip.Crc32
import Inventory.Gzip.Inflate

/-! # Compressed members

A member is a header, a compressed stream, and a trailer with the check sum and the length of what the stream
stands for. `expand?` reads the member at the front of a byte string and passes over anything behind it;
`pack` writes a member of stored blocks.
-/

namespace Inventory.Gzip

def headerTextLimit : Nat := 65535

def skipText? (bytes : Bytes) : Option Bytes :=
  match bytes.span (· != 0) with
  | (text, _ :: rest) => if text.length ≤ headerTextLimit then some rest else none
  | _ => none

def skipExtra? (bytes : Bytes) : Option Bytes := do
  let (length, rest) ← takeBytes? 2 bytes
  let (_, rest) ← takeBytes? (ofLittleEndian length) rest
  return rest

/-- The bytes behind the check sum of a header; `header` is all that stands before it. -/
def skipHeaderCheck? (header bytes : Bytes) : Option Bytes := do
  let (check, rest) ← takeBytes? 2 bytes
  if ofLittleEndian check = (crc32 header).toNat % UInt16.size then some rest else none

def skipIf (present : Bool) (skip : Bytes → Option Bytes) (bytes : Bytes) : Option Bytes :=
  if present then skip bytes else some bytes

def skipHeader? (bytes : Bytes) : Option Bytes :=
  match bytes with
  | 0x1F :: 0x8B :: 8 :: flags :: _ :: _ :: _ :: _ :: _ :: _ :: rest => do
    if flags.toNat ≥ 32 then none
    let rest ← skipIf (flags.toNat.testBit 2) skipExtra? rest
    let rest ← skipIf (flags.toNat.testBit 3) skipText? rest
    let rest ← skipIf (flags.toNat.testBit 4) skipText? rest
    skipIf (flags.toNat.testBit 1) (skipHeaderCheck? (bytes.take (bytes.length - rest.length))) rest
  | _ => none

/-- What the member at the front of a byte string stands for. -/
def expand? (bytes : Bytes) : Option Bytes := do
  let stream ← skipHeader? bytes
  let (content, rest) ← inflate? stream
  let (check, rest) ← takeBytes? 4 rest
  let (length, _) ← takeBytes? 4 rest
  if ofLittleEndian check = (crc32 content).toNat ∧
      ofLittleEndian length = content.length % UInt32.size then
    some content
  else none

def storedLimit : Nat := 65535

def storedBlocks (bytes : Bytes) : Bytes :=
  if bytes.length ≤ storedLimit then
    1 :: (littleEndian 2 bytes.length ++ littleEndian 2 (0xFFFF - bytes.length) ++ bytes)
  else
    0 :: (littleEndian 2 storedLimit ++ littleEndian 2 (0xFFFF - storedLimit) ++
      bytes.take storedLimit) ++ storedBlocks (bytes.drop storedLimit)
termination_by bytes.length
decreasing_by simp [storedLimit] at *; omega

/-- A header that says nothing but that a stream follows. -/
def plainHeader : Bytes := [0x1F, 0x8B, 8, 0, 0, 0, 0, 0, 0, 0xFF]

def pack (bytes : Bytes) : Bytes :=
  plainHeader ++ storedBlocks bytes ++ littleEndian 4 (crc32 bytes).toNat ++
    littleEndian 4 (bytes.length % UInt32.size)

end Inventory.Gzip
