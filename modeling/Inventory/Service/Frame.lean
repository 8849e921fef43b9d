import Inventory.ByteOrder
import Inventory.Error

/-! # Frames

A message goes over a stream as its length in four bytes, highest byte first, and its bytes. A stream that
ends within a length has ended, one that ends within a message is cut short.
-/

namespace Inventory

inductive FrameFault where
  /-- A length beyond what a reader takes. -/
  | tooLarge (length limit : Nat)
  /-- A length that four bytes do not hold. -/
  | tooLong (length : Nat)
  /-- The stream ends within a message. -/
  | cutShort
  /-- Nothing more can be written. -/
  | noRoom
deriving DecidableEq, Repr

namespace FrameFault

open Text (decimalText)

def error : FrameFault → Error
  | .tooLarge length limit =>
    .io ("Message too large: " ++ decimalText length ++ " bytes (limit " ++ decimalText limit ++ ")")
  | .tooLong length => .io ("Message too large: " ++ decimalText length ++ " bytes")
  | .cutShort => .io "failed to fill whole buffer"
  | .noRoom => .io "failed to write whole buffer"

inductive Kind where
  | invalidData
  | invalidInput
  | unexpectedEnd
  | writeZero
deriving DecidableEq, Repr

def kind : FrameFault → Kind
  | .tooLarge .. => .invalidData
  | .tooLong _ => .invalidInput
  | .cutShort => .unexpectedEnd
  | .noRoom => .writeZero

end FrameFault

namespace Frame

def lengthWidth : Nat := 4

example : byteRange lengthWidth = 4294967296 := by decide

def encode (message : Bytes) : Bytes :=
  bigEndian lengthWidth message.length ++ message

/-- The next message, `none` at the end of the stream, and what is left to read. -/
def read (limit : Nat) (stream : Bytes) : Except FrameFault (Option Bytes) × Bytes :=
  match takeBytes? lengthWidth stream with
  | none => (.ok none, [])
  | some (front, rest) =>
    let length := ofBigEndian front
    if limit < length then (.error (.tooLarge length limit), rest)
    else
      match takeBytes? length rest with
      | none => (.error .cutShort, [])
      | some (message, rest) => (.ok (some message), rest)

theorem length_read_lt {limit : Nat} {stream message rest : Bytes}
    (h : read limit stream = (.ok (some message), rest)) : rest.length < stream.length := by
  unfold read at h
  split at h
  · simp at h
  · rename_i front tail hfront
    obtain ⟨rfl, hlength⟩ := takeBytes?_eq_some hfront
    simp only at h
    split at h
    · simp at h
    · split at h
      · simp at h
      · rename_i body rest' hbody
        obtain ⟨rfl, -⟩ := takeBytes?_eq_some hbody
        simp only [Prod.mk.injEq] at h
        simp only [← h.2, List.length_append, hlength, lengthWidth]
        omega

def readAll (limit : Nat) (stream : Bytes) : List Bytes × Except FrameFault Unit :=
  match h : read limit stream with
  | (.ok (some message), rest) =>
    have := length_read_lt h
    let (messages, ending) := readAll limit rest
    (message :: messages, ending)
  | (.ok none, _) => ([], .ok ())
  | (.error fault, _) => ([], .error fault)
termination_by stream.length

end Frame

/-- A place for bytes that may have room for only so many more. -/
structure Outlet where
  written : Bytes
  room : Option Nat

namespace Outlet

def ofRoom (room : Option Nat) : Outlet := ⟨[], room⟩

/-- Writes bytes; of those without room only the first ones are written. -/
def write (o : Outlet) (bytes : Bytes) : Outlet × Except FrameFault Unit :=
  match o.room with
  | none => (⟨o.written ++ bytes, none⟩, .ok ())
  | some room =>
    (⟨o.written ++ bytes.take room, some (room - bytes.length)⟩,
      if bytes.length ≤ room then .ok () else .error .noRoom)

def writeMessage (o : Outlet) (message : Bytes) : Outlet × Except FrameFault Unit :=
  if message.length < byteRange Frame.lengthWidth then o.write (Frame.encode message)
  else (o, .error (.tooLong message.length))

end Outlet

end Inventory
