import Inventory.ByteOrder

/-! # Bits of a byte string

A bit source gives the bits of its bytes one after the other, the lowest bit of each byte first. Its `size`
counts the bits left; every reader leaves no more than it found.
-/

namespace Inventory.Gzip

structure BitSource where
  /-- The bits of the current byte that have not been read. -/
  pending : List Bool
  bytes : Bytes

namespace BitSource

def ofBytes (bytes : Bytes) : BitSource := ⟨[], bytes⟩

def size (s : BitSource) : Nat :=
  s.pending.length + 8 * s.bytes.length

def align (s : BitSource) : BitSource := ⟨[], s.bytes⟩

/-- The bits of a byte above the lowest one. -/
def upperBits (byte : UInt8) : List Bool :=
  [1, 2, 3, 4, 5, 6, 7].map byte.toNat.testBit

def readBit? : BitSource → Option (Bool × BitSource)
  | ⟨bit :: pending, bytes⟩ => some (bit, ⟨pending, bytes⟩)
  | ⟨[], byte :: bytes⟩ => some (byte.toNat.testBit 0, ⟨upperBits byte, bytes⟩)
  | ⟨[], []⟩ => none

/-- A number of several bits, the first one read being the lowest. -/
def readBits? : (count : Nat) → BitSource → Option (Nat × BitSource)
  | 0, s => some (0, s)
  | count + 1, s => do
    let (bit, s) ← s.readBit?
    let (value, s) ← readBits? count s
    return (bit.toNat + 2 * value, s)

def readBytes? (count : Nat) (s : BitSource) : Option (Bytes × BitSource) :=
  (takeBytes? count s.bytes).map fun (front, rest) => (front, ofBytes rest)

theorem size_readBit? {s t : BitSource} {bit : Bool} (h : s.readBit? = some (bit, t)) :
    t.size < s.size := by
  fun_cases readBit? s with
  | case1 b pending bytes =>
    simp only [readBit?, Option.some.injEq, Prod.mk.injEq] at h
    rw [← h.2]; simp [size]
  | case2 byte bytes =>
    simp only [readBit?, Option.some.injEq, Prod.mk.injEq] at h
    rw [← h.2]; simp [size, upperBits]; omega
  | case3 => simp [readBit?] at h

theorem size_readBits? {count : Nat} {s t : BitSource} {value : Nat}
    (h : s.readBits? count = some (value, t)) : t.size ≤ s.size := by
  induction count generalizing s value with
  | zero =>
    simp only [readBits?, Option.some.injEq, Prod.mk.injEq] at h
    exact h.2 ▸ Nat.le_refl _
  | succ count ih =>
    simp only [readBits?, Option.bind_eq_bind, Option.bind_eq_some_iff, Option.pure_def,
      Option.some.injEq, Prod.mk.injEq] at h
    obtain ⟨⟨bit, u⟩, hbit, ⟨v, w⟩, hrest, -, rfl⟩ := h
    exact Nat.le_trans (ih hrest) (Nat.le_of_lt (size_readBit? hbit))

theorem size_readBytes? {count : Nat} {s t : BitSource} {front : Bytes}
    (h : s.readBytes? count = some (front, t)) : t.size ≤ s.size := by
  simp only [readBytes?, Option.map_eq_some_iff, Prod.mk.injEq] at h
  obtain ⟨⟨a, b⟩, htake, -, rfl⟩ := h
  have := (takeBytes?_eq_some htake).1
  simp [size, ofBytes, this]
  omega

theorem size_align (s : BitSource) : s.align.size ≤ s.size := by
  simp [size, align]

end BitSource

end Inventory.Gzip
