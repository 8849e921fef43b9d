import Inventory.Text.Hex

/-! # Numbers as bytes

A number in a fixed count of bytes, lowest byte first or highest byte first. Reading gives back every number
that fits (`ofLittleEndian_littleEndian`, `ofBigEndian_bigEndian`).
-/

namespace Inventory

/-- How many numbers fit in `width` bytes. -/
def byteRange (width : Nat) : Nat :=
  Nat.pow 256 width

theorem byteRange_succ (width : Nat) : byteRange (width + 1) = byteRange width * 256 := rfl

def littleEndian : (width : Nat) → Nat → Bytes
  | 0, _ => []
  | width + 1, n => UInt8.ofNat n :: littleEndian width (n / 256)

def ofLittleEndian : Bytes → Nat
  | [] => 0
  | b :: rest => b.toNat + 256 * ofLittleEndian rest

def bigEndian (width n : Nat) : Bytes :=
  (littleEndian width n).reverse

def ofBigEndian (bytes : Bytes) : Nat :=
  ofLittleEndian bytes.reverse

@[simp] theorem length_littleEndian (width n : Nat) : (littleEndian width n).length = width := by
  induction width generalizing n with
  | zero => rfl
  | succ width ih => simp [littleEndian, ih]

@[simp] theorem length_bigEndian (width n : Nat) : (bigEndian width n).length = width := by
  simp [bigEndian]

theorem ofLittleEndian_littleEndian {width n : Nat} (h : n < byteRange width) :
    ofLittleEndian (littleEndian width n) = n := by
  induction width generalizing n with
  | zero => exact (Nat.lt_one_iff.1 h).symm
  | succ width ih =>
    have hdiv : n / 256 < byteRange width := by
      rw [Nat.div_lt_iff_lt_mul (by decide), ← byteRange_succ]
      exact h
    simp only [littleEndian, ofLittleEndian, ih hdiv, UInt8.toNat_ofNat']
    omega

theorem ofBigEndian_bigEndian {width n : Nat} (h : n < byteRange width) :
    ofBigEndian (bigEndian width n) = n := by
  simp [ofBigEndian, bigEndian, ofLittleEndian_littleEndian h]

def takeBytes? (count : Nat) (bytes : Bytes) : Option (Bytes × Bytes) :=
  let front := bytes.take count
  if front.length = count then some (front, bytes.drop count) else none

theorem takeBytes?_append (front rest : Bytes) :
    takeBytes? front.length (front ++ rest) = some (front, rest) := by
  simp [takeBytes?]

theorem takeBytes?_of_lt {count : Nat} {bytes : Bytes} (h : bytes.length < count) :
    takeBytes? count bytes = none := by
  rw [takeBytes?, if_neg]
  rw [List.length_take]
  omega

theorem takeBytes?_eq_some {count : Nat} {bytes front rest : Bytes}
    (h : takeBytes? count bytes = some (front, rest)) :
    bytes = front ++ rest ∧ front.length = count := by
  simp only [takeBytes?, Option.ite_none_right_eq_some, Option.some.injEq, Prod.mk.injEq] at h
  obtain ⟨hcount, rfl, rfl⟩ := h
  exact ⟨(List.take_append_drop count bytes).symm, hcount⟩

end Inventory
