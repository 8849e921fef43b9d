import Inventory.Gzip.Bits

/-! # Prefix codes

A code is given by the lengths of the code words of its symbols, zero for a symbol that is not used. The
words are assigned in the order of length, then symbol, so the tree of the code is filled from left to
right. No code may have more words than there is room for, and none may leave room but a code without
words or with one word of one bit.
-/

namespace Inventory.Gzip

inductive CodeTree where
  /-- Bits that are no word of the code. -/
  | unused
  | symbol (n : Nat)
  | branch (zero one : CodeTree)

namespace CodeTree

/-- A tree at a depth for the first of the symbols in order, and the symbols left over. -/
def grow : (levels depth : Nat) → List (Nat × Nat) → CodeTree × List (Nat × Nat)
  | _, _, [] => (.unused, [])
  | 0, depth, (length, n) :: rest =>
    if length = depth then (.symbol n, rest) else (.unused, (length, n) :: rest)
  | levels + 1, depth, (length, n) :: rest =>
    if length = depth then (.symbol n, rest)
    else
      let (zero, left) := grow levels (depth + 1) ((length, n) :: rest)
      let (one, left) := grow levels (depth + 1) left
      (.branch zero one, left)

def isComplete : CodeTree → Bool
  | .unused => false
  | .symbol _ => true
  | .branch zero one => zero.isComplete && one.isComplete

def walk? : CodeTree → BitSource → Option (Nat × BitSource)
  | .unused, _ => none
  | .symbol n, s => some (n, s)
  | .branch zero one, s =>
    s.readBit?.bind fun (bit, s) => if bit then one.walk? s else zero.walk? s

/-- Reads the word of a symbol, which has at least one bit. -/
def read? (code : CodeTree) (s : BitSource) : Option (Nat × BitSource) :=
  match code with
  | .branch zero one => (branch zero one).walk? s
  | _ => none

theorem size_walk? {code : CodeTree} {s t : BitSource} {n : Nat} (h : code.walk? s = some (n, t)) :
    t.size ≤ s.size := by
  induction code generalizing s with
  | unused => simp [walk?] at h
  | symbol =>
    simp only [walk?, Option.some.injEq, Prod.mk.injEq] at h
    exact h.2 ▸ Nat.le_refl _
  | branch zero one ihzero ihone =>
    simp only [walk?, Option.bind_eq_some_iff] at h
    obtain ⟨⟨bit, u⟩, hbit, hwalk⟩ := h
    have hlt := BitSource.size_readBit? hbit
    cases bit with
    | false => exact Nat.le_trans (ihzero hwalk) (Nat.le_of_lt hlt)
    | true => exact Nat.le_trans (ihone hwalk) (Nat.le_of_lt hlt)

theorem size_read? {code : CodeTree} {s t : BitSource} {n : Nat} (h : code.read? s = some (n, t)) :
    t.size < s.size := by
  cases code with
  | branch zero one =>
    simp only [read?, walk?, Option.bind_eq_some_iff] at h
    obtain ⟨⟨bit, u⟩, hbit, hwalk⟩ := h
    have hlt := BitSource.size_readBit? hbit
    cases bit with
    | false => exact Nat.lt_of_le_of_lt (size_walk? hwalk) hlt
    | true => exact Nat.lt_of_le_of_lt (size_walk? hwalk) hlt
  | _ => simp [read?] at h

end CodeTree

def maxWordLength : Nat := 15

/-- The symbols that are used, with the lengths of their words, in the order of their words. -/
def wordOrder (lengths : List Nat) : List (Nat × Nat) :=
  (List.range' 1 maxWordLength).flatMap fun length =>
    lengths.zipIdx.filter (·.1 == length)

/-- Whether the words are none or a single bit. A lone longer word is a code that leaves room like any
other, so a stream that gives one is no payload. -/
def isSparse : List (Nat × Nat) → Bool
  | [] => true
  | [(length, _)] => length == 1
  | _ => false

/-- The tree of a code; only a code that `mayBeSparse` may leave room. -/
def codeTree? (mayBeSparse : Bool) (lengths : List Nat) : Option CodeTree :=
  let words := wordOrder lengths
  match CodeTree.grow maxWordLength 0 words with
  | (tree, []) =>
    if tree.isComplete || (mayBeSparse && isSparse words) then some tree else none
  | _ => none

end Inventory.Gzip
