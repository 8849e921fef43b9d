import Inventory.Gzip.Code

/-! # Compressed blocks

A compressed stream is a row of blocks, the last one marked. A block is stored as it is, or is a row of
tokens in a fixed code or in one of its own. A token is a byte, a copy of bytes written before, or the end of
the block. Each token and each block takes at least one bit, so reading ends.
-/

namespace Inventory.Gzip

inductive Token where
  | literal (byte : UInt8)
  | copy (length distance : Nat)
  | endOfBlock

/-- Shortest length and number of extra bits of the symbols from 257 on. -/
def lengthTable : List (Nat × Nat) :=
  [(3, 0), (4, 0), (5, 0), (6, 0), (7, 0), (8, 0), (9, 0), (10, 0), (11, 1), (13, 1), (15, 1), (17, 1),
   (19, 2), (23, 2), (27, 2), (31, 2), (35, 3), (43, 3), (51, 3), (59, 3), (67, 4), (83, 4), (99, 4),
   (115, 4), (131, 5), (163, 5), (195, 5), (227, 5), (258, 0)]

/-- Shortest distance and number of extra bits of the symbols for distances. -/
def distanceTable : List (Nat × Nat) :=
  [(1, 0), (2, 0), (3, 0), (4, 0), (5, 1), (7, 1), (9, 2), (13, 2), (17, 3), (25, 3), (33, 4), (49, 4),
   (65, 5), (97, 5), (129, 6), (193, 6), (257, 7), (385, 7), (513, 8), (769, 8), (1025, 9), (1537, 9),
   (2049, 10), (3073, 10), (4097, 11), (6145, 11), (8193, 12), (12289, 12), (16385, 13), (24577, 13)]

def readExtended? (table : List (Nat × Nat)) (symbol : Nat) (s : BitSource) :
    Option (Nat × BitSource) := do
  let (least, extra) ← table[symbol]?
  let (more, s) ← s.readBits? extra
  return (least + more, s)

structure BlockCode where
  literals : CodeTree
  distances : CodeTree

namespace BlockCode

def readToken? (code : BlockCode) (s : BitSource) : Option (Token × BitSource) := do
  let (symbol, s) ← code.literals.read? s
  if symbol < 256 then return (.literal (UInt8.ofNat symbol), s)
  else if symbol = 256 then return (.endOfBlock, s)
  else
    let (length, s) ← readExtended? lengthTable (symbol - 257) s
    let (symbol, s) ← code.distances.read? s
    let (distance, s) ← readExtended? distanceTable symbol s
    return (.copy length distance, s)

theorem size_readExtended? {table : List (Nat × Nat)} {symbol value : Nat} {s t : BitSource}
    (h : readExtended? table symbol s = some (value, t)) : t.size ≤ s.size := by
  simp only [readExtended?, Option.bind_eq_bind, Option.bind_eq_some_iff, Option.pure_def,
    Option.some.injEq, Prod.mk.injEq] at h
  obtain ⟨_, -, ⟨more, u⟩, hmore, -, rfl⟩ := h
  exact BitSource.size_readBits? hmore

theorem size_readToken? {code : BlockCode} {s t : BitSource} {token : Token}
    (h : code.readToken? s = some (token, t)) : t.size < s.size := by
  simp only [readToken?, Option.bind_eq_bind, Option.bind_eq_some_iff, Option.pure_def] at h
  obtain ⟨⟨symbol, u⟩, hsymbol, h⟩ := h
  have hlt := CodeTree.size_read? hsymbol
  simp only at h
  split at h
  · simp only [Option.some.injEq, Prod.mk.injEq] at h; exact h.2 ▸ hlt
  · split at h
    · simp only [Option.some.injEq, Prod.mk.injEq] at h; exact h.2 ▸ hlt
    · simp only [Option.bind_eq_some_iff, Option.some.injEq, Prod.mk.injEq] at h
      obtain ⟨⟨length, v⟩, hlength, ⟨symbol, w⟩, hdistance, ⟨distance, x⟩, hextra, -, rfl⟩ := h
      have h1 := size_readExtended? hlength
      have h2 := CodeTree.size_read? hdistance
      have h3 := size_readExtended? hextra
      simp only at h1 h2 h3 ⊢
      omega

end BlockCode

/-- The byte at a distance from the end of the output; before the first byte there are zeros. -/
def byteBack (output : Array UInt8) (distance : Nat) : UInt8 :=
  if distance ≤ output.size then output.getD (output.size - distance) 0 else 0

/-- The output with some of its bytes written once more; the copy may run into itself. -/
def copyBack (distance : Nat) : (length : Nat) → Array UInt8 → Array UInt8
  | 0, output => output
  | length + 1, output => copyBack distance length (output.push (byteBack output distance))

def readTokens? (code : BlockCode) (output : Array UInt8) (s : BitSource) :
    Option (Array UInt8 × BitSource) :=
  match h : code.readToken? s with
  | none => none
  | some (.endOfBlock, t) => some (output, t)
  | some (.literal byte, t) =>
    have := BlockCode.size_readToken? h
    readTokens? code (output.push byte) t
  | some (.copy length distance, t) =>
    have := BlockCode.size_readToken? h
    readTokens? code (copyBack distance length output) t
termination_by s.size

def fixedCode? : Option BlockCode := do
  let literals ← codeTree? false
    (List.replicate 144 8 ++ List.replicate 112 9 ++ List.replicate 24 7 ++ List.replicate 8 8)
  let distances ← codeTree? false (List.replicate 32 5)
  return ⟨literals, distances⟩

/-- The order in which the lengths of the code for lengths are given. -/
def lengthOrder : List Nat :=
  [16, 17, 18, 0, 8, 7, 9, 6, 10, 5, 11, 4, 12, 3, 13, 2, 14, 1, 15]

def readMany? (width : Nat) : (count : Nat) → BitSource → Option (List Nat × BitSource)
  | 0, s => some ([], s)
  | count + 1, s => do
    let (value, s) ← s.readBits? width
    let (rest, s) ← readMany? width count s
    return (value :: rest, s)

/-- How often a symbol of the code for lengths stands for which length; `last` is the length before it. -/
def readRun? (symbol : Nat) (last : Option Nat) (s : BitSource) :
    Option ((Nat × Nat) × BitSource) :=
  match symbol with
  | 16 => do
    let (more, s) ← s.readBits? 2
    return ((3 + more, ← last), s)
  | 17 => (s.readBits? 3).map fun (more, s) => ((3 + more, 0), s)
  | 18 => (s.readBits? 7).map fun (more, s) => ((11 + more, 0), s)
  | _ => some ((1, symbol), s)

/-- Lengths up to exactly the given number of them; `reversed` are those already read. -/
def readLengths? (code : CodeTree) (total : Nat) (reversed : List Nat) (s : BitSource) :
    Option (List Nat × BitSource) :=
  if reversed.length = total then some (reversed.reverse, s)
  else do
    let (symbol, s) ← code.read? s
    let ((count, length), s) ← readRun? symbol reversed.head? s
    if 0 < count ∧ reversed.length + count ≤ total then
      readLengths? code total (List.replicate count length ++ reversed) s
    else none
termination_by total - reversed.length
decreasing_by simp; omega

def readCode? (s : BitSource) : Option (BlockCode × BitSource) := do
  let (literalCount, s) ← s.readBits? 5
  let (distanceCount, s) ← s.readBits? 5
  let (lengthCount, s) ← s.readBits? 4
  let literalCount := literalCount + 257
  let distanceCount := distanceCount + 1
  if literalCount ≤ 286 ∧ distanceCount ≤ 30 then
    let (given, s) ← readMany? 3 (lengthCount + 4) s
    let lengthOf (symbol : Nat) := ((lengthOrder.zip given).lookup symbol).getD 0
    let lengthCode ← codeTree? false ((List.range 19).map lengthOf)
    let (lengths, s) ← readLengths? lengthCode (literalCount + distanceCount) [] s
    let literals ← codeTree? true (lengths.take literalCount)
    let distances ← codeTree? true (lengths.drop literalCount)
    return (⟨literals, distances⟩, s)
  else none

def readStored? (s : BitSource) : Option (Bytes × BitSource) := do
  let (length, s) ← s.align.readBytes? 2
  let (complement, s) ← s.readBytes? 2
  if ofLittleEndian length + ofLittleEndian complement = 0xFFFF then
    s.readBytes? (ofLittleEndian length)
  else none

def readBody? (kind : Nat) (output : Array UInt8) (s : BitSource) :
    Option (Array UInt8 × BitSource) :=
  match kind with
  | 0 => (readStored? s).map fun (bytes, s) => (output ++ bytes, s)
  | 1 => do readTokens? (← fixedCode?) output s
  | 2 => do
    let (code, s) ← readCode? s
    readTokens? code output s
  | _ => none

def readBlock? (output : Array UInt8) (s : BitSource) :
    Option ((Bool × Array UInt8) × BitSource) := do
  let (isLast, s) ← s.readBit?
  let (kind, s) ← s.readBits? 2
  let (output, s) ← readBody? kind output s
  return ((isLast, output), s)

theorem size_readMany? {width count : Nat} {s t : BitSource} {values : List Nat}
    (h : readMany? width count s = some (values, t)) : t.size ≤ s.size := by
  induction count generalizing s values with
  | zero =>
    simp only [readMany?, Option.some.injEq, Prod.mk.injEq] at h
    exact h.2 ▸ Nat.le_refl _
  | succ count ih =>
    simp only [readMany?, Option.bind_eq_bind, Option.bind_eq_some_iff, Option.pure_def,
      Option.some.injEq, Prod.mk.injEq] at h
    obtain ⟨⟨value, u⟩, hvalue, ⟨rest, v⟩, hrest, -, rfl⟩ := h
    exact Nat.le_trans (ih hrest) (BitSource.size_readBits? hvalue)

theorem size_readRun? {symbol : Nat} {last : Option Nat} {s t : BitSource} {run : Nat × Nat}
    (h : readRun? symbol last s = some (run, t)) : t.size ≤ s.size := by
  simp only [readRun?] at h
  split at h
  · simp only [Option.bind_eq_bind, Option.bind_eq_some_iff, Option.pure_def, Option.some.injEq,
      Prod.mk.injEq] at h
    obtain ⟨⟨more, u⟩, hmore, _, -, -, rfl⟩ := h
    exact BitSource.size_readBits? hmore
  · obtain ⟨⟨more, u⟩, hmore, heq⟩ := Option.map_eq_some_iff.1 h
    exact (Prod.mk.inj heq).2 ▸ BitSource.size_readBits? hmore
  · obtain ⟨⟨more, u⟩, hmore, heq⟩ := Option.map_eq_some_iff.1 h
    exact (Prod.mk.inj heq).2 ▸ BitSource.size_readBits? hmore
  · simp only [Option.some.injEq, Prod.mk.injEq] at h
    exact h.2 ▸ Nat.le_refl _

theorem size_readLengths? {code : CodeTree} {total : Nat} {reversed lengths : List Nat}
    {s t : BitSource} (h : readLengths? code total reversed s = some (lengths, t)) :
    t.size ≤ s.size := by
  fun_induction readLengths? code total reversed s with
  | case1 reversed s => simp only [Option.some.injEq, Prod.mk.injEq] at h; exact h.2 ▸ Nat.le_refl _
  | case2 reversed s hne ih =>
    simp only [Option.bind_eq_bind, Option.bind_eq_some_iff] at h
    obtain ⟨⟨symbol, u⟩, hsymbol, ⟨⟨count, length⟩, v⟩, hrun, h⟩ := h
    simp only at h
    split at h
    · next hcount =>
      have h1 := CodeTree.size_read? hsymbol
      have h2 := size_readRun? hrun
      have h3 := ih count length v hcount h
      simp only at h1 h2 h3
      omega
    · simp at h

theorem size_readCode? {s t : BitSource} {code : BlockCode} (h : readCode? s = some (code, t)) :
    t.size ≤ s.size := by
  simp only [readCode?, Option.bind_eq_bind, Option.bind_eq_some_iff] at h
  obtain ⟨⟨_, s1⟩, h1, ⟨_, s2⟩, h2, ⟨_, s3⟩, h3, h⟩ := h
  simp only at h
  split at h
  · simp only [Option.bind_eq_some_iff, Option.pure_def, Option.some.injEq, Prod.mk.injEq] at h
    obtain ⟨⟨_, s4⟩, h4, _, -, ⟨_, s5⟩, h5, _, -, _, -, -, rfl⟩ := h
    have := BitSource.size_readBits? h1
    have := BitSource.size_readBits? h2
    have := BitSource.size_readBits? h3
    have := size_readMany? h4
    have := size_readLengths? h5
    simp only at *
    omega
  · simp at h

theorem size_readStored? {s t : BitSource} {bytes : Bytes} (h : readStored? s = some (bytes, t)) :
    t.size ≤ s.size := by
  simp only [readStored?, Option.bind_eq_bind, Option.bind_eq_some_iff] at h
  obtain ⟨⟨_, s1⟩, h1, ⟨_, s2⟩, h2, h⟩ := h
  simp only at h
  split at h
  · have := BitSource.size_align s
    have := BitSource.size_readBytes? h1
    have := BitSource.size_readBytes? h2
    have := BitSource.size_readBytes? h
    simp only at *
    omega
  · simp at h

theorem size_readTokens? {code : BlockCode} {output result : Array UInt8} {s t : BitSource}
    (h : readTokens? code output s = some (result, t)) : t.size ≤ s.size := by
  fun_induction readTokens? code output s with
  | case1 => simp at h
  | case2 output s u hu =>
    simp only [Option.some.injEq, Prod.mk.injEq] at h
    exact h.2 ▸ Nat.le_of_lt (BlockCode.size_readToken? hu)
  | case3 output s byte u hu hlt ih => exact Nat.le_trans (ih h) (Nat.le_of_lt hlt)
  | case4 output s length distance u hu hlt ih => exact Nat.le_trans (ih h) (Nat.le_of_lt hlt)

theorem size_readBody? {kind : Nat} {output result : Array UInt8} {s t : BitSource}
    (h : readBody? kind output s = some (result, t)) : t.size ≤ s.size := by
  simp only [readBody?] at h
  split at h
  · obtain ⟨⟨bytes, u⟩, hu, heq⟩ := Option.map_eq_some_iff.1 h
    exact (Prod.mk.inj heq).2 ▸ size_readStored? hu
  · simp only [Option.bind_eq_bind, Option.bind_eq_some_iff] at h
    obtain ⟨code, -, h⟩ := h
    exact size_readTokens? h
  · simp only [Option.bind_eq_bind, Option.bind_eq_some_iff] at h
    obtain ⟨⟨code, u⟩, hcode, h⟩ := h
    exact Nat.le_trans (size_readTokens? h) (size_readCode? hcode)
  · simp at h

theorem size_readBlock? {output : Array UInt8} {s t : BitSource} {block : Bool × Array UInt8}
    (h : readBlock? output s = some (block, t)) : t.size < s.size := by
  simp only [readBlock?, Option.bind_eq_bind, Option.bind_eq_some_iff, Option.pure_def,
    Option.some.injEq, Prod.mk.injEq] at h
  obtain ⟨⟨_, s1⟩, h1, ⟨_, s2⟩, h2, ⟨_, s3⟩, h3, -, rfl⟩ := h
  have := BitSource.size_readBit? h1
  have := BitSource.size_readBits? h2
  have := size_readBody? h3
  simp only at *
  omega

def readBlocks? (output : Array UInt8) (s : BitSource) : Option (Array UInt8 × BitSource) :=
  match h : readBlock? output s with
  | none => none
  | some ((true, output), t) => some (output, t)
  | some ((false, output), t) =>
    have := size_readBlock? h
    readBlocks? output t
termination_by s.size

/-- What a compressed stream at the front of a byte string stands for, and the bytes behind the stream. -/
def inflate? (bytes : Bytes) : Option (Bytes × Bytes) :=
  (readBlocks? #[] (.ofBytes bytes)).map fun (output, s) => (output.toList, s.bytes)

end Inventory.Gzip
