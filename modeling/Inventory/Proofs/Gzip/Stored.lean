import Inventory.Gzip.Member

/-! # Stored members are read back

A stored block is read as the bytes it holds (`readBlock?_stored`), a row of stored blocks as all of
them, and so a packed member as the byte string it was made of (`expand?_pack`).
-/

namespace Inventory.Gzip

def storedBlock (isLast : Bool) (content : Bytes) : Bytes :=
  UInt8.ofNat isLast.toNat ::
    (littleEndian 2 content.length ++ littleEndian 2 (0xFFFF - content.length) ++ content)

theorem storedBlocks_of_le {bytes : Bytes} (h : bytes.length ≤ storedLimit) :
    storedBlocks bytes = storedBlock true bytes := by
  rw [storedBlocks, if_pos h]
  rfl

theorem storedBlocks_of_lt {bytes : Bytes} (h : storedLimit < bytes.length) :
    storedBlocks bytes =
      storedBlock false (bytes.take storedLimit) ++ storedBlocks (bytes.drop storedLimit) := by
  have hlength : (bytes.take storedLimit).length = storedLimit := by
    rw [List.length_take]
    omega
  rw [storedBlocks, if_neg (Nat.not_le.2 h), storedBlock, hlength]
  rfl

theorem readBytes?_append {count : Nat} {front rest : Bytes} (h : front.length = count) :
    (BitSource.ofBytes (front ++ rest)).readBytes? count = some (front, .ofBytes rest) := by
  subst h
  rw [BitSource.readBytes?, BitSource.ofBytes, takeBytes?_append]
  rfl

/-- What is left of the current byte does not count for a stored block. -/
theorem readStored?_append {content : Bytes} (rest : Bytes) (pending : List Bool) (h : content.length ≤ storedLimit) :
    readStored? ⟨pending, littleEndian 2 content.length ++ (littleEndian 2 (0xFFFF - content.length) ++
      (content ++ rest))⟩ = some (content, .ofBytes rest) := by
  have hlimit : storedLimit = 0xFFFF := rfl
  have hrange : byteRange 2 = 0x10000 := rfl
  have hlength : ofLittleEndian (littleEndian 2 content.length) = content.length :=
    ofLittleEndian_littleEndian (by omega)
  have hcomplement :
      ofLittleEndian (littleEndian 2 (0xFFFF - content.length)) = 0xFFFF - content.length :=
    ofLittleEndian_littleEndian (by omega)
  have halign : ∀ bytes, BitSource.align ⟨pending, bytes⟩ = .ofBytes bytes := fun _ => rfl
  simp only [readStored?, halign, readBytes?_append (length_littleEndian _ _), Option.bind_eq_bind,
    Option.bind_some, hlength, hcomplement, readBytes?_append rfl]
  rw [if_pos (by omega)]

theorem readBlock?_stored (isLast : Bool) {content : Bytes} (rest : Bytes) (output : Array UInt8)
    (h : content.length ≤ storedLimit) :
    readBlock? output (.ofBytes (storedBlock isLast content ++ rest)) =
      some ((isLast, output ++ content), .ofBytes rest) := by
  have hstored := readStored?_append rest (List.replicate 5 false) h
  have hhead : ∀ bytes, BitSource.readBit? (.ofBytes (UInt8.ofNat isLast.toNat :: bytes)) =
      some (isLast, ⟨List.replicate 7 false, bytes⟩) := by
    cases isLast <;> exact fun _ => rfl
  have hkind : ∀ bytes, BitSource.readBits? 2 ⟨List.replicate 7 false, bytes⟩ =
      some (0, ⟨List.replicate 5 false, bytes⟩) := fun _ => rfl
  simp only [readBlock?, storedBlock, List.cons_append, List.append_assoc, hhead, hkind,
    Option.bind_eq_bind, Option.bind_some, readBody?, hstored, Option.map_some, Option.pure_def]

theorem readBlocks?_stored (bytes rest : Bytes) (output : Array UInt8) :
    readBlocks? output (.ofBytes (storedBlocks bytes ++ rest)) = some (output ++ bytes, .ofBytes rest) := by
  -- What came out of the blocks before is generalised, and the reader is unfolded once for each block.
  induction bytes using storedBlocks.induct generalizing output with
  | case1 bytes hle =>
    rw [storedBlocks_of_le hle, readBlocks?]
    have hblock := readBlock?_stored true rest output hle
    split
    · next hnone => simp [hblock] at hnone
    · next hsome => simpa [hblock, eq_comm] using hsome
    · next hsome => simp [hblock] at hsome
  | case2 bytes hlt ih =>
    have hlt := Nat.not_le.1 hlt
    have hfront : (bytes.take storedLimit).length ≤ storedLimit := List.length_take_le _ _
    rw [storedBlocks_of_lt hlt, List.append_assoc, readBlocks?]
    have hblock := readBlock?_stored false (storedBlocks (bytes.drop storedLimit) ++ rest) output hfront
    split
    · next hnone => simp [hblock] at hnone
    · next hsome => simp [hblock] at hsome
    · next next t hsome =>
      simp only [hblock, Option.some.injEq, Prod.mk.injEq, true_and] at hsome
      obtain ⟨rfl, rfl⟩ := hsome
      have hjoined : output ++ bytes.take storedLimit ++ bytes.drop storedLimit = output ++ bytes := by
        apply Array.ext'
        simp only [Array.toList_appendList, List.append_assoc, List.take_append_drop]
      rw [ih, hjoined]

theorem inflate?_storedBlocks (bytes rest : Bytes) :
    inflate? (storedBlocks bytes ++ rest) = some (bytes, rest) := by
  rw [inflate?, readBlocks?_stored]
  simp [BitSource.ofBytes]

theorem skipHeader?_plainHeader (rest : Bytes) : skipHeader? (plainHeader ++ rest) = some rest :=
  rfl

/-- A packed member stands for the bytes it was made of. -/
theorem expand?_pack (bytes : Bytes) : expand? (pack bytes) = some bytes := by
  have hcrc : ofLittleEndian (littleEndian 4 (crc32 bytes).toNat) = (crc32 bytes).toNat :=
    ofLittleEndian_littleEndian (crc32 bytes).toNat_lt
  have hlength :
      ofLittleEndian (littleEndian 4 (bytes.length % UInt32.size)) = bytes.length % UInt32.size :=
    ofLittleEndian_littleEndian (Nat.mod_lt _ (by decide))
  have htake : ∀ n rest, takeBytes? 4 (littleEndian 4 n ++ rest) = some (littleEndian 4 n, rest) := by
    intro n rest
    have h := takeBytes?_append (littleEndian 4 n) rest
    rwa [length_littleEndian] at h
  have hend : takeBytes? 4 (littleEndian 4 (bytes.length % UInt32.size)) =
      some (littleEndian 4 (bytes.length % UInt32.size), []) := by
    simpa using htake (bytes.length % UInt32.size) []
  simp only [expand?, pack, List.append_assoc, skipHeader?_plainHeader, inflate?_storedBlocks, htake, hend,
    Option.bind_eq_bind, Option.bind_some, hcrc, hlength, and_self, if_true]

theorem length_pack_of_le {bytes : Bytes} (h : bytes.length ≤ storedLimit) :
    (pack bytes).length = bytes.length + 23 := by
  simp [pack, storedBlocks_of_le h, storedBlock, plainHeader]
  omega

theorem expand?_nil : expand? [] = none :=
  rfl

end Inventory.Gzip
