import Inventory.Proofs.Chunk.Sequence

/-! # The records of a payload

A payload that does not fit into one record is cut into full ones and a rest that is not empty. The first record tells
how many there are and how long the payload is, so what is written is read back (`ChunkRecord.split_tiles`).
-/

namespace Inventory

variable {size : Nat} {bytes : Bytes}

theorem cuts_of_lt (hpos : 0 < size) (hlt : size < bytes.length) :
    cuts size bytes = bytes.take size :: cuts size (bytes.drop size) := by
  rw [cuts, if_pos ⟨hpos, hlt⟩]

theorem cuts_of_le (h : size = 0 ∨ bytes.length ≤ size) : cuts size bytes = [bytes] := by
  rw [cuts, if_neg (by omega)]

theorem cuts_ne_nil (size : Nat) (bytes : Bytes) : cuts size bytes ≠ [] := by
  rw [cuts]
  split <;> exact List.cons_ne_nil _ _

/-- As many pieces as there are sizes in the length, the last one perhaps in part. -/
theorem length_cuts (hpos : 0 < size) (hne : 0 < bytes.length) :
    (cuts size bytes).length = (bytes.length + size - 1) / size := by
  induction bytes using cuts.induct size with
  | case1 bytes hcut ih =>
    have hrest : 0 < (bytes.drop size).length := by rw [List.length_drop]; omega
    have hlength : bytes.length + size - 1 = (bytes.length - size + size - 1) + size := by omega
    rw [cuts_of_lt hpos hcut.2, List.length_cons, ih hrest, List.length_drop, hlength, Nat.add_div_right _ hpos]
  | case2 bytes hcut =>
    rw [cuts_of_le (by omega), List.length_singleton]
    refine (Nat.div_eq_of_lt_le ?_ ?_).symm
    · omega
    · omega

theorem length_of_mem_dropLast_cuts {piece : Bytes} (h : piece ∈ (cuts size bytes).dropLast) :
    piece.length = size := by
  induction bytes using cuts.induct size with
  | case1 bytes hcut ih =>
    rw [cuts_of_lt hcut.1 hcut.2, List.dropLast_cons_of_ne_nil (cuts_ne_nil _ _), List.mem_cons] at h
    rcases h with rfl | h
    · exact List.length_take_of_le (Nat.le_of_lt hcut.2)
    · exact ih h
  | case2 bytes hcut =>
    rw [cuts_of_le (by omega)] at h
    cases h

theorem exists_getLast?_cuts (hpos : 0 < size) (hne : 0 < bytes.length) :
    ∃ piece, (cuts size bytes).getLast? = some piece ∧ 0 < piece.length ∧ piece.length ≤ size := by
  induction bytes using cuts.induct size with
  | case1 bytes hcut ih =>
    obtain ⟨piece, hlast, hlength⟩ := ih (by rw [List.length_drop]; omega)
    refine ⟨piece, ?_, hlength⟩
    rw [cuts_of_lt hcut.1 hcut.2, List.getLast?_cons, hlast, Option.getD_some]
  | case2 bytes hcut => exact ⟨bytes, by rw [cuts_of_le (by omega)]; rfl, hne, by omega⟩

namespace ChunkRecord

variable {latest : Int64} {payload : Bytes} {r : ChunkRecord}

theorem map_payload_descending (latest : Int64) (pieces : List Bytes) :
    (descending latest pieces).map (·.payload) = pieces := by
  induction pieces generalizing latest with
  | nil => rfl
  | cons piece rest ih => rw [descending, List.map_cons, ih]

theorem tags_of_mem_descending {pieces : List Bytes} (h : r ∈ descending latest pieces) : r.tags = .empty := by
  induction pieces generalizing latest with
  | nil => cases h
  | cons piece rest ih =>
    rcases List.mem_cons.1 h with rfl | h
    · rfl
    · exact ih h

theorem map_payload_split (size : Nat) (latest : Int64) (payload : Bytes) :
    (split size latest payload).map (·.payload) = cuts size payload := by
  rw [← map_payload_descending latest (cuts size payload), split]
  split
  · next hrecords =>
    rw [hrecords]
    rfl
  · rfl

theorem payloads_split (size : Nat) (latest : Int64) (payload : Bytes) :
    payloads (split size latest payload) = payload := by
  rw [payloads, List.flatMap_def, map_payload_split, flatten_cuts]

/-- The tags of the first record, in the order of their names. -/
theorem entries_masterTags (count size : Nat) :
    (masterTags count size).entries =
      [(chunksTag, Text.decimalText count), (sizeTag, Text.decimalText size)] := by
  have hlt : ¬ sizeTag < chunksTag := by decide +kernel
  have hne : sizeTag ≠ chunksTag := by decide
  simp only [masterTags, SortedMap.ofList, sortEntries, List.foldl_cons, List.foldl_nil, insertEntry, if_neg hlt,
    if_neg hne]

/-- Records that hold a payload too long for one of them: all are full but the last, and only the first one is
tagged. -/
structure Tile (size : Nat) (payload : Bytes) (records : List ChunkRecord) : Prop where
  several : 2 ≤ records.length
  count : records.length = (payload.length + size - 1) / size
  full : ∀ r ∈ records.dropLast, r.payload.length = size
  rest : ∃ r, records.getLast? = some r ∧ 0 < r.payload.length ∧ r.payload.length ≤ size
  master : ∃ r, records.head? = some r ∧ r.tags.entries =
    [(chunksTag, Text.decimalText records.length), (sizeTag, Text.decimalText payload.length)]
  untagged : ∀ r ∈ records.tail, r.tags = .empty

theorem tile_split (latest : Int64) (hpos : 0 < size) (hlt : size < payload.length) :
    Tile size payload (split size latest payload) := by
  have hne : 0 < payload.length := Nat.lt_trans hpos hlt
  have hpayloads := map_payload_split size latest payload
  obtain ⟨first, more, hcuts⟩ := List.exists_cons_of_ne_nil (cuts_ne_nil size payload)
  have hmore : more ≠ [] := by
    have htail := (List.cons.inj (hcuts.symm.trans (cuts_of_lt hpos hlt))).2
    rw [htail]
    exact cuts_ne_nil _ _
  have hflat := flatten_cuts size payload
  rw [hcuts] at hflat
  have hsplit := split_eq latest hcuts
  rw [if_neg hmore, sequence, hflat] at hsplit
  have hcount : (split size latest payload).length = more.length + 1 := by rw [length_split, hcuts, List.length_cons]
  constructor
  case several =>
    have hpositive := List.length_pos_iff.2 hmore
    omega
  case count => rw [length_split, length_cuts hpos hne]
  case full =>
    intro r hr
    have hpiece : r.payload ∈ (cuts size payload).dropLast := by
      rw [← hpayloads, ← List.map_dropLast]
      exact List.mem_map_of_mem hr
    exact length_of_mem_dropLast_cuts hpiece
  case rest =>
    obtain ⟨piece, hlast, hlength⟩ := exists_getLast?_cuts hpos hne
    rw [← hpayloads, List.getLast?_map, Option.map_eq_some_iff] at hlast
    obtain ⟨r, hr, rfl⟩ := hlast
    exact ⟨r, hr, hlength⟩
  case master =>
    refine ⟨_, congrArg List.head? hsplit, ?_⟩
    rw [hcount]
    exact entries_masterTags _ _
  case untagged =>
    intro r hr
    rw [hsplit] at hr
    exact tags_of_mem_descending hr

/-- What is written for a payload: all of it, in one untagged record if it fits and else in records of which all but the
last are full, the time stamps descending one by one. It reads as the payload in one record; a payload in memory is
shorter than 2^64 bytes. -/
theorem split_tiles (size : Nat) (latest : Int64) (payload : Bytes)
    (hlow : Int64.minValue.toInt ≤ latest.toInt - ((split size latest payload).length - 1)) :
    payloads (split size latest payload) = payload ∧
    (size = 0 ∨ payload.length ≤ size → split size latest payload = [⟨latest, payload, .empty⟩]) ∧
    (0 < size → size < payload.length → Tile size payload (split size latest payload)) ∧
    (∀ (i : Nat) r, (split size latest payload)[i]? = some r → r.timestamp.toInt = latest.toInt - i) ∧
    (payload.length < UInt64.size →
      Document.reconstruct (split size latest payload) = Document.reconstruct [⟨latest, payload, .empty⟩]) := by
  refine ⟨payloads_split size latest payload, ?_, tile_split latest, ?_, ?_⟩
  · intro h
    rw [split_eq latest (cuts_of_le h), if_pos rfl]
  · intro i r hr
    obtain ⟨hi, -⟩ := List.getElem?_eq_some_iff.1 hr
    exact timestamp_split hr (by omega)
  · intro hsize
    have hread := reconstruct_split_append [] hsize hlow
    rwa [List.append_nil] at hread

/-- A document in records of 64 bytes, down to the least time stamp. -/
theorem split_tiles_pump :
    let payload := (Document.lone "pump").compress
    let records := split 64 (Int64.minValue + 2) payload
    Int64.minValue.toInt ≤ (Int64.minValue + 2).toInt - (records.length - 1) ∧
    records.map (·.payload.length) = [64, 64, 23] ∧ payloads records = payload ∧ 64 < payload.length ∧
    Tile 64 payload records ∧
    (∀ (i : Nat) r, records[i]? = some r → r.timestamp.toInt = (Int64.minValue + 2).toInt - i) ∧
    payload.length < UInt64.size ∧ Document.reconstruct records = .ok (some (Document.lone "pump")) := by
  intro payload records
  have hlengths : records.map (·.payload.length) = [64, 64, 23] := by
    have hpieces := congrArg (List.map List.length) (map_payload_split 64 (Int64.minValue + 2) payload)
    rw [List.map_map] at hpieces
    exact hpieces.trans (by decide +kernel)
  have hcount : records.length = 3 := by
    rw [← List.length_map, hlengths]
    rfl
  have hlow : Int64.minValue.toInt ≤ (Int64.minValue + 2).toInt - (records.length - 1) := by
    rw [hcount]
    decide
  have hlong : 64 < payload.length := by decide +kernel
  have hsize : payload.length < UInt64.size := by decide +kernel
  obtain ⟨hpayloads, -, htile, htimes, hread⟩ := split_tiles 64 (Int64.minValue + 2) payload hlow
  refine ⟨hlow, hlengths, hpayloads, hlong, htile (by decide) hlong, htimes, hsize, ?_⟩
  rw [hread hsize, reconstruct_lone]

end ChunkRecord

end Inventory
