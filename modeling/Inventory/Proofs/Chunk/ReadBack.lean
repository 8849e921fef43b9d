import Inventory.Chunk.Record
import Inventory.Proofs.Datum.ReadBack

/-! # Chunk records are read back

A record is written with its payload as a list of bytes, a chunk on the wire with the payload as a text. Neither holds
free values, so both are plain data and are read back as they are.
-/

namespace Inventory

open Datum

namespace ChunkRecord

theorem tagsOfDatum?_tagsToDatum (tags : Tags) : tagsOfDatum? (tagsToDatum tags) = some tags :=
  sortedMap?_ofSortedMap tags fun _ _ => rfl

theorem isPlain_tagsToDatum (tags : Tags) : (tagsToDatum tags).isPlain = true := by
  rw [tagsToDatum, ofSortedMap, isPlain_object]
  exact List.forall_mem_map.2 fun _ _ => rfl

theorem ofDatum?_toDatum (r : ChunkRecord) : ofDatum? r.toDatum = some r := by
  have hpayload := list?_map r.payload fun b _ => byte?_natural b
  rw [ofDatum?, toDatum, fields?_object ["timestamp", "payload", "tags"] rfl (by decide) (by decide)]
  simp [Fields.required, Fields.defaulted, List.lookup_cons, int64?_integer, hpayload, tagsOfDatum?_tagsToDatum]

theorem isPlain_toDatum (r : ChunkRecord) : r.toDatum.isPlain = true := by
  have hpayload : arePlain (r.payload.map fun b => .natural b.toNat) = true := by
    rw [arePlain_iff, List.forall_mem_map]
    intro b _
    exact decide_eq_true (Nat.lt_trans b.toNat_lt_size (by decide))
  simp [toDatum, isPlain_object, isPlain, isPlain_integer, hpayload, isPlain_tagsToDatum]

end ChunkRecord

namespace WireChunk

theorem ofDatum?_toDatum (c : WireChunk) : ofDatum? c.toDatum = some c := by
  rw [ofDatum?, toDatum, fields?_object ["timestamp", "value", "tags"] rfl (by decide) (by decide)]
  simp [Fields.required, Fields.defaulted, List.lookup_cons, int64?_integer, text?,
    ChunkRecord.tagsOfDatum?_tagsToDatum]

theorem isPlain_toDatum (c : WireChunk) : c.toDatum.isPlain = true := by
  simp [toDatum, isPlain_object, isPlain, isPlain_integer, ChunkRecord.isPlain_tagsToDatum]

end WireChunk

end Inventory
