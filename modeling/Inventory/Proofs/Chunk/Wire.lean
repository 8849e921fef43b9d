import Inventory.Chunk.Record
import Inventory.Proofs.Text.Sextets
import Inventory.Proofs.Traversal

/-! # Records as they are sent

A chunk on the wire says the same as its record: what is sent is read back, and what was read is sent as it came, but for
white space around the payload. Chunks are refused just if one of them holds no base64, and the first such chunk is named
(`WireChunk.toRecords_exact`).
-/

namespace Inventory.WireChunk

open Base64 (Spells)

variable {c : WireChunk} {r : ChunkRecord} {e : Error}

def stripped (c : WireChunk) : WireChunk :=
  { c with value := Text.trim c.value }

def Readable (c : WireChunk) : Prop :=
  ∃ payload, Spells c.stripped.value.toList payload

theorem readable_iff : c.Readable ↔ (Base64.decode? (Text.trim c.value)).isSome = true := by
  rw [Option.isSome_iff_exists]
  exact exists_congr fun _ => Base64.decode?_eq_some_iff.symm

theorem not_readable_iff : ¬ c.Readable ↔ Base64.decode? (Text.trim c.value) = none := by
  rw [readable_iff, Bool.not_eq_true, Option.isSome_eq_false_iff, Option.isNone_iff_eq_none]

theorem toRecord_eq_ok_iff : c.toRecord = .ok r ↔
    Spells c.stripped.value.toList r.payload ∧ r.timestamp = c.timestamp ∧ r.tags = c.tags := by
  rw [toRecord, ChunkRecord.ofBase64, ← Base64.decode?_eq_some_iff, stripped]
  constructor
  · intro h
    split at h
    · next payload hdecode =>
      cases h
      exact ⟨hdecode, rfl, rfl⟩
    · cases h
  · rintro ⟨hdecode, htimestamp, htags⟩
    rw [hdecode]
    dsimp only
    rw [← htimestamp, ← htags]

theorem toRecord_eq_error_iff : c.toRecord = .error e ↔
    ¬ c.Readable ∧ e = .malformedSnapshot (.base64 c.timestamp) := by
  rw [not_readable_iff, toRecord, ChunkRecord.ofBase64]
  cases Base64.decode? (Text.trim c.value) with
  | none => simp [eq_comm]
  | some payload => simp

theorem spells_payloadBase64 (r : ChunkRecord) : Spells r.payloadBase64.toList r.payload := by
  rw [ChunkRecord.payloadBase64, Base64.encode, String.toList_ofList]
  exact Base64.spells_encodeChars r.payload

theorem stripped_ofRecord (r : ChunkRecord) : (ofRecord r).stripped = ofRecord r := by
  have htrim := Text.trimChars_of_forall (spells_payloadBase64 r).isBlank_eq_false
  rw [stripped, ofRecord, Text.trim, htrim, String.ofList_toList]

theorem toRecord_ofRecord (r : ChunkRecord) : (ofRecord r).toRecord = .ok r := by
  rw [toRecord_eq_ok_iff, stripped_ofRecord]
  exact ⟨spells_payloadBase64 r, rfl, rfl⟩

theorem ofRecord_of_toRecord (h : c.toRecord = .ok r) : ofRecord r = c.stripped := by
  obtain ⟨hspells, htimestamp, htags⟩ := toRecord_eq_ok_iff.1 h
  have hvalue := (spells_payloadBase64 r).unique hspells
  rw [ofRecord, String.toList_inj.1 hvalue, htimestamp, htags]
  rfl

theorem toRecords_map_ofRecord (records : List ChunkRecord) : toRecords (records.map ofRecord) = .ok records := by
  rw [toRecords, mapM_eq_ok_iff, List.forall₂_map_left_iff, List.forall₂_same]
  exact fun r _ => toRecord_ofRecord r

theorem map_ofRecord_of_toRecords {chunks : List WireChunk} {records : List ChunkRecord}
    (h : toRecords chunks = .ok records) : records.map ofRecord = chunks.map stripped := by
  have hread := mapM_eq_ok_iff.1 h
  induction hread with
  | nil => rfl
  | cons hc hrest ih => rw [List.map_cons, List.map_cons, ofRecord_of_toRecord hc, ih (mapM_eq_ok_iff.2 hrest)]

theorem exists_toRecord_iff : (∃ r, c.toRecord = .ok r) ↔ c.Readable := by
  constructor
  · rintro ⟨r, hr⟩
    exact ⟨r.payload, (toRecord_eq_ok_iff.1 hr).1⟩
  · rintro ⟨payload, hpayload⟩
    exact ⟨⟨c.timestamp, payload, c.tags⟩, toRecord_eq_ok_iff.2 ⟨hpayload, rfl, rfl⟩⟩

theorem toRecords_eq_error_iff {chunks : List WireChunk} :
    toRecords chunks = .error e ↔ ∃ before c after, chunks = before ++ c :: after ∧ (∀ b ∈ before, b.Readable) ∧
      ¬ c.Readable ∧ e = .malformedSnapshot (.base64 c.timestamp) := by
  rw [toRecords, mapM_eq_error_iff]
  simp only [exists_toRecord_iff, toRecord_eq_error_iff]

theorem exists_toRecords_error_iff {chunks : List WireChunk} :
    (∃ e, toRecords chunks = .error e) ↔ ∃ c ∈ chunks, ¬ c.Readable := by
  constructor
  · rintro ⟨e, he⟩
    obtain ⟨before, c, after, rfl, -, hc, -⟩ := toRecords_eq_error_iff.1 he
    exact ⟨c, List.mem_append_right before List.mem_cons_self, hc⟩
  · rintro ⟨c, hc, hnot⟩
    cases hresult : toRecords chunks with
    | error e => exact ⟨e, rfl⟩
    | ok records =>
      obtain ⟨r, -, hr⟩ : ∃ r ∈ records, ofRecord r = c.stripped := by
        rw [← List.mem_map, map_ofRecord_of_toRecords hresult]
        exact List.mem_map_of_mem hc
      refine absurd ⟨r.payload, ?_⟩ hnot
      rw [← hr]
      exact spells_payloadBase64 r

/-- Records are read back from what is sent for them. Chunks that are read are sent again as they came, without the white
space, since only one text stands for a payload. Chunks are refused just if a value is no such text, with the fault of the
first that is none. -/
theorem toRecords_exact :
    (∀ records, toRecords (records.map ofRecord) = .ok records) ∧
    (∀ chunks records, toRecords chunks = .ok records → records.map ofRecord = chunks.map stripped) ∧
    (∀ text payload, Base64.decode? text = some payload ↔ Spells text.toList payload) ∧
    (∀ payload, ∃! text, Base64.decode? text = some payload) ∧
    (∀ chunks, (∃ e, toRecords chunks = .error e) ↔ ∃ c ∈ chunks, ¬ c.Readable) ∧
    (∀ chunks e, toRecords chunks = .error e ↔ ∃ before c after, chunks = before ++ c :: after ∧
      (∀ b ∈ before, b.Readable) ∧ ¬ c.Readable ∧ e = .malformedSnapshot (.base64 c.timestamp)) := by
  refine ⟨toRecords_map_ofRecord, fun _ _ => map_ofRecord_of_toRecords, fun _ _ => Base64.decode?_eq_some_iff, ?_,
    fun _ => exists_toRecords_error_iff, fun _ _ => toRecords_eq_error_iff⟩
  intro payload
  refine ⟨Base64.encode payload, Base64.decode?_encode payload, ?_⟩
  intro text htext
  have hencoded := Base64.decode?_eq_some_iff.1 (Base64.decode?_encode payload)
  exact String.toList_inj.1 ((Base64.decode?_eq_some_iff.1 htext).unique hencoded)

/-- A value with white space around it is sent again without, and of two values that are no base64 the first is named:
one has a bit behind its last byte, the other has no pad. -/
theorem toRecords_exact_spaced :
    toRecords [⟨7, "\u2003+v8=\n", .empty⟩] = .ok [⟨7, [0xFA, 0xFF], .empty⟩] ∧
    [ofRecord ⟨7, [0xFA, 0xFF], .empty⟩] = [stripped ⟨7, "\u2003+v8=\n", .empty⟩] ∧
    toRecords [⟨7, "+v8=", .empty⟩, ⟨6, "+v9=", .empty⟩, ⟨5, "+v8", .empty⟩] =
      .error (.malformedSnapshot (.base64 6)) ∧
    ∃ c : WireChunk, c.timestamp = 6 ∧ ¬ c.Readable := by
  have hread : toRecords [⟨7, "\u2003+v8=\n", .empty⟩] = .ok [⟨7, [0xFA, 0xFF], .empty⟩] := by decide +kernel
  have hrefused : toRecords [⟨7, "+v8=", .empty⟩, ⟨6, "+v9=", .empty⟩, ⟨5, "+v8", .empty⟩] =
      .error (.malformedSnapshot (.base64 6)) := by decide +kernel
  refine ⟨hread, toRecords_exact.2.1 _ _ hread, hrefused, ?_⟩
  obtain ⟨before, c, after, -, -, hnot, herror⟩ := (toRecords_exact.2.2.2.2.2 _ _).1 hrefused
  have htimestamp := SnapshotFault.base64.inj (Error.malformedSnapshot.inj herror)
  exact ⟨c, htimestamp.symm, hnot⟩

end Inventory.WireChunk
