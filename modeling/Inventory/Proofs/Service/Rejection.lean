import Inventory.Proofs.Chunk.Verdict
import Inventory.Proofs.Chunk.Wire
import Inventory.Proofs.Snapshot.Payload
import Inventory.Service.Answer

/-! # Chunks that are turned away

Chunks are read in stages: each one as base64, the records as a sequence, the payload as compressed text, and the
text as a document. `Rejected` says at which of them some chunks fail, and with which fault.
-/

namespace Inventory

open WireChunk

/-- The payload of the newest snapshot in chunks, or the fault of their sequence. -/
inductive Carries (chunks : List WireChunk) : Except Error Bytes → Prop
  | single {master : ChunkRecord} {others : List ChunkRecord}
    (hrecords : toRecords chunks = .ok (master :: others)) (hpayload : master.payload ≠ [])
    (hmaster : master.isMaster = false) : Carries chunks (.ok master.payload)
  | sequence {master : ChunkRecord} {others : List ChunkRecord}
    (hrecords : toRecords chunks = .ok (master :: others)) (hpayload : master.payload ≠ [])
    (hmaster : master.isMaster = true) : Carries chunks (master.assemble others)

/-- The fault for which chunks are turned away, one case for each stage of reading them. -/
inductive Rejected (chunks : List WireChunk) : Error → Prop
  | base64 {before after : List WireChunk} {c : WireChunk} (hsplit : chunks = before ++ c :: after)
    (hbefore : ∀ b ∈ before, (Base64.decode? (Text.trim b.value)).isSome = true)
    (hc : Base64.decode? (Text.trim c.value) = none) :
    Rejected chunks (.malformedSnapshot (.base64 c.timestamp))
  | sequence {e : Error} (h : Carries chunks (.error e)) : Rejected chunks e
  | gzip {payload : Bytes} (h : Carries chunks (.ok payload))
    (htext : (Gzip.expand? payload).bind Text.ofUtf8? = none) :
    Rejected chunks (.malformedSnapshot .gzip)
  | json {payload : Bytes} {text : String} (h : Carries chunks (.ok payload))
    (htext : (Gzip.expand? payload).bind Text.ofUtf8? = some text)
    (hdoc : Document.parse? text = none) : Rejected chunks (.malformedSnapshot .json)

variable {chunks : List WireChunk} {e : Error}

theorem snapshotOf_of_records {records : List ChunkRecord} (h : toRecords chunks = .ok records) :
    Graph.snapshotOf chunks = Document.reconstruct records := by
  rw [Graph.snapshotOf, h]
  rfl

theorem Carries.snapshotOf_eq {joined : Except Error Bytes} (h : Carries chunks joined) :
    Graph.snapshotOf chunks = (joined >>= Document.ofPayload).map some := by
  cases h with
  | @single master others hrecords hpayload hmaster =>
    rw [snapshotOf_of_records hrecords, ChunkRecord.reconstruct_of_not_isMaster hmaster hpayload, ok_bind]
  | @sequence master others hrecords hpayload hmaster =>
    rw [snapshotOf_of_records hrecords, ChunkRecord.reconstruct_of_isMaster hmaster hpayload]

/-- Chunks in base64 hold no snapshot at all, or a payload that is to be read. -/
theorem carries_or {records : List ChunkRecord} (h : toRecords chunks = .ok records) :
    Graph.snapshotOf chunks = .ok none ∨ ∃ joined, Carries chunks joined := by
  rw [snapshotOf_of_records h]
  cases records with
  | nil => exact .inl rfl
  | cons master others =>
    rcases eq_or_ne master.payload [] with hpayload | hpayload
    · exact .inl (if_pos (by simpa using hpayload))
    · cases hmaster : master.isMaster with
      | false => exact .inr ⟨_, .single h hpayload hmaster⟩
      | true => exact .inr ⟨_, .sequence h hpayload hmaster⟩

theorem snapshotOf_eq_error_iff : Graph.snapshotOf chunks = .error e ↔ Rejected chunks e := by
  constructor
  · intro h
    cases hrecords : toRecords chunks with
    | error fault =>
      obtain ⟨before, c, after, hsplit, hbefore, hc, rfl⟩ := toRecords_eq_error_iff.1 hrecords
      rw [Graph.snapshotOf, hrecords] at h
      cases h
      exact .base64 hsplit (fun b hb => readable_iff.1 (hbefore b hb)) (not_readable_iff.1 hc)
    | ok records =>
      rcases carries_or hrecords with hnone | ⟨joined, hcarries⟩
      · rw [hnone] at h
        cases h
      · rw [hcarries.snapshotOf_eq, map_eq_error_iff, bind_eq_error_iff] at h
        rcases h with rfl | ⟨payload, rfl, hpayload⟩
        · exact .sequence hcarries
        · rcases Document.ofPayload_eq_error_iff.1 hpayload with ⟨htext, rfl⟩ | ⟨text, htext, hdoc, rfl⟩
          · exact .gzip hcarries htext
          · exact .json hcarries htext hdoc
  · intro h
    cases h with
    | base64 hsplit hbefore hc =>
      have hreadable := fun b hb => readable_iff.2 (hbefore b hb)
      rw [Graph.snapshotOf, toRecords_eq_error_iff.2 ⟨_, _, _, hsplit, hreadable, not_readable_iff.2 hc, rfl⟩]
      rfl
    | sequence h =>
      rw [h.snapshotOf_eq]
      rfl
    | gzip h htext =>
      rw [h.snapshotOf_eq, map_eq_error_iff, bind_eq_error_iff]
      exact .inr ⟨_, rfl, Document.ofPayload_eq_error_iff.2 (.inl ⟨htext, rfl⟩)⟩
    | json h htext hdoc =>
      rw [h.snapshotOf_eq, map_eq_error_iff, bind_eq_error_iff]
      exact .inr ⟨_, rfl, Document.ofPayload_eq_error_iff.2 (.inr ⟨_, htext, hdoc, rfl⟩)⟩

end Inventory
