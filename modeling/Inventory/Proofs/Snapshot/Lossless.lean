import Inventory.Proofs.Chunk.Sequence

/-! # Splitting loses nothing

Any compression that `Gzip.expand?` undoes may stand in for `Gzip.pack`: `splitWith` takes it as a
parameter. What is split is read back as the same document, unless its text nests too deeply to be read
at all.
-/

namespace Inventory.Document

/-- The document in the records that `split` makes of it, with any compression. -/
def splitWith (gzip : Bytes → Bytes) (doc : Document) (size : Nat) (latest : Int64) : List ChunkRecord :=
  ChunkRecord.split size latest (gzip (Text.utf8 doc.render))

theorem split_eq_splitWith (doc : Document) (size : Nat) (latest : Int64) :
    doc.split size latest = doc.splitWith Gzip.pack size latest :=
  rfl

variable {gzip : Bytes → Bytes} {doc : Document}

/-- A document in a record of its own. -/
theorem reconstruct_compress (latest : Int64) (hreals : doc.noReals = true) :
    reconstruct [⟨latest, doc.compress, .empty⟩] =
      if Json.nesting doc.render ≤ 127 then .ok (some doc) else .error (.malformedSnapshot .json) := by
  rw [ChunkRecord.reconstruct_single [] (compress_ne_nil doc), compress, ofPayload_gzip Gzip.expand?_pack hreals]
  split <;> rfl

/-- Splitting and reconstructing gives the document back if its text nests at most 127 arrays and
objects, and is refused as malformed if it nests more, whatever the compression, the size of the records
and the time stamp. -/
theorem reconstruct_splitWith (hgzip : ∀ bytes, Gzip.expand? (gzip bytes) = some bytes) (size : Nat)
    (latest : Int64) (hreals : doc.noReals = true)
    (hlength : (gzip (Text.utf8 doc.render)).length < UInt64.size)
    (hlow : Int64.minValue.toInt ≤ latest.toInt - ((doc.splitWith gzip size latest).length - 1)) :
    reconstruct (doc.splitWith gzip size latest) =
      if Json.nesting doc.render ≤ 127 then .ok (some doc) else .error (.malformedSnapshot .json) := by
  rw [splitWith, ChunkRecord.reconstruct_split (gzip_ne_nil hgzip _) hlength hlow,
    ofPayload_gzip hgzip hreals]
  split <;> rfl

/-- A text short enough to be stored in one block leaves room for the records of any size. -/
theorem pack_fits (doc : Document) (size : Nat) (latest : Int64)
    (hshort : (Text.utf8 doc.render).length ≤ Gzip.storedLimit) (hlatest : 0 ≤ latest.toInt) :
    (Gzip.pack (Text.utf8 doc.render)).length < UInt64.size ∧
      Int64.minValue.toInt ≤ latest.toInt - ((doc.splitWith Gzip.pack size latest).length - 1) := by
  have hlength : (Gzip.pack (Text.utf8 doc.render)).length ≤ 0x10000 + 22 := by
    rw [Gzip.length_pack_of_le hshort]
    exact Nat.add_le_add_right hshort 23
  have hcount : (doc.splitWith Gzip.pack size latest).length ≤ _ :=
    ChunkRecord.length_split_le latest (gzip_ne_nil Gzip.expand?_pack (Text.utf8 doc.render))
  refine ⟨Nat.lt_of_le_of_lt hlength (by decide), ?_⟩
  rw [Int64.toInt_minValue]
  omega

/-- A server with an agent on it, and the index of both. -/
def server : Document where
  tree := .node (.resource "server" "Server \"é\"" (some "/rt;server")
    ⟨[("tags", .list [.null, .bool true])], rfl⟩) [.node (.resource "agent" "Agent" none .empty) []]
  resourceTypes := .ofList [("server", ["/r;server"]), ("agent", [])]
  metricTypes := .empty

/-- The server comes back from records of 64 bytes. -/
theorem reconstruct_split_server :
    (∀ bytes, Gzip.expand? (Gzip.pack bytes) = some bytes) ∧ server.noReals = true ∧
    (Gzip.pack (Text.utf8 server.render)).length < UInt64.size ∧
    Int64.minValue.toInt ≤ (7 : Int64).toInt - ((server.splitWith Gzip.pack 64 7).length - 1) ∧
    reconstruct (server.split 64 7) = .ok (some server) := by
  have hreals : server.noReals = true := by decide
  obtain ⟨hsize, hlow⟩ := pack_fits server 64 7 (by decide +kernel) (by decide)
  have hnesting : Json.nesting server.render ≤ 127 := by
    rw [nesting_render hreals]
    decide
  refine ⟨Gzip.expand?_pack, hreals, hsize, hlow, ?_⟩
  rw [split_eq_splitWith, reconstruct_splitWith Gzip.expand?_pack 64 7 hreals hsize hlow, if_pos hnesting]

end Inventory.Document
