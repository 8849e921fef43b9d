import Inventory.Proofs.Snapshot.Growth
import Inventory.Proofs.Snapshot.Lossless

/-! # Publishing again what was read

A document that was read from records can be written to records again, and is read from them as the same
document. There is one exception (`reconstruct_republished`). Fields that were left out are written, so a
text at the limit of nesting may stand for a document whose own text is one level beyond it; that document
cannot be read again.
-/

namespace Inventory.Document

/-- The payload that a record begins, with the records behind it that it announces. -/
def joined (master : ChunkRecord) (others : List ChunkRecord) : Except Error Bytes :=
  if master.isMaster then ChunkRecord.assemble master others else .ok master.payload

def textOf : List ChunkRecord → Except Error (Option String)
  | [] => .ok none
  | master :: others =>
    if master.payload.isEmpty then .ok none else (joined master others >>= expandText).map some

theorem reconstruct_cons (master : ChunkRecord) (others : List ChunkRecord) :
    reconstruct (master :: others) =
      if master.payload.isEmpty then .ok none else (joined master others >>= ofPayload).map some := by
  rcases eq_or_ne master.payload [] with hpayload | hpayload
  · have hempty : master.payload.isEmpty = true := List.isEmpty_iff.2 hpayload
    rw [reconstruct, if_pos hempty, if_pos hempty]
  · rw [if_neg (by simpa using hpayload), joined]
    cases hmaster : master.isMaster with
    | false => rw [ChunkRecord.reconstruct_of_not_isMaster hmaster hpayload, if_neg (by decide), ok_bind]
    | true => rw [ChunkRecord.reconstruct_of_isMaster hmaster hpayload, if_pos rfl]

/-- The document in records is what their text is read as. -/
theorem exists_text_of_reconstruct {records : List ChunkRecord} {doc : Document}
    (h : reconstruct records = .ok (some doc)) :
    ∃ text, textOf records = .ok (some text) ∧ parse? text = some doc := by
  cases records with
  | nil => cases h
  | cons master others =>
    rw [reconstruct_cons] at h
    rw [textOf]
    split at h
    · cases h
    · next hpayload =>
      obtain ⟨read, hread, hsome⟩ := map_eq_ok_iff.1 h
      cases hsome
      obtain ⟨payload, hjoined, hread⟩ := bind_eq_ok_iff.1 hread
      obtain ⟨text, htext, hparse⟩ := ofPayload_eq_ok_iff.1 hread
      refine ⟨text, ?_, hparse⟩
      rw [if_neg hpayload, hjoined, ok_bind, htext]
      rfl

/-- A document nests at most one level deeper than the text it was read from, of which nothing beyond the
limit counts. -/
theorem nesting_render_le {text : String} {doc : Document} (h : parse? text = some doc)
    (hreals : doc.noReals = true) :
    Json.nesting doc.render ≤ min (Json.nesting text) Json.depthLimit + 1 := by
  obtain ⟨d, hd, hdoc⟩ := Option.bind_eq_some_iff.1 h
  obtain ⟨whole, hwhole, rfl⟩ := Option.map_eq_some_iff.1 hd
  have hgrown := growsByOne hdoc
  rw [nesting_render hreals, Json.nesting_of_read? hwhole]
  rcases Nat.le_total whole.depth Json.depthLimit with hle | hlimit
  · rw [Datum.cut_of_depth_le whole hle] at hgrown
    rwa [Nat.min_eq_left hle]
  · have hcut := Datum.depth_cut_le Json.depthLimit whole
    rw [Nat.min_eq_right hlimit]
    omega

/-- A document may leave its indices out. -/
theorem ofDatum?_structure (d : Datum) :
    ofDatum? (.object [("structure", d)]) = (Structure.ofDatum? d).map bare := by
  have hfields : Datum.fields? fieldNames (.object [("structure", d)]) = some [("structure", d)] := rfl
  have htree : Fields.required [("structure", d)] "structure" Structure.ofDatum? = Structure.ofDatum? d := rfl
  rw [ofDatum?, hfields, Option.bind_eq_bind, Option.bind_some, htree]
  cases Structure.ofDatum? d <;> rfl

/-- Nodes in a row, each the only child of the one before it; `n` of them have a child. -/
def chain : Nat → Structure
  | 0 => .node (.resource "node" "Node" none .empty) []
  | n + 1 => .node (.resource "node" "Node" none .empty) [chain n]

def terseNode : Datum :=
  .object [("kind", .text "resource"), ("id", .text "node"), ("name", .text "Node")]

/-- A chain with everything left out that may be left out. -/
def terseChain : Nat → Datum
  | 0 => .object [("entity", terseNode)]
  | n + 1 => .object [("entity", terseNode), ("children", .list [terseChain n])]

def terseText (n : Nat) : String :=
  Json.print (.object [("structure", terseChain n)])

theorem ofDatum?_terseNode : Entity.ofDatum? terseNode = some (.resource "node" "Node" none .empty) := by
  rfl

theorem ofDatum?_terseChain (n : Nat) : Structure.ofDatum? (terseChain n) = some (chain n) := by
  induction n with
  | zero => rw [terseChain, Structure.ofDatum?_leaf, ofDatum?_terseNode, Option.map_some, chain]
  | succ n ih =>
    rw [terseChain, Structure.ofDatum?_branch, ofDatum?_terseNode, Option.bind_some, Structure.ofList?,
      Structure.ofItems?, ih]
    rfl

theorem isPlain_terseChain (n : Nat) : (terseChain n).isPlain = true := by
  induction n with
  | zero => rfl
  | succ n ih => simp [terseChain, Datum.isPlain_object, Datum.isPlain, Datum.arePlain, ih, terseNode]

theorem depth_terseChain (n : Nat) : (terseChain n).depth = 2 * n + 2 := by
  induction n with
  | zero => rfl
  | succ n ih =>
    have hnode : terseNode.depth = 1 := rfl
    simp only [terseChain, Datum.depth_object_cons, Datum.depth_object_nil, Datum.depth, Datum.depthItems, hnode, ih]
    omega

theorem depth_toDatum_chain (n : Nat) : (chain n).toDatum.depth = 2 * n + 3 := by
  induction n with
  | zero => rfl
  | succ n ih =>
    have hnode : (Entity.resource "node" "Node" none .empty).toDatum.depth = 2 := rfl
    simp only [chain, Structure.toDatum, Structure.toItems, Datum.depth_object_cons, Datum.depth_object_nil,
      Datum.depth, Datum.depthItems, hnode, ih]
    omega

theorem noReals_chain (n : Nat) : (bare (chain n)).noReals = true := by
  have hnode : (Entity.resource "node" "Node" none .empty).noReals = true := rfl
  rw [noReals, bare]
  induction n with
  | zero => rfl
  | succ n ih =>
    rw [chain, Structure.noReals, Structure.allNoReals, Structure.allNoReals, hnode, ih]
    rfl

theorem nesting_render_chain (n : Nat) : Json.nesting (bare (chain n)).render = 2 * n + 4 := by
  have hindex : (indexToDatum .empty).depth = 1 := rfl
  rw [nesting_render (noReals_chain n), toDatum]
  simp only [bare, Datum.depth_object_cons, Datum.depth_object_nil, hindex, depth_toDatum_chain]
  omega

/-- The text of a terse chain is read as the chain, up to the limit of nesting. -/
theorem parse?_terseText {n : Nat} (h : n ≤ 62) : parse? (terseText n) = some (bare (chain n)) := by
  have hplain : (Datum.object [("structure", terseChain n)]).isPlain = true := by
    simp [Datum.isPlain_object, isPlain_terseChain]
  have hdepth : (Datum.object [("structure", terseChain n)]).depth ≤ Json.depthLimit := by
    have hlimit : Json.depthLimit = 127 := rfl
    rw [Datum.depth_object_cons, Datum.depth_object_nil, depth_terseChain]
    omega
  rw [parse?, terseText, Json.decode?_print hplain, Datum.cut_of_depth_le _ hdepth, Option.bind_some,
    ofDatum?_structure, ofDatum?_terseChain, Option.map_some]

theorem reconstruct_terseText {n : Nat} (h : n ≤ 62) :
    reconstruct [⟨7, Gzip.pack (Text.utf8 (terseText n)), .empty⟩] = .ok (some (bare (chain n))) := by
  have hread : ofPayload (Gzip.pack (Text.utf8 (terseText n))) = .ok (bare (chain n)) :=
    ofPayload_eq_ok_iff.2 ⟨_, expandText_gzip Gzip.expand?_pack _, parse?_terseText h⟩
  rw [ChunkRecord.reconstruct_single [] (gzip_ne_nil Gzip.expand?_pack _), hread]
  rfl

variable {gzip : Bytes → Bytes} {doc : Document}

/-- A document that was read from records is read again from any records that it is split into, if the text it
was read from nests at most 126 arrays and objects. Whatever that text was, the document is read again or its
own text nests 128 of them, and then it is refused as malformed. -/
theorem reconstruct_republished (hgzip : ∀ bytes, Gzip.expand? (gzip bytes) = some bytes)
    {records : List ChunkRecord} (hread : reconstruct records = .ok (some doc)) (hreals : doc.noReals = true)
    (size : Nat) (latest : Int64) (hlength : (gzip (Text.utf8 doc.render)).length < UInt64.size)
    (hlow : Int64.minValue.toInt ≤ latest.toInt - ((doc.splitWith gzip size latest).length - 1)) :
    ∃ text, textOf records = .ok (some text) ∧
      (Json.nesting text ≤ 126 → reconstruct (doc.splitWith gzip size latest) = .ok (some doc)) ∧
      reconstruct (doc.splitWith gzip size latest) =
        if Json.nesting doc.render = 128 then .error (.malformedSnapshot .json) else .ok (some doc) := by
  obtain ⟨text, htext, hparse⟩ := exists_text_of_reconstruct hread
  have hnesting := nesting_render_le hparse hreals
  have hlimit : Json.depthLimit = 127 := rfl
  have hsplit : reconstruct (doc.splitWith gzip size latest) =
      if Json.nesting doc.render ≤ 127 then .ok (some doc) else .error (.malformedSnapshot .json) := by
    rw [splitWith, ChunkRecord.reconstruct_split (gzip_ne_nil hgzip _) hlength hlow, ofPayload_gzip hgzip hreals]
    split <;> rfl
  refine ⟨text, htext, fun h => ?_, ?_⟩
  · rw [hsplit, if_pos (by omega)]
  · rw [hsplit]
    by_cases hdeep : Json.nesting doc.render = 128
    · rw [if_pos hdeep, if_neg (by omega)]
    · rw [if_neg hdeep, if_pos (by omega)]

/-- A chain of two nodes is read from its terse text and comes back from records of 64 bytes. -/
theorem reconstruct_republished_chain :
    (∀ bytes, Gzip.expand? (Gzip.pack bytes) = some bytes) ∧
    reconstruct [⟨7, Gzip.pack (Text.utf8 (terseText 1)), .empty⟩] = .ok (some (bare (chain 1))) ∧
    (bare (chain 1)).noReals = true ∧
    (Gzip.pack (Text.utf8 (bare (chain 1)).render)).length < UInt64.size ∧
    Int64.minValue.toInt ≤ (9 : Int64).toInt - (((bare (chain 1)).splitWith Gzip.pack 64 9).length - 1) ∧
    reconstruct ((bare (chain 1)).split 64 9) = .ok (some (bare (chain 1))) := by
  have hread := reconstruct_terseText (n := 1) (by decide)
  have hreals := noReals_chain 1
  obtain ⟨hsize, hlow⟩ := pack_fits (bare (chain 1)) 64 9 (by decide +kernel) (by decide)
  refine ⟨Gzip.expand?_pack, hread, hreals, hsize, hlow, ?_⟩
  obtain ⟨text, -, -, hsplit⟩ := reconstruct_republished Gzip.expand?_pack hread hreals 64 9 hsize hlow
  rw [split_eq_splitWith, hsplit, nesting_render_chain, if_neg (by decide)]

/-- A chain of 63 nodes is read from its terse text, which nests 127 arrays and objects, but not from the
record that it is written to. -/
theorem not_republished_chain :
    reconstruct [⟨7, Gzip.pack (Text.utf8 (terseText 62)), .empty⟩] = .ok (some (bare (chain 62))) ∧
    (bare (chain 62)).noReals = true ∧
    Int64.minValue.toInt ≤ (7 : Int64).toInt - (((bare (chain 62)).split 0 7).length - 1) ∧
    reconstruct ((bare (chain 62)).split 0 7) = .error (.malformedSnapshot .json) := by
  have hreals := noReals_chain 62
  have hcuts : cuts 0 (bare (chain 62)).compress = [(bare (chain 62)).compress] := by
    rw [cuts, if_neg fun h => absurd h.1 (Nat.lt_irrefl 0)]
  have hsplit : (bare (chain 62)).split 0 7 = [⟨7, (bare (chain 62)).compress, .empty⟩] :=
    ChunkRecord.split_eq 7 hcuts
  refine ⟨reconstruct_terseText (Nat.le_refl 62), hreals, ?_, ?_⟩
  · rw [hsplit]
    decide
  · rw [hsplit, reconstruct_compress 7 hreals, nesting_render_chain, if_neg (by decide)]

end Inventory.Document
