import Inventory.Proofs.Chunk.Verdict
import Inventory.Proofs.Snapshot.Payload

/-! # Sequences of pieces

`sequence` is the well-formed row of records for a payload in pieces: time stamps in descent, the number
and the length in the tags of the first one. Whatever the cut and whatever older records stand behind,
it is joined to the payload, so it reads as the payload in a single record does; `split` writes nothing
else.
-/

namespace Inventory.ChunkRecord

def sequence (latest : Int64) (first : Bytes) (more : List Bytes) : List ChunkRecord :=
  ⟨latest, first, masterTags (more.length + 1) (first :: more).flatten.length⟩ ::
    descending (latest - 1) more

theorem get?_masterTags_chunks (count size : Nat) :
    (masterTags count size).get? chunksTag = some (Text.decimalText count) := by
  simp [masterTags, SortedMap.ofList, SortedMap.get?, sortEntries, SortedMap.lookup_insertEntry, chunksTag,
    sizeTag]

theorem get?_masterTags_size (count size : Nat) :
    (masterTags count size).get? sizeTag = some (Text.decimalText size) := by
  simp [masterTags, SortedMap.ofList, SortedMap.get?, sortEntries, SortedMap.lookup_insertEntry, sizeTag]

theorem isMaster_masterTags (latest : Int64) (payload : Bytes) (count size : Nat) :
    isMaster ⟨latest, payload, masterTags count size⟩ = true := by
  simp [isMaster, SortedMap.contains, get?_masterTags_chunks]

theorem announces_masterTags {latest : Int64} {payload : Bytes} {count size : Nat}
    (hcount : count < UInt64.size) (hsize : size < UInt64.size) :
    Announces ⟨latest, payload, masterTags count size⟩ count size where
  count := ⟨_, get?_masterTags_chunks count size, by
    rw [Text.decimalText, String.toList_ofList]
    exact Text.names_decimal count, hcount⟩
  size := ⟨_, get?_masterTags_size count size, by
    rw [Text.decimalText, String.toList_ofList]
    exact Text.names_decimal size, hsize⟩

@[simp] theorem length_descending (latest : Int64) (pieces : List Bytes) :
    (descending latest pieces).length = pieces.length := by
  induction pieces generalizing latest with
  | nil => rfl
  | cons piece rest ih => simp [descending, ih]

@[simp] theorem payloads_descending (latest : Int64) (pieces : List Bytes) :
    payloads (descending latest pieces) = pieces.flatten := by
  induction pieces generalizing latest with
  | nil => rfl
  | cons piece rest ih => simpa [descending, payloads] using ih (latest - 1)

theorem toInt_sub_one {t : Int64} (h : Int64.minValue.toInt ≤ t.toInt - 1) :
    (t - 1).toInt = t.toInt - 1 := by
  have hlt := t.toInt_lt
  rw [Int64.toInt_minValue] at h
  rw [Int64.toInt_sub, Int64.toInt_one]
  exact Int.bmod_eq_of_le (by omega) (by omega)

theorem timestamp_descending {latest : Int64} {pieces : List Bytes} {i : Nat} {r : ChunkRecord}
    (hr : (descending latest pieces)[i]? = some r) (hlow : Int64.minValue.toInt ≤ latest.toInt - i) :
    r.timestamp.toInt = latest.toInt - i := by
  induction pieces generalizing latest i with
  | nil => simp [descending] at hr
  | cons piece rest ih =>
    cases i with
    | zero =>
      obtain rfl : ⟨latest, piece, .empty⟩ = r := by simpa [descending] using hr
      simp
    | succ i =>
      have hsub := toInt_sub_one (t := latest) (by omega)
      have hr' : (descending (latest - 1) rest)[i]? = some r := by simpa [descending] using hr
      rw [ih hr' (by omega), hsub]
      omega

theorem lined_sequence {latest : Int64} {first : Bytes} {more : List Bytes} {tags : Tags}
    (further : List ChunkRecord) (hlow : Int64.minValue.toInt ≤ latest.toInt - more.length) :
    Lined ⟨latest, first, tags⟩ (descending (latest - 1) more ++ further) (more.length + 1) where
  pos := Nat.succ_pos _
  enough := by simp
  onTick i hi := by
    cases i with
    | zero => exact onTick_zero
    | succ i =>
      intro r hr
      rw [List.getElem?_cons_succ, List.getElem?_append_left (by simpa using hi)] at hr
      have hsub := toInt_sub_one (t := latest) (by omega)
      rw [timestamp_descending hr (by omega), hsub]
      push_cast
      omega

theorem verdict_sequence {latest : Int64} {first : Bytes} {more : List Bytes} (further : List ChunkRecord)
    (hcount : more.length + 1 < UInt64.size) (hsize : (first :: more).flatten.length < UInt64.size)
    (hlow : Int64.minValue.toInt ≤ latest.toInt - more.length) :
    Verdict ⟨latest, first, masterTags (more.length + 1) (first :: more).flatten.length⟩
      (descending (latest - 1) more ++ further) (.ok (first :: more).flatten) := by
  have hwhole : payloads ((⟨latest, first, masterTags (more.length + 1) (first :: more).flatten.length⟩ ::
      (descending (latest - 1) more ++ further)).take (more.length + 1)) = (first :: more).flatten := by
    rw [List.take_succ_cons, List.take_left' (length_descending _ _), payloads, List.flatMap_cons,
      List.flatten_cons]
    exact congrArg (first ++ ·) (payloads_descending _ _)
  have hheld := congrArg List.length hwhole
  rw [length_payloads_take] at hheld
  have hverdict := Verdict.whole (announces_masterTags hcount hsize) (lined_sequence further hlow) hheld
  rwa [hwhole] at hverdict

/-- The document in a sequence is the one that its pieces hold together. -/
theorem reconstruct_sequence_append {latest : Int64} {first : Bytes} {more : List Bytes}
    (further : List ChunkRecord) (hfirst : first ≠ []) (hcount : more.length + 1 < UInt64.size)
    (hsize : (first :: more).flatten.length < UInt64.size)
    (hlow : Int64.minValue.toInt ≤ latest.toInt - more.length) :
    Document.reconstruct (sequence latest first more ++ further) =
      (Document.ofPayload (first :: more).flatten).map some := by
  have hassemble := assemble_eq_of_verdict (verdict_sequence further hcount hsize hlow)
  rw [sequence, List.cons_append, reconstruct_of_isMaster (isMaster_masterTags _ _ _ _) hfirst, hassemble, ok_bind]

theorem reconstruct_single {latest : Int64} {payload : Bytes} (further : List ChunkRecord)
    (h : payload ≠ []) :
    Document.reconstruct (⟨latest, payload, .empty⟩ :: further) = (Document.ofPayload payload).map some :=
  reconstruct_of_not_isMaster rfl h

theorem reconstruct_lone (latest : Int64) (id : String) :
    Document.reconstruct [⟨latest, (Document.lone id).compress, .empty⟩] = .ok (some (Document.lone id)) := by
  rw [reconstruct_single [] (Document.compress_ne_nil _), Document.ofPayload_compress_lone]
  rfl

theorem exists_cuts {size : Nat} {payload : Bytes} (h : payload ≠ []) :
    ∃ first more, cuts size payload = first :: more ∧ first ≠ [] ∧ more.length + 1 ≤ payload.length := by
  -- A cut uses up `size` bytes for one more piece, and there is no cut for a size of zero.
  induction payload using cuts.induct size with
  | case1 payload hcut ih =>
    obtain ⟨first, more, hmore, -, hcount⟩ := ih (List.ne_nil_of_length_pos (by simp; omega))
    rw [List.length_drop] at hcount
    refine ⟨payload.take size, first :: more, by rw [cuts, if_pos hcut, hmore], ?_, ?_⟩
    · exact List.ne_nil_of_length_pos (by simp; omega)
    · rw [List.length_cons]
      omega
  | case2 payload hcut =>
    exact ⟨payload, [], by rw [cuts, if_neg hcut], h, List.length_pos_iff.2 h⟩

@[simp] theorem length_split (size : Nat) (latest : Int64) (payload : Bytes) :
    (split size latest payload).length = (cuts size payload).length := by
  rw [← length_descending latest, split]
  split
  · next hrecords => rw [hrecords]; rfl
  · rfl

theorem length_split_le {size : Nat} {payload : Bytes} (latest : Int64) (h : payload ≠ []) :
    (split size latest payload).length ≤ payload.length := by
  obtain ⟨first, more, hcuts, -, hcount⟩ : ∃ first more, cuts size payload = first :: more ∧ _ :=
    exists_cuts h
  rwa [length_split, hcuts]

/-- A payload in one piece is a record of its own, one in several pieces is a sequence. -/
theorem split_eq {size : Nat} {payload first : Bytes} {more : List Bytes} (latest : Int64)
    (h : cuts size payload = first :: more) :
    split size latest payload =
      if more = [] then [⟨latest, payload, .empty⟩] else sequence latest first more := by
  have hflat := flatten_cuts size payload
  rw [h] at hflat
  cases more with
  | nil =>
    obtain rfl : first = payload := by simpa using hflat
    rw [split, h]
    rfl
  | cons second more =>
    rw [split, h, if_neg (List.cons_ne_nil second more), sequence, hflat, descending, descending]
    dsimp only
    rw [length_descending, List.length_cons]

theorem map_timestamp_split (size : Nat) (latest : Int64) (payload : Bytes) :
    (split size latest payload).map (·.timestamp) =
      (descending latest (cuts size payload)).map (·.timestamp) := by
  rw [split]
  split
  · next hrecords =>
    rw [hrecords]
    rfl
  · rfl

theorem timestamp_split {size : Nat} {latest : Int64} {payload : Bytes} {i : Nat} {r : ChunkRecord}
    (hr : (split size latest payload)[i]? = some r) (hlow : Int64.minValue.toInt ≤ latest.toInt - i) :
    r.timestamp.toInt = latest.toInt - i := by
  have hmap := congrArg (·[i]?) (map_timestamp_split size latest payload)
  rw [List.getElem?_map, List.getElem?_map, hr, Option.map_some] at hmap
  obtain ⟨q, hq, htimestamp⟩ := Option.map_eq_some_iff.1 hmap.symm
  rw [← htimestamp]
  exact timestamp_descending hq hlow

/-- What is split reads as the payload in one record, whatever the size of the records and whatever older
ones stand behind. -/
theorem reconstruct_split_append {size : Nat} {latest : Int64} {payload : Bytes}
    (further : List ChunkRecord) (hsize : payload.length < UInt64.size)
    (hlow : Int64.minValue.toInt ≤ latest.toInt - ((split size latest payload).length - 1)) :
    Document.reconstruct (split size latest payload ++ further) =
      Document.reconstruct [⟨latest, payload, .empty⟩] := by
  by_cases hpayload : payload = []
  · subst hpayload
    have hcuts : cuts size [] = [[]] := by
      rw [cuts, if_neg fun h => absurd h.2 (Nat.not_lt_zero size)]
    rw [split_eq latest hcuts, if_pos rfl]
    rfl
  · obtain ⟨first, more, hcuts, hfirst, hcount⟩ : ∃ first more, cuts size payload = first :: more ∧ _ :=
      exists_cuts hpayload
    rw [length_split, hcuts, List.length_cons] at hlow
    rw [split_eq latest hcuts]
    split
    · rw [List.singleton_append, reconstruct_single further hpayload, reconstruct_single [] hpayload]
    · have hflat := flatten_cuts size payload
      rw [hcuts] at hflat
      have hsequence : Document.reconstruct (sequence latest first more ++ further) = _ :=
        reconstruct_sequence_append further hfirst (by omega) (by rwa [hflat]) (by omega)
      rw [hsequence, hflat, reconstruct_single [] hpayload]

/-- What is split holds the document of the payload, whatever the size of the records. -/
theorem reconstruct_split {size : Nat} {latest : Int64} {payload : Bytes} (hpayload : payload ≠ [])
    (hsize : payload.length < UInt64.size)
    (hlow : Int64.minValue.toInt ≤ latest.toInt - ((split size latest payload).length - 1)) :
    Document.reconstruct (split size latest payload) = (Document.ofPayload payload).map some := by
  have hsplit := reconstruct_split_append [] hsize hlow
  rwa [List.append_nil, reconstruct_single [] hpayload] at hsplit

/-- Joining does not depend on the cut: the pieces of a payload, with anything older behind them, read
as the payload in one record. -/
theorem reconstruct_sequence {payload first : Bytes} {more : List Bytes} (latest : Int64)
    (further : List ChunkRecord) (hcut : (first :: more).flatten = payload) (hfirst : first ≠ [])
    (hcount : more.length + 1 < UInt64.size) (hsize : payload.length < UInt64.size)
    (hlow : Int64.minValue.toInt ≤ latest.toInt - more.length) :
    Document.reconstruct (sequence latest first more ++ further) =
      Document.reconstruct [⟨latest, payload, .empty⟩] := by
  subst hcut
  have hne : (first :: more).flatten ≠ [] := by simp [hfirst]
  rw [reconstruct_sequence_append further hfirst hcount hsize hlow, reconstruct_single [] hne]

/-- Three pieces of a document, one of them empty, that reach down to the least time stamp, with an older record
behind. -/
theorem reconstruct_sequence_three :
    let payload := (Document.lone "pump").compress
    [payload.take 20, [], payload.drop 20].flatten = payload ∧ payload.take 20 ≠ [] ∧ 2 + 1 < UInt64.size ∧
    payload.length < UInt64.size ∧ Int64.minValue.toInt ≤ (Int64.minValue + 2).toInt - 2 ∧
    Document.reconstruct (sequence (Int64.minValue + 2) (payload.take 20) [[], payload.drop 20] ++
      [⟨0, [1], .empty⟩]) = .ok (some (Document.lone "pump")) := by
  intro payload
  have hcut : [payload.take 20, [], payload.drop 20].flatten = payload := by simp
  have hfirst : payload.take 20 ≠ [] := by decide +kernel
  have hcount : 2 + 1 < UInt64.size := by decide
  have hsize : payload.length < UInt64.size := by decide +kernel
  have hlow : Int64.minValue.toInt ≤ (Int64.minValue + 2).toInt - 2 := by decide
  refine ⟨hcut, hfirst, hcount, hsize, hlow, ?_⟩
  rw [reconstruct_sequence _ _ hcut hfirst hcount hsize hlow, reconstruct_lone]

end Inventory.ChunkRecord
