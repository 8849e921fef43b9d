import Inventory.Proofs.Chunk.Sequence
import Inventory.Proofs.Source.Contents
import Mathlib.Data.List.Nodup

/-! # The newest publication counts

Several payloads may be published in one series, each cut into records of its own, and their records may
arrive in any order. As long as no two of them share a time stamp, what is read back is the payload that was
published last: its records come first, unbroken (`exists_fetchChunks_eq`), and what stands behind them is
not looked at.
-/

namespace Inventory

/-- A payload, the most bytes that a record of it may hold, and the time stamp of the first record. -/
structure Publication where
  payload : Bytes
  size : Nat
  latest : Int64

namespace Publication

def records (p : Publication) : List ChunkRecord :=
  ChunkRecord.split p.size p.latest p.payload

/-- The time stamp of the last record, if the records do not reach below the least one there is. -/
def earliest (p : Publication) : Int :=
  p.latest.toInt - (p.records.length - 1)

def Covers (p : Publication) (t : Int) : Prop :=
  p.earliest ≤ t ∧ t ≤ p.latest.toInt

def Apart (p q : Publication) : Prop :=
  ∀ t, p.Covers t → ¬ q.Covers t

def whole (p : Publication) : ChunkRecord :=
  ⟨p.latest, p.payload, .empty⟩

variable {p q newest : Publication} {r : ChunkRecord}

theorem Apart.symm (h : p.Apart q) : q.Apart p :=
  fun t hq hp => h t hp hq

theorem length_records_pos (p : Publication) : 0 < p.records.length := by
  rw [records, ChunkRecord.length_split, cuts]
  split
  · exact Nat.succ_pos _
  · exact Nat.one_pos

theorem covers_latest (p : Publication) : p.Covers p.latest.toInt := by
  have hlength := p.length_records_pos
  rw [Covers, earliest]
  omega

theorem timestamp_getElem (h : Int64.minValue.toInt ≤ p.earliest) {i : Nat} (hr : p.records[i]? = some r) :
    r.timestamp.toInt = p.latest.toInt - i := by
  obtain ⟨hi, -⟩ := List.getElem?_eq_some_iff.1 hr
  apply ChunkRecord.timestamp_split hr
  rw [earliest] at h
  omega

theorem covers_timestamp (h : Int64.minValue.toInt ≤ p.earliest) (hr : r ∈ p.records) :
    p.Covers r.timestamp.toInt := by
  obtain ⟨i, hi, rfl⟩ := List.mem_iff_getElem.1 hr
  have htimestamp := timestamp_getElem h (List.getElem?_eq_getElem hi)
  rw [Covers, earliest]
  omega

theorem pairwise_records (h : Int64.minValue.toInt ≤ p.earliest) :
    p.records.Pairwise fun a b => b.timestamp.toInt < a.timestamp.toInt := by
  refine List.pairwise_iff_getElem.2 fun i j hi hj hij => ?_
  have hfirst := timestamp_getElem h (List.getElem?_eq_getElem hi)
  have hsecond := timestamp_getElem h (List.getElem?_eq_getElem hj)
  omega

theorem eq_of_timestamp_eq (h : Int64.minValue.toInt ≤ p.earliest) {a b : ChunkRecord} (ha : a ∈ p.records)
    (hb : b ∈ p.records) (heq : a.timestamp = b.timestamp) : a = b := by
  have hnodup : (p.records.map (·.timestamp)).Nodup := by
    refine List.pairwise_map.2 ((pairwise_records h).imp ?_)
    intro a b hlt heq
    rw [heq] at hlt
    exact Int.lt_irrefl _ hlt
  exact List.inj_on_of_nodup_map hnodup ha hb heq

theorem apart_of_lt (h : p.latest.toInt < q.earliest) : p.Apart q := by
  rintro t ⟨-, hle⟩ ⟨hge, -⟩
  omega

/-- Publications that share no time stamp lie wholly before or behind one another. -/
theorem Apart.lt_earliest (h : p.Apart newest) (hlatest : p.latest ≤ newest.latest) :
    p.latest.toInt < newest.earliest := by
  have hnot := h _ p.covers_latest
  have hle := Int64.le_iff_toInt_le.1 hlatest
  rw [Covers] at hnot
  omega

end Publication

namespace ChunkRecord

/-- In a descending list the records from a bound on come first. -/
theorem eq_append_of_pairwise {records : List ChunkRecord} (h : records.Pairwise Precedes) (bound : Int) :
    records = records.filter (fun r => bound ≤ r.timestamp.toInt) ++
      records.filter (fun r => r.timestamp.toInt < bound) := by
  induction records with
  | nil => rfl
  | cons r rest ih =>
    obtain ⟨hr, hrest⟩ := List.pairwise_cons.1 h
    by_cases hbound : bound ≤ r.timestamp.toInt
    · rw [List.filter_cons_of_pos (by simpa using hbound), List.filter_cons_of_neg (by simpa using hbound),
        List.cons_append, ← ih hrest]
    · have hnone : rest.filter (fun r => bound ≤ r.timestamp.toInt) = [] := by
        rw [List.filter_eq_nil_iff]
        intro q hq
        have hle := Int64.le_iff_toInt_le.1 (hr q hq)
        simp only [decide_eq_true_eq]
        omega
      have hrests := ih hrest
      rw [hnone, List.nil_append] at hrests
      rw [List.filter_cons_of_neg (by simpa using hbound), List.filter_cons_of_pos (by simpa using hbound),
        hnone, List.nil_append, ← hrests]

end ChunkRecord

namespace SeriesStore

open Publication

variable {store : SeriesStore} {tenant id : String} {newest : Publication} {older : List Publication}

/-- The records of the newest publication stand first, in their order. -/
theorem exists_fetchChunks_eq (hlists : store.Lists tenant id (newest.records ++ older.flatMap records))
    (hrange : Int64.minValue.toInt ≤ newest.earliest) (holder : ∀ p ∈ older, Int64.minValue.toInt ≤ p.earliest)
    (hbefore : ∀ p ∈ older, p.latest.toInt < newest.earliest) :
    ∃ further, store.fetchChunks tenant id = newest.records ++ further := by
  have hsplit := ChunkRecord.eq_append_of_pairwise hlists.newestFirst newest.earliest
  have hfirst : (newest.records ++ older.flatMap records).filter
      (fun r => newest.earliest ≤ r.timestamp.toInt) = newest.records := by
    rw [List.filter_append, List.filter_eq_self.2, List.filter_eq_nil_iff.2, List.append_nil]
    · intro r hr
      obtain ⟨p, hp, hr⟩ := List.mem_flatMap.1 hr
      have hle := (covers_timestamp (holder p hp) hr).2
      have hlt := hbefore p hp
      simp only [decide_eq_true_eq]
      omega
    · intro r hr
      exact decide_eq_true (covers_timestamp hrange hr).1
  have hperm := hlists.perm.filter fun r => newest.earliest ≤ r.timestamp.toInt
  rw [hfirst] at hperm
  have hnewest : (store.fetchChunks tenant id).filter (fun r => newest.earliest ≤ r.timestamp.toInt) =
      newest.records := by
    refine List.Perm.eq_of_pairwise ?_ (hlists.newestFirst.filter _) ?_ hperm
    · intro a b ha hb hab hba
      exact eq_of_timestamp_eq hrange (hperm.mem_iff.1 ha) hb (Int64.le_antisymm hba hab)
    · refine (pairwise_records hrange).imp ?_
      intro a b hlt
      exact Int64.le_iff_toInt_le.2 (Int.le_of_lt hlt)
  rw [hnewest] at hsplit
  exact ⟨_, hsplit⟩

/-- Whatever the order and the portions in which the records of some publications came into a series, it
holds the payload that was published last. -/
theorem reconstruct_fetchChunks {writes : List SeriesWrite} {publications : List Publication}
    (hpushed : (writes.flatMap (·.pushedTo tenant id)).Perm (publications.flatMap records))
    (hrange : ∀ p ∈ publications, Int64.minValue.toInt ≤ p.earliest)
    (hapart : publications.Pairwise Apart)
    (hnewest : newest ∈ publications) (hlatest : ∀ p ∈ publications, p.latest ≤ newest.latest)
    (hlength : newest.payload.length < UInt64.size) :
    Document.reconstruct ((empty.writeAll writes).fetchChunks tenant id) =
      Document.reconstruct [newest.whole] := by
  obtain ⟨before, after, rfl⟩ := List.append_of_mem hnewest
  have hperm : (before ++ newest :: after).Perm (newest :: (before ++ after)) := List.perm_middle
  have hnewestApart := (List.pairwise_cons.1 ((hperm.pairwise_iff Apart.symm).1 hapart)).1
  have holder : ∀ p ∈ before ++ after, p ∈ before ++ newest :: after := by
    intro p hp
    exact hperm.mem_iff.2 (List.mem_cons_of_mem newest hp)
  have hlists := lists_writeAll writes tenant id
  have hrecords := hpushed.trans (hperm.flatMap_right records)
  rw [List.flatMap_cons] at hrecords
  obtain ⟨further, hfetch⟩ := exists_fetchChunks_eq ⟨hlists.perm.trans hrecords, hlists.newestFirst⟩
    (hrange newest hnewest) (fun p hp => hrange p (holder p hp))
    (fun p hp => (hnewestApart p hp).symm.lt_earliest (hlatest p (holder p hp)))
  rw [hfetch]
  exact ChunkRecord.reconstruct_split_append further hlength (hrange newest hnewest)

/-- Two documents in three pieces each, and an empty payload at the least time stamp. -/
def draft : Publication := ⟨(Document.lone "draft").compress, 64, 5⟩
def revision : Publication := ⟨(Document.lone "revision").compress, 64, 8⟩
def blank : Publication := ⟨[], 0, Int64.minValue⟩

/-- Their records out of order, while another series gets a newer one. -/
def interleaved : List SeriesWrite :=
  [.push "tenant" "series" (revision.records.drop 2 ++ draft.records.drop 1),
    .push "tenant" "other" [⟨9, [4], .empty⟩],
    .push "tenant" "series" (blank.records ++ revision.records.take 1),
    .describe "tenant" ⟨"series", .empty⟩,
    .push "tenant" "series" (draft.records.take 1 ++ (revision.records.take 2).drop 1)]

theorem reconstruct_fetchChunks_interleaved :
    (interleaved.flatMap (·.pushedTo "tenant" "series")).Perm ([draft, revision, blank].flatMap records) ∧
    (∀ p ∈ [draft, revision, blank], Int64.minValue.toInt ≤ p.earliest) ∧
    [draft, revision, blank].Pairwise Apart ∧
    (∀ p ∈ [draft, revision, blank], p.latest ≤ revision.latest) ∧
    revision.payload.length < UInt64.size ∧
    Document.reconstruct ((empty.writeAll interleaved).fetchChunks "tenant" "series") =
      .ok (some (Document.lone "revision")) := by
  have hpushed : (interleaved.flatMap (·.pushedTo "tenant" "series")).Perm
      ([draft, revision, blank].flatMap records) := by
    have hparts : interleaved.flatMap (·.pushedTo "tenant" "series") =
        revision.records.drop 2 ++ draft.records.drop 1 ++ (blank.records ++ revision.records.take 1 ++
          (draft.records.take 1 ++ (revision.records.take 2).drop 1)) := by
      simp [interleaved, SeriesWrite.pushedTo]
    -- Each record stands in one of the portions, so it is counted as often as in the publications.
    refine List.perm_iff_count.2 fun r => ?_
    have hdraft := congrArg (List.count r) (List.take_append_drop 1 draft.records)
    have hrevision := congrArg (List.count r) (List.take_append_drop 2 revision.records)
    have hfirst := congrArg (List.count r) (List.take_append_drop 1 (revision.records.take 2))
    rw [List.take_take, Nat.min_eq_left (Nat.le_succ 1)] at hfirst
    simp only [hparts, List.count_append, List.flatMap_cons, List.flatMap_nil, List.append_nil] at *
    omega
  have hdraft : draft.earliest = 3 := by decide +kernel
  have hrevision : revision.earliest = 6 := by decide +kernel
  have hblank : blank.earliest = Int64.minValue.toInt := by decide +kernel
  have hrange : ∀ p ∈ [draft, revision, blank], Int64.minValue.toInt ≤ p.earliest := by
    rw [List.forall_mem_cons, List.forall_mem_cons, List.forall_mem_singleton, hdraft, hrevision, hblank]
    decide
  have hapart : [draft, revision, blank].Pairwise Apart := by
    have hrevised : draft.Apart revision := apart_of_lt (by rw [hrevision]; decide)
    have hdraft : blank.Apart draft := apart_of_lt (by rw [hdraft]; decide)
    have hrevision : blank.Apart revision := apart_of_lt (by rw [hrevision]; decide)
    rw [List.pairwise_cons, List.pairwise_cons, List.forall_mem_cons, List.forall_mem_singleton,
      List.forall_mem_singleton]
    exact ⟨⟨hrevised, hdraft.symm⟩, hrevision.symm, List.pairwise_singleton _ _⟩
  have hlatest : ∀ p ∈ [draft, revision, blank], p.latest ≤ revision.latest := by decide +kernel
  have hlength : revision.payload.length < UInt64.size := by decide +kernel
  have hnewest : revision ∈ [draft, revision, blank] := List.mem_cons_of_mem _ List.mem_cons_self
  have hwhole : Document.reconstruct [revision.whole] = .ok (some (Document.lone "revision")) :=
    ChunkRecord.reconstruct_lone _ _
  refine ⟨hpushed, hrange, hapart, hlatest, hlength, ?_⟩
  rw [reconstruct_fetchChunks hpushed hrange hapart hnewest hlatest hlength, hwhole]

end SeriesStore

end Inventory
