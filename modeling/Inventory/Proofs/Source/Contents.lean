import Inventory.Proofs.Repetition
import Inventory.Proofs.Source.Stability

/-! # What a store of series contains

Writes to a store come in any order and in any portions. What they leave is told for each series apart
(`SeriesStore.seriesOf_writeAll`): the records that were pushed to it, the newest first, and the tags that it got last.
The series of a tenant stand in the order in which they were first written to.
-/

namespace Inventory

inductive SeriesWrite where
  | describe (tenant : String) (info : SeriesInfo)
  | push (tenant id : String) (records : List ChunkRecord)

namespace SeriesWrite

def tenant : SeriesWrite → String
  | .describe tenant _ => tenant
  | .push tenant _ _ => tenant

def id : SeriesWrite → String
  | .describe _ info => info.id
  | .push _ id _ => id

def change : SeriesWrite → Series → Series
  | .describe _ info, s => { s with tags := info.tags }
  | .push _ _ records, s => s.push records

def pushedTo (tenant id : String) : SeriesWrite → List ChunkRecord
  | .describe .. => []
  | .push otherTenant other records => if tenant = otherTenant ∧ id = other then records else []

def tagsFor? (tenant id : String) : SeriesWrite → Option Tags
  | .describe otherTenant info => if tenant = otherTenant ∧ id = info.id then some info.tags else none
  | .push .. => none

variable (writes : List SeriesWrite) (w : SeriesWrite) (tenant id : String)

/-- The ids of the series of a tenant, in the order in which they are first written to. -/
def seriesIds : List String :=
  ((writes.filter (·.tenant == tenant)).map (·.id)).eraseDups

def lastTags : Tags :=
  (writes.filterMap (·.tagsFor? tenant id)).getLast?.getD .empty

def allPushed : List ChunkRecord :=
  writes.flatMap (·.pushedTo tenant id)

def result : Series :=
  ⟨id, lastTags writes tenant id, Series.newestFirst (allPushed writes tenant id)⟩

theorem id_change (s : Series) : (w.change s).id = s.id := by
  cases w <;> rfl

theorem seriesIds_concat_self :
    seriesIds (writes ++ [w]) w.tenant =
      if w.id ∈ seriesIds writes w.tenant then seriesIds writes w.tenant
      else seriesIds writes w.tenant ++ [w.id] := by
  rw [seriesIds, List.filter_append, List.map_append, List.filter_cons, if_pos (beq_self_eq_true _), List.filter_nil,
    List.map_singleton, eraseDups_concat]
  rfl

theorem seriesIds_concat_of_ne (h : tenant ≠ w.tenant) :
    seriesIds (writes ++ [w]) tenant = seriesIds writes tenant := by
  rw [seriesIds, List.filter_append, List.filter_cons, if_neg (by simpa using h.symm), List.filter_nil, List.append_nil]
  rfl

theorem lastTags_concat :
    lastTags (writes ++ [w]) tenant id = (w.tagsFor? tenant id).getD (lastTags writes tenant id) := by
  rw [lastTags, List.filterMap_append]
  cases htags : w.tagsFor? tenant id with
  | none =>
    rw [List.filterMap_cons_none htags, List.filterMap_nil, List.append_nil]
    rfl
  | some tags =>
    rw [List.filterMap_cons_some htags, List.filterMap_nil, List.getLast?_concat]
    rfl

theorem allPushed_concat :
    allPushed (writes ++ [w]) tenant id = allPushed writes tenant id ++ w.pushedTo tenant id := by
  rw [allPushed, List.flatMap_append, List.flatMap_singleton]
  rfl

theorem result_concat :
    result (writes ++ [w]) tenant id =
      if tenant = w.tenant ∧ id = w.id then w.change (result writes tenant id) else result writes tenant id := by
  rw [result, lastTags_concat, allPushed_concat]
  cases w with
  | describe otherTenant info =>
    rw [pushedTo, List.append_nil, tagsFor?]
    by_cases h : tenant = otherTenant ∧ id = info.id
    · rw [if_pos h]
      exact (if_pos h).symm
    · rw [if_neg h]
      exact (if_neg h).symm
  | push otherTenant other records =>
    rw [pushedTo, tagsFor?, Option.getD_none]
    by_cases h : tenant = otherTenant ∧ id = other
    · rw [if_pos h, ← Series.newestFirst_append]
      exact (if_pos h).symm
    · rw [if_neg h, List.append_nil]
      exact (if_neg h).symm

/-- A series that was never written to has nothing. -/
theorem result_of_not_mem (h : id ∉ seriesIds writes tenant) : result writes tenant id = ⟨id, .empty, []⟩ := by
  induction writes using List.reverseRecOn with
  | nil => rw [result, allPushed, List.flatMap_nil, Series.newestFirst, List.mergeSort_nil]; rfl
  | append_singleton writes w ih =>
    rw [result_concat]
    by_cases htenant : tenant = w.tenant
    · subst htenant
      rw [seriesIds_concat_self] at h
      split at h
      · next hold =>
        rw [if_neg fun heq : w.tenant = w.tenant ∧ id = w.id => h (heq.2 ▸ hold)]
        exact ih h
      · rw [List.mem_append, List.mem_singleton, not_or] at h
        rw [if_neg fun heq : w.tenant = w.tenant ∧ id = w.id => h.2 heq.2]
        exact ih h.1
    · rw [seriesIds_concat_of_ne _ _ _ htenant] at h
      rw [if_neg fun heq : tenant = w.tenant ∧ id = w.id => htenant heq.1]
      exact ih h

end SeriesWrite

namespace Series

variable {f : Series → Series} {g : String → Series} {id : String} {ids : List String}

/-- A change of one series in a row of them, where a series that is not there yet is an empty one at the end. -/
theorem update_map (hg : ∀ other, (g other).id = other) (hnew : id ∉ ids → g id = ⟨id, .empty, []⟩) (hids : ids.Nodup) :
    update id f (ids.map g) =
      (if id ∈ ids then ids else ids ++ [id]).map fun other => if other = id then f (g other) else g other := by
  induction ids with
  | nil =>
    have hempty := hnew List.not_mem_nil
    rw [List.map_nil, update, if_neg List.not_mem_nil, List.nil_append, List.map_singleton, if_pos rfl, hempty]
  | cons head rest ih =>
    obtain ⟨hhead, hrest⟩ := List.nodup_cons.1 hids
    rw [List.map_cons, update, hg]
    by_cases h : head = id
    · subst h
      have hothers : rest.map (fun other => if other = head then f (g other) else g other) = rest.map g :=
        List.map_congr_left fun other hother => if_neg (ne_of_mem_of_not_mem hother hhead)
      rw [if_pos rfl, if_pos List.mem_cons_self, List.map_cons, if_pos rfl, hothers]
    · have hmem : id ∈ head :: rest ↔ id ∈ rest := by rw [List.mem_cons, or_iff_right (Ne.symm h)]
      rw [if_neg h, ih (fun hid => hnew (mt hmem.1 hid)) hrest]
      by_cases hid : id ∈ rest
      · rw [if_pos hid, if_pos (hmem.2 hid), List.map_cons, if_neg h]
      · rw [if_neg hid, if_neg (mt hmem.1 hid), List.cons_append, List.map_cons, if_neg h]

/-- The other series stay as they are, in their order. -/
theorem filter_update (hid : ∀ s, (f s).id = s.id) (id : String) (series : List Series) :
    (update id f series).filter (·.id != id) = series.filter (·.id != id) := by
  induction series with
  | nil => rw [update, List.filter_cons, hid, if_neg (by simp)]
  | cons s rest ih =>
    rw [update]
    split
    · next h => rw [List.filter_cons, List.filter_cons, hid, h, if_neg (by simp), if_neg (by simp)]
    · rw [List.filter_cons, List.filter_cons, ih]

end Series

namespace SeriesStore

variable {store : SeriesStore} {tenant id : String} {records : List ChunkRecord}

theorem seriesOf_update (store : SeriesStore) (tenant id other : String) (f : Series → Series) :
    (store.update tenant id f).seriesOf other =
      if other = tenant then Series.update id f (store.seriesOf tenant) else store.seriesOf other := by
  rw [seriesOf, update, SortedMap.alter, SortedMap.get?_insert]
  by_cases h : other = tenant
  · rw [if_pos h, if_pos h]
    rfl
  · rw [if_neg h, if_neg h]
    rfl

def write (store : SeriesStore) : SeriesWrite → SeriesStore
  | .describe tenant info => store.addSeries tenant info
  | .push tenant id records => store.pushRecords tenant id records

def writeAll (store : SeriesStore) (writes : List SeriesWrite) : SeriesStore :=
  writes.foldl write store

theorem write_eq (store : SeriesStore) (w : SeriesWrite) : store.write w = store.update w.tenant w.id w.change := by
  cases w <;> rfl

/-- Each series that was written to is there once, with what was written to it. -/
theorem seriesOf_writeAll (writes : List SeriesWrite) (tenant : String) :
    (empty.writeAll writes).seriesOf tenant =
      (SeriesWrite.seriesIds writes tenant).map (SeriesWrite.result writes tenant) := by
  induction writes using List.reverseRecOn with
  | nil => rfl
  | append_singleton writes w ih =>
    have hlast : empty.writeAll (writes ++ [w]) = (empty.writeAll writes).write w := List.foldl_append
    have hresult : SeriesWrite.result (writes ++ [w]) tenant = fun id =>
        if tenant = w.tenant ∧ id = w.id then w.change (SeriesWrite.result writes tenant id)
        else SeriesWrite.result writes tenant id := funext (SeriesWrite.result_concat writes w tenant)
    rw [hlast, write_eq, seriesOf_update, hresult]
    by_cases htenant : tenant = w.tenant
    · subst htenant
      simp only [true_and]
      rw [if_true, ih, SeriesWrite.seriesIds_concat_self]
      exact Series.update_map (fun _ => rfl) (SeriesWrite.result_of_not_mem writes _ _) (nodup_eraseDups _)
    · simp only [htenant, false_and, if_false]
      rw [ih, SeriesWrite.seriesIds_concat_of_ne _ _ _ htenant]

theorem find?_map_result (writes : List SeriesWrite) (tenant id : String) (ids : List String) :
    (ids.map (SeriesWrite.result writes tenant)).find? (·.id == id) =
      if id ∈ ids then some (SeriesWrite.result writes tenant id) else none := by
  induction ids with
  | nil => rfl
  | cons head rest ih =>
    rw [List.map_cons, List.find?_cons]
    by_cases h : head = id
    · subst h
      rw [if_pos List.mem_cons_self, SeriesWrite.result, beq_self_eq_true]
    · rw [SeriesWrite.result, beq_false_of_ne h]
      simp only [List.mem_cons, Ne.symm h, false_or]
      exact ih

theorem fetchChunks_writeAll (writes : List SeriesWrite) (tenant id : String) :
    (empty.writeAll writes).fetchChunks tenant id =
      Series.newestFirst (SeriesWrite.allPushed writes tenant id) := by
  rw [fetchChunks, seriesOf_writeAll, find?_map_result]
  split
  · rfl
  · next h => exact congrArg Series.records (SeriesWrite.result_of_not_mem writes tenant id h).symm

theorem findSeries_writeAll (writes : List SeriesWrite) (tenant : String) (filter : TagFilter) :
    (empty.writeAll writes).findSeries tenant filter =
      ((SeriesWrite.seriesIds writes tenant).map fun id => ⟨id, SeriesWrite.lastTags writes tenant id⟩).filter
        (filter.holds ·.tags) := by
  rw [findSeries, seriesOf_writeAll, List.filter_map, List.filter_map, List.map_map]
  rfl

/-- A series has some records and no others, the newest first. -/
structure Lists (store : SeriesStore) (tenant id : String) (records : List ChunkRecord) : Prop where
  perm : (store.fetchChunks tenant id).Perm records
  newestFirst : (store.fetchChunks tenant id).Pairwise ChunkRecord.Precedes

theorem lists_writeAll (writes : List SeriesWrite) (tenant id : String) :
    (empty.writeAll writes).Lists tenant id (writes.flatMap (·.pushedTo tenant id)) := by
  have hfetched := fetchChunks_writeAll writes tenant id
  exact ⟨hfetched ▸ Series.newestFirst_perm _, hfetched ▸ Series.pairwise_newestFirst _⟩

/-- After any writes a series holds all records that were pushed to it, sorted but with ties left as they came. The
series of a tenant are those that were written to, each of them once and in the order of their first writes, with the
tags they got last. One more write changes no other series. -/
theorem writeAll_contents (writes : List SeriesWrite) :
    (∀ tenant id, ChunkRecord.Sorts (SeriesWrite.allPushed writes tenant id)
        ((empty.writeAll writes).fetchChunks tenant id) ∧
      (empty.writeAll writes).fetchChunks tenant id =
        Series.newestFirst (SeriesWrite.allPushed writes tenant id)) ∧
    (∀ tenant, (SeriesWrite.seriesIds writes tenant).Nodup ∧
      ∀ filter, (empty.writeAll writes).findSeries tenant filter =
        ((SeriesWrite.seriesIds writes tenant).map fun id => ⟨id, SeriesWrite.lastTags writes tenant id⟩).filter
          (filter.holds ·.tags)) ∧
    (∀ w : SeriesWrite,
      (∀ tenant, tenant ≠ w.tenant →
        ((empty.writeAll writes).write w).seriesOf tenant = (empty.writeAll writes).seriesOf tenant) ∧
      (((empty.writeAll writes).write w).seriesOf w.tenant).filter (·.id != w.id) =
        ((empty.writeAll writes).seriesOf w.tenant).filter (·.id != w.id)) := by
  refine ⟨fun tenant id => ?_, fun tenant => ⟨nodup_eraseDups _, findSeries_writeAll writes tenant⟩,
    fun w => ⟨fun tenant htenant => ?_, ?_⟩⟩
  · have hfetched := fetchChunks_writeAll writes tenant id
    exact ⟨hfetched ▸ Series.sorts_newestFirst _, hfetched⟩
  · rw [write_eq, seriesOf_update, if_neg htenant]
  · rw [write_eq, seriesOf_update, if_pos rfl]
    exact Series.filter_update w.id_change w.id _

/-- Two portions of records with time stamps in common, between writes to another series and to another tenant. -/
def portions : List SeriesWrite :=
  [.push "tenant" "b" [⟨1, [1], .empty⟩, ⟨2, [2], .empty⟩],
    .describe "tenant" ⟨"a", .ofList [("feed", "old")]⟩,
    .push "other" "b" [⟨3, [5], .empty⟩],
    .push "tenant" "b" [⟨2, [3], .empty⟩, ⟨1, [4], .empty⟩],
    .describe "tenant" ⟨"a", .ofList [("feed", "new")]⟩]

theorem writeAll_contents_portions :
    (empty.writeAll portions).fetchChunks "tenant" "b" =
      [⟨2, [2], .empty⟩, ⟨2, [3], .empty⟩, ⟨1, [1], .empty⟩, ⟨1, [4], .empty⟩] ∧
    (empty.writeAll portions).findSeries "tenant" .empty = [⟨"b", .empty⟩, ⟨"a", .ofList [("feed", "new")]⟩] ∧
    "tenant" ≠ "other" ∧
    ((empty.writeAll portions).write (.push "other" "b" [])).seriesOf "tenant" =
      (empty.writeAll portions).seriesOf "tenant" := by
  obtain ⟨hrecords, hlisted, hothers⟩ := writeAll_contents portions
  have hne : "tenant" ≠ "other" := by decide
  refine ⟨(hrecords "tenant" "b").2.trans ?_, ((hlisted "tenant").2 .empty).trans ?_, hne,
    (hothers (.push "other" "b" [])).1 "tenant" hne⟩
  · have hpushed : SeriesWrite.allPushed portions "tenant" "b" =
        [⟨1, [1], .empty⟩, ⟨2, [2], .empty⟩, ⟨2, [3], .empty⟩, ⟨1, [4], .empty⟩] := rfl
    rw [hpushed, Series.newestFirst]
    simp [List.mergeSort, List.MergeSort.Internal.splitInTwo]
  · decide +kernel

end SeriesStore

end Inventory
