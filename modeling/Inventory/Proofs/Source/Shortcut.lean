import Inventory.Proofs.Chunk.Sequence
import Inventory.Proofs.Gzip.Stored
import Inventory.Proofs.Snapshot.Lossless
import Inventory.Proofs.Source.Conditions
import Inventory.Proofs.Traversal
import Inventory.Source.Query

/-! # The short way to the metrics of a type

The metrics of a type are looked for only in the series whose tags list the type. If the tags leave out no series that
has such metrics, nothing is lost by this (`metricsForType_eq_listing`). A series whose tags list the type for another
reason does no harm.
-/

namespace Inventory

namespace Series

def isOfResources (feedId : String) (s : Series) : Bool :=
  s.tags.get? "module" == some "inventory" && s.tags.get? "feed" == some feedId && s.tags.get? "type" == some "r"

/-- The tags list a type of metrics, on a single line. -/
def Lists (typeId : String) (s : Series) : Prop :=
  ∃ value, s.tags.get? "mtypes" = some value ∧ ("|" ++ typeId ++ "|").toList <:+: value.toList ∧ '\n' ∉ value.toList

end Series

namespace TagFilter

def forResources (feedId : String) : TagFilter :=
  ⟨[.literal "module" "inventory", .literal "feed" feedId, .literal "type" "r"]⟩

variable {feedId : String} {s : Series}

theorem holds_forResources : (forResources feedId).holds s.tags = s.isOfResources feedId := by
  rw [Bool.eq_iff_iff]
  simp only [holds, forResources, List.all_cons, List.all_nil, Bool.and_true, Bool.and_eq_true,
    TagCondition.holds_literal_iff, Series.isOfResources, beq_iff_eq, and_assoc]

end TagFilter

namespace ChunkSource

open Pattern

variable {source : ChunkSource} {tenant feedId typeId : String}

theorem feedFilter_eq (feedId : String) :
    feedFilter feedId =
      if (whole (spelled feedId.toList)).isWithinLimits then
        .ok ⟨[.literal "module" "inventory", .literal "feed" feedId]⟩
      else .error (.invalidFilter (.badPattern "feed")) := by
  have hmodule : (whole (spelled "inventory".toList)).isWithinLimits = true := by decide
  rw [feedFilter, TagFilter.withLiteral_eq, if_pos hmodule]
  exact TagFilter.withLiteral_eq _ _ _

theorem resourceSnapshots_eq (source : ChunkSource) (tenant feedId : String) :
    source.resourceSnapshots tenant feedId =
      if (whole (spelled feedId.toList)).isWithinLimits then source.loadSnapshots tenant (.forResources feedId)
      else .error (.invalidFilter (.badPattern "feed")) := by
  have htype : (whole (spelled "r".toList)).isWithinLimits = true := by decide
  rw [resourceSnapshots, feedFilter_eq]
  split
  · rw [ok_bind, TagFilter.withLiteral_eq, if_pos htype]
    rfl
  · rfl

theorem metricsForType_eq (hfeed : (whole (spelled feedId.toList)).isWithinLimits = true)
    (hshort : 32 * typeId.length + 416 ≤ costLimit) :
    source.metricsForType tenant feedId typeId =
      (source.loadSnapshots tenant
        ⟨(TagFilter.forResources feedId).conditions ++ [.containing "mtypes" ("|" ++ typeId ++ "|")]⟩).map
          (·.flatMap (·.metricsOfType typeId)) := by
  have htype : (whole (spelled "r".toList)).isWithinLimits = true := by decide
  have hlength : 32 * ("|" ++ typeId ++ "|").length + 352 ≤ costLimit := by
    rw [String.length_append, String.length_append]
    have hbar : "|".length = 1 := rfl
    omega
  rw [metricsForType, feedFilter_eq, if_pos hfeed, ok_bind, TagFilter.withLiteral_eq, if_pos htype, ok_bind,
    TagFilter.withSubstring_eq, if_pos hlength, ok_bind]
  rfl

end ChunkSource

namespace SeriesStore

variable {store : SeriesStore} {tenant feedId typeId : String} {filter : TagFilter} {docs : List Document}

def newest (store : SeriesStore) (tenant : String) (s : Series) : Except Error (Option Document) :=
  Document.reconstruct (store.fetchChunks tenant s.id)

theorem loadSnapshots_eq_ok_iff : store.source.loadSnapshots tenant filter = .ok docs ↔
    ∃ found, List.Forall₂ (fun s result => store.newest tenant s = .ok result)
      ((store.seriesOf tenant).filter (filter.holds ·.tags)) found ∧ found.filterMap id = docs := by
  have hfetched : (store.findSeries tenant filter).mapM (fun s => store.source.fetchChunks tenant s.id) =
      .ok ((store.findSeries tenant filter).map fun s => store.fetchChunks tenant s.id) := by
    rw [mapM_eq_ok_iff, List.forall₂_map_right_iff, List.forall₂_same]
    exact fun _ _ => rfl
  have hfound : store.source.findSeries tenant filter = .ok (store.findSeries tenant filter) := rfl
  rw [ChunkSource.loadSnapshots, hfound, ok_bind, hfetched, ok_bind]
  change (((store.findSeries tenant filter).map _).mapM Document.reconstruct).map (·.filterMap id) = _ ↔ _
  simp only [map_eq_ok_iff, mapM_eq_ok_iff, findSeries, List.forall₂_map_left_iff]
  exact Iff.rfl

/-- Passing over what has nothing to give changes nothing. -/
theorem exists_filtered {β : Type} {keep : Series → Bool} {view : Document → List β} {items : List Series}
    {found : List (Option Document)}
    (hfound : List.Forall₂ (fun s result => store.newest tenant s = .ok result) items found)
    (hkeep : ∀ s ∈ items, ∀ doc, store.newest tenant s = .ok (some doc) → view doc ≠ [] → keep s = true) :
    ∃ kept, List.Forall₂ (fun s result => store.newest tenant s = .ok result) (items.filter keep) kept ∧
      (kept.filterMap id).flatMap view = (found.filterMap id).flatMap view := by
  induction hfound with
  | nil => exact ⟨[], .nil, rfl⟩
  | @cons s result items found hresult _ ih =>
    rw [List.forall_mem_cons] at hkeep
    obtain ⟨kept, hkept, hview⟩ := ih hkeep.2
    cases hkeeps : keep s with
    | true =>
      rw [List.filter_cons_of_pos hkeeps]
      refine ⟨result :: kept, .cons hresult hkept, ?_⟩
      cases result with
      | none => exact hview
      | some doc => exact congrArg (view doc ++ ·) hview
    | false =>
      rw [List.filter_cons_of_neg (Bool.eq_false_iff.1 hkeeps)]
      refine ⟨kept, hkept, hview.trans ?_⟩
      cases result with
      | none => rfl
      | some doc =>
        have hnothing : view doc = [] := by
          by_contra hsome
          rw [hkeep.1 doc hresult hsome] at hkeeps
          cases hkeeps
        exact (congrArg (· ++ _) hnothing).symm

/-- If the listing of all resources can be read, and each series with metrics of a type lists the type in its
tags, then the short way gives the metrics of the type in the listing, in the same order. -/
theorem metricsForType_eq_listing (hshort : 32 * typeId.length + 416 ≤ Pattern.costLimit)
    (hdocs : store.source.resourceSnapshots tenant feedId = .ok docs)
    (hlists : ∀ s ∈ store.seriesOf tenant, s.isOfResources feedId = true → ∀ doc,
      store.newest tenant s = .ok (some doc) → doc.metricsOfType typeId ≠ [] → s.Lists typeId) :
    store.source.metricsForType tenant feedId typeId = .ok (docs.flatMap (·.metricsOfType typeId)) := by
  rw [ChunkSource.resourceSnapshots_eq] at hdocs
  split at hdocs
  case isFalse => cases hdocs
  case isTrue hfeed =>
    obtain ⟨found, hfound, rfl⟩ := loadSnapshots_eq_ok_iff.1 hdocs
    have hkeep : ∀ s ∈ (store.seriesOf tenant).filter ((TagFilter.forResources feedId).holds ·.tags), ∀ doc,
        store.newest tenant s = .ok (some doc) → doc.metricsOfType typeId ≠ [] →
        (TagCondition.containing "mtypes" ("|" ++ typeId ++ "|")).holds s.tags = true := by
      intro s hs doc hnewest hmetrics
      rw [List.mem_filter, TagFilter.holds_forResources] at hs
      obtain ⟨value, hvalue, ⟨front, back, hcontains⟩, hline⟩ := hlists s hs.1 hs.2 doc hnewest hmetrics
      rw [← hcontains, List.append_assoc, List.mem_append, List.mem_append, not_or, not_or] at hline
      exact TagCondition.holds_containing_iff.2
        ⟨value, hvalue, front, back, by rw [← hcontains, List.append_assoc], hline.1, hline.2.2⟩
    obtain ⟨kept, hkept, hview⟩ := exists_filtered hfound hkeep
    have hshortcut : store.source.loadSnapshots tenant
        ⟨(TagFilter.forResources feedId).conditions ++ [.containing "mtypes" ("|" ++ typeId ++ "|")]⟩ =
          .ok (kept.filterMap id) := by
      apply loadSnapshots_eq_ok_iff.2
      refine ⟨kept, ?_, rfl⟩
      rw [List.filter_filter] at hkept
      simpa only [TagFilter.holds_append, Bool.and_comm] using hkept
    rw [ChunkSource.metricsForType_eq hfeed hshort, hshortcut, ← hview]
    rfl

theorem newest_of_compress {doc : Document} {store : SeriesStore} {tenant : String} {s : Series} {latest : Int64}
    (hrecords : store.fetchChunks tenant s.id = [⟨latest, doc.compress, .empty⟩]) (hreals : doc.noReals = true)
    (hdepth : doc.toDatum.depth ≤ 127) : store.newest tenant s = .ok (some doc) := by
  rw [← Document.nesting_render hreals] at hdepth
  rw [newest, hrecords, Document.reconstruct_compress latest hreals, if_pos hdepth]

/-- A metric of a type whose id is full of marks, and a resource without metrics. -/
def pump : Document :=
  .ofStructure (.node (.resource "pump" "" none .empty) [.node (.metric "flow" "" "mt;a|b.*" .empty) []])
def pipe : Document :=
  .ofStructure (.node (.resource "pipe" "" none .empty) [])

def tagsOf (more : List (String × String)) : Tags :=
  .ofList ([("module", "inventory"), ("feed", "feed"), ("type", "r")] ++ more)

def pumpSeries : Series := ⟨"pump", tagsOf [("mtypes", "|c||a|b.*|")], [⟨7, pump.compress, .empty⟩]⟩
def pipeSeries : Series := ⟨"pipe", tagsOf [("mtypes", "-|a|b.*|-")], [⟨3, pipe.compress, .empty⟩]⟩
def bareSeries : Series := ⟨"bare", tagsOf [], [⟨3, pipe.compress, .empty⟩]⟩

/-- Of three series one lists the type for a metric, and one for no reason. -/
def plant : SeriesStore :=
  ⟨.ofList [("tenant", [pipeSeries, pumpSeries, bareSeries])]⟩

theorem metricsForType_eq_listing_plant :
    32 * "a|b.*".length + 416 ≤ Pattern.costLimit ∧
    plant.source.resourceSnapshots "tenant" "feed" = .ok [pipe, pump, pipe] ∧
    (∀ s ∈ plant.seriesOf "tenant", s.isOfResources "feed" = true → ∀ doc,
      plant.newest "tenant" s = .ok (some doc) → doc.metricsOfType "a|b.*" ≠ [] → s.Lists "a|b.*") ∧
    plant.source.metricsForType "tenant" "feed" "a|b.*" = .ok [.metric "flow" "" "mt;a|b.*" .empty] := by
  have hseries : plant.seriesOf "tenant" = [pipeSeries, pumpSeries, bareSeries] := rfl
  have hpipe : plant.newest "tenant" pipeSeries = .ok (some pipe) :=
    newest_of_compress rfl (by decide +kernel) (by decide +kernel)
  have hpump : plant.newest "tenant" pumpSeries = .ok (some pump) :=
    newest_of_compress rfl (by decide +kernel) (by decide +kernel)
  have hbare : plant.newest "tenant" bareSeries = .ok (some pipe) :=
    newest_of_compress rfl (by decide +kernel) (by decide +kernel)
  have hresources : (plant.seriesOf "tenant").filter ((TagFilter.forResources "feed").holds ·.tags) =
      [pipeSeries, pumpSeries, bareSeries] := by
    simp only [TagFilter.holds_forResources]
    rw [hseries, List.filter_eq_self, List.forall_mem_cons, List.forall_mem_cons, List.forall_mem_singleton]
    exact ⟨by decide +kernel, by decide +kernel, by decide +kernel⟩
  have hdocs : plant.source.resourceSnapshots "tenant" "feed" = .ok [pipe, pump, pipe] := by
    rw [ChunkSource.resourceSnapshots_eq, if_pos (by decide), loadSnapshots_eq_ok_iff, hresources]
    exact ⟨[some pipe, some pump, some pipe], .cons hpipe (.cons hpump (.cons hbare .nil)), rfl⟩
  have hlists : ∀ s ∈ plant.seriesOf "tenant", s.isOfResources "feed" = true → ∀ doc,
      plant.newest "tenant" s = .ok (some doc) → doc.metricsOfType "a|b.*" ≠ [] → s.Lists "a|b.*" := by
    have hnone : ∀ s, plant.newest "tenant" s = .ok (some pipe) → ∀ doc, plant.newest "tenant" s = .ok (some doc) →
        doc.metricsOfType "a|b.*" = [] := by
      intro s hs doc hdoc
      rw [hs] at hdoc
      cases hdoc
      decide +kernel
    rw [hseries, List.forall_mem_cons, List.forall_mem_cons, List.forall_mem_singleton]
    refine ⟨fun _ doc hdoc hmetrics => ?_, fun _ _ _ _ => ?_, fun _ doc hdoc hmetrics => ?_⟩
    · exact absurd (hnone pipeSeries hpipe doc hdoc) hmetrics
    · exact ⟨"|c||a|b.*|", by decide +kernel, by decide +kernel, by decide +kernel⟩
    · exact absurd (hnone bareSeries hbare doc hdoc) hmetrics
  have hshort : 32 * "a|b.*".length + 416 ≤ Pattern.costLimit := by decide
  refine ⟨hshort, hdocs, hlists, ?_⟩
  rw [metricsForType_eq_listing hshort hdocs hlists]
  have hmetrics : [pipe, pump, pipe].flatMap (·.metricsOfType "a|b.*") =
      [.metric "flow" "" "mt;a|b.*" .empty] := by decide +kernel
  rw [hmetrics]

end SeriesStore

end Inventory
