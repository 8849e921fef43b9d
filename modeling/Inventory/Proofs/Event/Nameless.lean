import Inventory.Proofs.Event.Servers

/-! # Documents whose root has no id

The entries of an index are hints, and one that leads to no resource is passed over. Still not every document can be
announced. If its root is a resource with an empty id, the path of every resource in it has a segment that cannot be
read back, so the first entry that names one ends the call before anything is sent. Every other document is announced
to its end (`Forwarder.announceServers_unless_nameless`).
-/

namespace Inventory

def Document.IsNameless (doc : Document) : Prop :=
  doc.root.kind = .resource ∧ doc.root.id = ""

instance (doc : Document) : Decidable doc.IsNameless :=
  inferInstanceAs (Decidable (_ ∧ _))

namespace CanonicalPath

open Inventory.Path

variable {feed : CanonicalPath}

/-- A path is not read past an entity without an id. -/
theorem parse_render_descend_nameless (hfeed : feed.Writable) {entity : Entity} (hid : entity.id = "")
    (trail : List Entity) :
    parse (feed.descend (entity :: trail)).render =
      .error (.invalidPath (.badSegment (entity.kind.code ++ ";") (feed.descend (entity :: trail)).render)) := by
  have hne : (feed.descend (entity :: trail)).segments ≠ [] := List.append_ne_nil_of_left_ne_nil hfeed.ne_nil _
  have hnone : Segment.ofPart? entity.segment.render.toList = none := by
    rw [Entity.segment, hid, entity.kind.ofPart?_render_segment_empty]
  have htext : String.ofList entity.segment.render.toList = entity.kind.code ++ ";" := by
    rw [String.ofList_toList, Entity.segment, hid]
    exact String.append_empty
  unfold parse
  rw [toList_render hne]
  refine map_eq_error_iff.2 ?_
  rw [readSegments, splitPath_relative_of_part hne (part_of_mem_descend hfeed), mapM_eq_error_iff]
  refine ⟨feed.segments.map (·.render.toList), entity.segment.render.toList,
    (trail.map (·.segment)).map (·.render.toList), ?_, ?_, ?_⟩
  · rw [descend, List.map_append, List.map_cons, List.map_cons]
  · rw [List.forall_mem_map]
    intro s hs
    rw [(hfeed.proper s hs).ofPart?_render]
    exact ⟨s, rfl⟩
  · rw [hnone, htext]

end CanonicalPath

namespace Forwarder

open CanonicalPath

variable {doc : Document} {base feed : CanonicalPath} {m : Mention} {rest : List Mention}
  {typeId relative feedPath : String} {entries : List (String × String)}

theorem writable_documentPath (hfeed : feed.Writable) (hdoc : ¬ doc.IsNameless) : (documentPath feed doc).Writable := by
  rw [documentPath]
  split
  · next hroot =>
    have hid : doc.root.id ≠ "" := fun hid => hdoc ⟨hroot, hid⟩
    exact hfeed.child doc.root.kind hid
  · exact hfeed

section Run

variable [EventDigest]

/-- Below a path that can be written no entry fails. -/
theorem exists_perform_foldlM_countEntry (hbase : base.Writable) (hservers : ∀ e ∈ entries, isServerType e.1 = true)
    (times : Nat → Int64) (i sent : Nat) (f : Forwarder MemorySink) :
    ∃ k g, perform ((entries.zipIdx i).foldlM (countEntry times doc base) sent) f = (.ok k, g) := by
  induction entries generalizing i sent f with
  | nil => exact ⟨sent, f, rfl⟩
  | cons entry rest ih =>
    obtain ⟨typeId, relative⟩ := entry
    rw [List.forall_mem_cons] at hservers
    have hentry : ∃ isNew g, perform (announceEntry (times i) doc base typeId relative) f = (.ok isNew, g) := by
      cases hmention : mention? doc base (typeId, relative) with
      | none => exact ⟨false, f, perform_announceEntry_of_none hmention f⟩
      | some m =>
        have hpath := hbase.join (mention?_eq_some_iff.1 hmention).2.2
        rw [perform_announceEntry (times i) hservers.1 hmention hpath]
        split <;> exact ⟨_, _, rfl⟩
    obtain ⟨isNew, g, hentry⟩ := hentry
    rw [List.zipIdx_cons, List.foldlM_cons, perform_bind_of_ok (perform_countEntry_of_ok hentry)]
    exact ih hservers.2 _ _ _

/-- Below a root without an id no server can be announced. -/
theorem perform_announceEntry_of_nameless (hfeed : feed.Writable) (hdoc : doc.IsNameless)
    (hmention : mention? doc (documentPath feed doc) (typeId, relative) = some m) (now : Int64)
    (f : Forwarder MemorySink) :
    perform (announceEntry now doc (documentPath feed doc) typeId relative) f =
      (.error (.invalidPath (.badSegment "r;" m.path.render)), f) := by
  obtain ⟨-, hresource, hpath⟩ := mention?_eq_some_iff.1 hmention
  obtain ⟨trail, hjoin, -⟩ := doc.exists_join hresource (documentPath feed doc)
  have hdescend : m.path = feed.descend (doc.root :: trail) := by
    rw [Except.ok.inj (hpath.symm.trans hjoin), documentPath, if_pos hdoc.1, descend_child]
  have hparse := parse_render_descend_nameless hfeed hdoc.2 trail
  rw [← hdescend, hdoc.1] at hparse
  rw [perform_announceEntry_of_some hmention, announceAdded, perform_parsePath_of_error hparse]
  rfl

theorem perform_announceServers_of_nameless (hfeed : parse feedPath = .ok feed) (hdoc : doc.IsNameless)
    (hmentions : mentions doc (documentPath feed doc) = m :: rest) (times : Nat → Int64) (f : Forwarder MemorySink) :
    perform (announceServers times doc feedPath) f = (.error (.invalidPath (.badSegment "r;" m.path.render)), f) := by
  obtain ⟨before, ⟨typeId, relative⟩, later, hentries, hbefore, hmention, -⟩ := List.filterMap_eq_cons_iff.1 hmentions
  have hservers : ∀ e ∈ before, isServerType e.1 = true := by
    intro e he
    have hentry : (e.1, e.2) ∈ serverEntries doc := by
      rw [hentries]
      exact List.mem_append_left _ he
    exact isServerType_of_mem_serverEntries hentry
  have hpassed : perform ((before.zipIdx 0).foldlM (countEntry times doc (documentPath feed doc)) 0) f = (.ok 0, f) :=
    perform_foldlM_countEntry_of_holds hservers
      (by rw [List.filterMap_eq_nil_iff.2 hbefore]; exact List.forall_mem_nil _) 0
  have hfailed := perform_announceEntry_of_nameless (writable_of_parse hfeed) hdoc hmention (times before.length) f
  rw [announceServers, perform_parsePath_of_ok hfeed, hentries, List.zipIdx_append, List.foldlM_append,
    perform_bind_of_ok hpassed, List.zipIdx_cons, List.foldlM_cons, Nat.zero_add]
  exact perform_bind_of_error (perform_countEntry_of_error hfailed)

theorem exists_perform_announceServers (hfeed : parse feedPath = .ok feed)
    (hdoc : doc.IsNameless → mentions doc (documentPath feed doc) = []) (times : Nat → Int64)
    (f : Forwarder MemorySink) : ∃ k g, perform (announceServers times doc feedPath) f = (.ok k, g) := by
  have hservers : ∀ e ∈ serverEntries doc, isServerType e.1 = true := fun e he => isServerType_of_mem_serverEntries he
  rw [announceServers, perform_parsePath_of_ok hfeed]
  by_cases hnameless : doc.IsNameless
  · refine ⟨0, f, perform_foldlM_countEntry_of_holds hservers ?_ 0⟩
    change ∀ m ∈ mentions doc (documentPath feed doc), _
    rw [hdoc hnameless]
    exact List.forall_mem_nil _
  · have hbase := writable_documentPath (writable_of_parse hfeed) hnameless
    exact exists_perform_foldlM_countEntry hbase hservers times 0 0 f

/-- For a feed with a path, a document is announced to its end unless its root is a resource without an id and its index
names a server. Then the path of the first server named is found to be none, and nothing has been sent. -/
theorem announceServers_unless_nameless (hfeed : parse feedPath = .ok feed) (times : Nat → Int64) (doc : Document)
    (f : Forwarder MemorySink) :
    ((∃ k g, perform (announceServers times doc feedPath) f = (.ok k, g)) ↔
      ¬ (doc.IsNameless ∧ ∃ entry ∈ serverEntries doc, (doc.getOfKind? .resource entry.2).isSome = true)) ∧
    ∀ e g, perform (announceServers times doc feedPath) f = (.error e, g) ↔
      g = f ∧ doc.IsNameless ∧ ∃ m rest, mentions doc (documentPath feed doc) = m :: rest ∧
        e = .invalidPath (.badSegment "r;" m.path.render) := by
  have hnone : mentions doc (documentPath feed doc) = [] ↔
      ∀ entry ∈ serverEntries doc, doc.getOfKind? .resource entry.2 = none := by
    rw [mentions, List.filterMap_eq_nil_iff]
    refine forall₂_congr fun entry _ => ?_
    rw [Option.eq_none_iff_forall_ne_some, Option.eq_none_iff_forall_ne_some]
    constructor
    · intro h resource hresource
      obtain ⟨path, -, hsome⟩ := mention?_of_getOfKind? hresource (documentPath feed doc) entry.1
      exact h _ hsome
    · intro h m hm
      exact h _ (mention?_eq_some_iff.1 hm).2.1
  by_cases hstops : doc.IsNameless ∧ mentions doc (documentPath feed doc) ≠ []
  · obtain ⟨hdoc, hne⟩ := hstops
    obtain ⟨m, rest, hmentions⟩ := List.exists_cons_of_ne_nil hne
    rw [perform_announceServers_of_nameless hfeed hdoc hmentions]
    constructor
    · refine iff_of_false (by rintro ⟨k, g, ⟨⟩⟩) (not_not_intro ⟨hdoc, ?_⟩)
      by_contra hno
      simp only [not_exists, not_and, Bool.not_eq_true, Option.isSome_eq_false_iff, Option.isNone_iff_eq_none] at hno
      exact hne (hnone.2 hno)
    · intro e g
      rw [hmentions]
      constructor
      · rintro ⟨⟩
        exact ⟨rfl, hdoc, m, rest, rfl, rfl⟩
      · rintro ⟨rfl, -, _, _, ⟨⟩, rfl⟩
        rfl
  · have hdoc : doc.IsNameless → mentions doc (documentPath feed doc) = [] :=
      fun hdoc => by_contra fun hne => hstops ⟨hdoc, hne⟩
    obtain ⟨k, g, hperform⟩ := exists_perform_announceServers hfeed hdoc times f
    rw [hperform]
    constructor
    · refine iff_of_true ⟨k, g, rfl⟩ ?_
      rintro ⟨hnameless, entry, hentry, hsome⟩
      rw [hnone.1 (hdoc hnameless) entry hentry] at hsome
      cases hsome
    · intro e g'
      refine iff_of_false (by rintro ⟨⟩) ?_
      rintro ⟨-, hnameless, m, rest, hmentions, -⟩
      rw [hdoc hnameless] at hmentions
      cases hmentions

end Run

/-- A resource without an id, with a server and a metric below it. The index leads to nothing, to the metric and to the
server. -/
def adrift : Document where
  tree := .node (.resource "" "" none .empty)
    [.node (.resource "a" "" none .empty) [], .node (.metric "x" "" "mt;x" .empty) []]
  resourceTypes := .ofList [("Domain Host", ["r;none", "m;x", "r;a"]), ("Folder", [""])]
  metricTypes := .empty

theorem announceServers_unless_nameless_adrift :
    parse "/t;t/f;f" = .ok ⟨[⟨"t", "t"⟩, ⟨"f", "f"⟩]⟩ ∧
    perform (announceServers (fun _ => 2) adrift "/t;t/f;f") keeper =
      (.error (.invalidPath (.badSegment "r;" "/t;t/f;f/r;/r;a")), keeper) ∧
    ∃ k g, perform (announceServers (fun _ => 2) estate "/t;t/f;f") keeper = (.ok k, g) := by
  have hfeed : parse "/t;t/f;f" = .ok ⟨[⟨"t", "t"⟩, ⟨"f", "f"⟩]⟩ := by rfl
  have hmentions : mentions adrift (documentPath ⟨[⟨"t", "t"⟩, ⟨"f", "f"⟩]⟩ adrift) =
      [⟨"Domain Host", .resource "a" "" none .empty, ⟨[⟨"t", "t"⟩, ⟨"f", "f"⟩, ⟨"r", ""⟩, ⟨"r", "a"⟩]⟩⟩] := by
    decide +kernel
  have hrender : render ⟨[⟨"t", "t"⟩, ⟨"f", "f"⟩, ⟨"r", ""⟩, ⟨"r", "a"⟩]⟩ = "/t;t/f;f/r;/r;a" := by decide +kernel
  have hnamed : ¬ estate.IsNameless := by decide
  refine ⟨hfeed, ?_, ?_⟩
  · apply ((announceServers_unless_nameless hfeed _ adrift keeper).2 _ _).2
    refine ⟨rfl, by decide, _, _, hmentions, ?_⟩
    rw [hrender]
  · exact (announceServers_unless_nameless hfeed _ estate keeper).1.2 fun h => hnamed h.1

/-- The feed has a path, and still the document is not announced. -/
theorem not_announced_adrift :
    (parse "/t;t/f;f").isOk = true ∧
    ¬ ∃ k g, perform (announceServers (fun _ => 2) adrift "/t;t/f;f") keeper = (.ok k, g) := by
  have hfailed : (perform (announceServers (fun _ => 2) adrift "/t;t/f;f") keeper).1 =
      .error (.invalidPath (.badSegment "r;" "/t;t/f;f/r;/r;a")) := by decide +kernel
  refine ⟨by decide +kernel, ?_⟩
  rintro ⟨k, g, hperform⟩
  rw [hperform] at hfailed
  cases hfailed

end Forwarder

end Inventory
