import Inventory.Proofs.Event.Announcement
import Inventory.Proofs.Snapshot.Resolution

/-! # The servers of a document

The index of a document may name anything: nothing at all, what is no resource, one resource several times, in two
spellings or under two types. A forwarder that is told of the document announces each server that it names at the
first place that names it, unless it has announced it before, and it announces nothing when it is told again
(`Forwarder.announceServers_news`).
-/

namespace Inventory

open CanonicalPath

namespace EventDraft

theorem resourceId_context (d : EventDraft) : d.context.get? "resource_id" = d.resourceId := by
  rw [context, SortedMap.ofList_concat, SortedMap.get?_insert, if_neg (by decide)]
  cases d.resourceId with
  | some id =>
    rw [Option.toList_some, List.map_singleton, SortedMap.ofList_concat, SortedMap.get?_insert, if_pos rfl]
  | none =>
    rw [Option.toList_none, List.map_nil, List.append_nil]
    cases d.feedId <;> rfl

theorem feedId_context (d : EventDraft) : d.context.get? "feed_id" = d.feedId := by
  have hfeed : (SortedMap.ofList (d.feedId.toList.map fun id => ("feed_id", id))).get? "feed_id" = d.feedId := by
    cases d.feedId <;> rfl
  rw [context, SortedMap.ofList_concat, SortedMap.get?_insert, if_neg (by decide)]
  cases d.resourceId with
  | some id =>
    rw [Option.toList_some, List.map_singleton, SortedMap.ofList_concat, SortedMap.get?_insert, if_neg (by decide),
      hfeed]
  | none => rw [Option.toList_none, List.map_nil, List.append_nil, hfeed]

end EventDraft

structure Mention where
  typeId : String
  resource : Entity
  path : CanonicalPath
deriving DecidableEq

namespace Forwarder

def mention? (doc : Document) (base : CanonicalPath) : String × String → Option Mention
  | (typeId, relative) => do
    let resource ← doc.getOfKind? .resource relative
    let path ← (base.join relative).toOption
    return ⟨typeId, resource, path⟩

def mentions (doc : Document) (base : CanonicalPath) : List Mention :=
  (serverEntries doc).filterMap (mention? doc base)

/-- A mention is news after some others: its path has not been announced, and none of the others is of that path. -/
def IsNews (f : Forwarder MemorySink) (before : List Mention) (m : Mention) : Prop :=
  ¬ f.Holds (addedId m.path) ∧ m.path ∉ before.map (·.path)

instance (f : Forwarder MemorySink) (before : List Mention) (m : Mention) : Decidable (f.IsNews before m) :=
  inferInstanceAs (Decidable (_ ∧ _))

/-- Those of some mentions that are news after the ones before them, in order. -/
def news (f : Forwarder MemorySink) (ms : List Mention) : List Mention :=
  (ms.zipIdx.filter fun p => f.IsNews (ms.take p.2) p.1).map Prod.fst

structure Announces (tenantId : String) (feed : CanonicalPath) (m : Mention) (e : Event) : Prop where
  tenantId : e.tenantId = tenantId
  id : e.id = addedId m.path
  text : e.text = "Added: " ++ m.typeId
  resourceId : e.context.get? "resource_id" = some m.resource.id
  feedId : e.context.get? "feed_id" = feed.feedId?

theorem news_concat (f : Forwarder MemorySink) (ms : List Mention) (m : Mention) :
    f.news (ms ++ [m]) = f.news ms ++ if f.IsNews ms m then [m] else [] := by
  have hfront : ∀ p ∈ ms.zipIdx, (ms ++ [m]).take p.2 = ms.take p.2 := fun p hp =>
    List.take_append_of_le_length (Nat.le_of_lt (List.snd_lt_of_mem_zipIdx hp))
  have hback : (ms ++ [m]).take ms.length = ms := List.take_left
  rw [news, news, List.zipIdx_append, List.filter_append, List.map_append, Nat.zero_add, List.zipIdx_singleton]
  congr 1
  · refine congrArg _ (List.filter_congr fun p hp => ?_)
    rw [hfront p hp]
  · by_cases hnews : f.IsNews ms m
    · rw [if_pos hnews, List.filter_cons_of_pos (by rw [hback]; exact decide_eq_true hnews)]
      rfl
    · rw [if_neg hnews, List.filter_cons_of_neg (by rw [hback, decide_eq_true_eq]; exact hnews)]
      rfl

/-! ### What an entry leads to -/

section Entries

variable {doc : Document} {base feed : CanonicalPath} {typeId relative : String} {m : Mention}
  {entries : List (String × String)}

theorem mention?_eq_some_iff :
    mention? doc base (typeId, relative) = some m ↔
      m.typeId = typeId ∧ doc.getOfKind? .resource relative = some m.resource ∧
        base.join relative = .ok m.path := by
  constructor
  · intro h
    obtain ⟨resource, hresource, h⟩ := Option.bind_eq_some_iff.1 h
    obtain ⟨path, hpath, h⟩ := Option.bind_eq_some_iff.1 h
    cases h
    cases hjoin : base.join relative with
    | error e =>
      rw [hjoin] at hpath
      cases hpath
    | ok whole =>
      rw [hjoin] at hpath
      cases hpath
      exact ⟨rfl, hresource, rfl⟩
  · rintro ⟨rfl, hresource, hjoin⟩
    rw [mention?, hresource, hjoin]
    rfl

theorem mention?_of_getOfKind? {resource : Entity} (h : doc.getOfKind? .resource relative = some resource)
    (base : CanonicalPath) (typeId : String) :
    ∃ path, base.join relative = .ok path ∧
      mention? doc base (typeId, relative) = some ⟨typeId, resource, path⟩ := by
  obtain ⟨trail, hjoin, -⟩ := doc.exists_join h base
  exact ⟨_, hjoin, mention?_eq_some_iff.2 ⟨rfl, h, hjoin⟩⟩

/-- The path of a mention goes past the entities above the resource, the root among them if it is a resource. -/
theorem exists_path_eq (h : mention? doc (documentPath feed doc) (typeId, relative) = some m) :
    ∃ above, m.path = feed.descend (above ++ [m.resource]) := by
  obtain ⟨-, hresource, hpath⟩ := mention?_eq_some_iff.1 h
  obtain ⟨trail, hjoin, hlast⟩ := doc.exists_join hresource (documentPath feed doc)
  rw [Except.ok.inj (hpath.symm.trans hjoin), documentPath]
  split
  · obtain ⟨above, habove⟩ := List.getLast?_eq_some_iff.1 hlast
    rw [descend_child, habove]
    exact ⟨above, rfl⟩
  · next hroot =>
    cases trail with
    | nil =>
      obtain heq : doc.root = m.resource := Option.some.inj hlast
      rw [heq, doc.kind_of_getOfKind? hresource] at hroot
      exact absurd rfl hroot
    | cons first more =>
      obtain ⟨above, habove⟩ := List.getLast?_eq_some_iff.1 (List.getLast?_cons_cons.symm.trans hlast)
      rw [habove]
      exact ⟨above, rfl⟩

variable {now : Int64} {times : Nat → Int64} {f g : Forwarder MemorySink} {new : List Event} {ms : List Mention}

def addedEvent (now : Int64) (tenantId : String) (m : Mention) : Event :=
  (serverDraft m.path (some (addedId m.path)) ("Added: " ++ m.typeId)).toEvent tenantId (addedId m.path) now

def gain (f : Forwarder MemorySink) (new : List Event) : Forwarder MemorySink :=
  { f with sink := f.sink.add new }

theorem announces_addedEvent (now : Int64) (tenantId : String)
    (h : mention? doc (documentPath feed doc) (typeId, relative) = some m) :
    Announces tenantId feed m (addedEvent now tenantId m) := by
  obtain ⟨above, hpath⟩ := exists_path_eq h
  have hkind := doc.kind_of_getOfKind? (mention?_eq_some_iff.1 h).2.1
  constructor
  case tenantId => rfl
  case id => rfl
  case text => rfl
  case resourceId =>
    refine (EventDraft.resourceId_context _).trans ?_
    rw [serverDraft, hpath, resourceId?_descend feed above hkind]
  case feedId =>
    refine (EventDraft.feedId_context _).trans ?_
    rw [serverDraft, hpath, feedId?_descend]

section Entry

variable [EventDigest]

theorem perform_announceEntry_of_none (h : mention? doc base (typeId, relative) = none) (f : Forwarder MemorySink) :
    perform (announceEntry now doc base typeId relative) f = (.ok false, f) := by
  have hnone : (doc.getOfKind? .resource relative).isNone = true := by
    rw [Option.isNone_iff_eq_none, Option.eq_none_iff_forall_ne_some]
    intro resource hresource
    obtain ⟨path, -, hsome⟩ := mention?_of_getOfKind? hresource base typeId
    cases h.symm.trans hsome
  rw [announceEntry, if_pos hnone]
  rfl

theorem perform_announceEntry_of_some (h : mention? doc base (typeId, relative) = some m) (f : Forwarder MemorySink) :
    perform (announceEntry now doc base typeId relative) f =
      perform (announceAdded now m.typeId m.path.render) f := by
  obtain ⟨rfl, hresource, hjoin⟩ := mention?_eq_some_iff.1 h
  rw [announceEntry, hresource, hjoin]
  rfl

theorem perform_announceEntry (now : Int64) (hserver : isServerType typeId = true)
    (h : mention? doc base (typeId, relative) = some m) (hpath : m.path.Writable) (f : Forwarder MemorySink) :
    perform (announceEntry now doc base typeId relative) f =
      if f.Holds (addedId m.path) then (.ok false, f) else (.ok true, f.gain [addedEvent now f.tenantId m]) := by
  obtain ⟨rfl, -, -⟩ := mention?_eq_some_iff.1 h
  have hid : f.idFor now (serverDraft m.path (some (addedId m.path)) ("Added: " ++ m.typeId)) = addedId m.path := by
    rw [idFor, givenId?_addedId]
    rfl
  have hsettled : f.settled (serverDraft m.path (some (addedId m.path)) ("Added: " ++ m.typeId)) = f := by
    rw [settled, givenId?_addedId]
    rfl
  rw [perform_announceEntry_of_some h, announceAdded, perform_parsePath_of_ok hpath.parse_render, if_pos hserver,
    perform_send, sent, hid, hsettled]
  simp only [true_and]
  rfl

/-- An entry of a document that does not fail has a path that can be written. -/
theorem writable_of_perform_announceEntry (hfeed : feed.Writable)
    (h : mention? doc (documentPath feed doc) (typeId, relative) = some m) {isNew : Bool}
    (hperform : perform (announceEntry now doc (documentPath feed doc) typeId relative) f = (.ok isNew, g)) :
    m.path.Writable := by
  obtain ⟨above, hpath⟩ := exists_path_eq h
  rw [perform_announceEntry_of_some h, announceAdded] at hperform
  cases hparse : parse m.path.render with
  | error e =>
    rw [perform_parsePath_of_error hparse] at hperform
    cases hperform
  | ok whole =>
    rw [hpath] at hparse ⊢
    exact writable_descend_of_parse hfeed hparse

end Entry

/-! ### What a run over the entries leads to -/

theorem holds_gain_iff {id : String} :
    (f.gain new).Holds id ↔ f.Holds id ∨ ∃ e ∈ new, e.tenantId = f.tenantId ∧ e.id = id := by
  simp only [holds_iff, events, gain, MemorySink.add, List.mem_append, or_and_right, exists_or]

/-- A forwarder before and after it got some mentions, and what it sent about them. -/
structure Announced (feed : CanonicalPath) (ms : List Mention) (f g : Forwarder MemorySink) (new : List Event) :
    Prop where
  gained : g = f.gain new
  announces : List.Forall₂ (Announces f.tenantId feed) (f.news ms) new
  writable : ∀ m ∈ ms, m.path.Writable
  holds : ∀ path : CanonicalPath, path.Writable →
    (g.Holds (addedId path) ↔ f.Holds (addedId path) ∨ path ∈ ms.map (·.path))

theorem gain_gain (f : Forwarder MemorySink) (new more : List Event) :
    (f.gain new).gain more = f.gain (new ++ more) := by
  rw [gain, gain, gain, MemorySink.add, MemorySink.add, MemorySink.add, List.append_assoc]

namespace Announced

theorem nil (feed : CanonicalPath) (f : Forwarder MemorySink) : Announced feed [] f f [] where
  gained := by rw [gain, MemorySink.add, List.append_nil]
  announces := .nil
  writable := List.forall_mem_nil _
  holds path _ := by rw [List.map_nil, or_iff_left (List.not_mem_nil)]

theorem tenantId (h : Announced feed ms f g new) : g.tenantId = f.tenantId := by
  rw [h.gained]
  rfl

theorem isNews_iff (h : Announced feed ms f g new) (hm : m.path.Writable) :
    f.IsNews ms m ↔ ¬ g.Holds (addedId m.path) := by
  rw [h.holds _ hm, not_or]
  rfl

/-- A mention that is no news changes nothing. -/
theorem concat_old (h : Announced feed ms f g new) (hm : m.path.Writable) (hold : g.Holds (addedId m.path)) :
    Announced feed (ms ++ [m]) f g new where
  gained := h.gained
  announces := by
    rw [news_concat, if_neg (mt (h.isNews_iff hm).1 (not_not_intro hold)), List.append_nil]
    exact h.announces
  writable := List.forall_mem_append.2 ⟨h.writable, List.forall_mem_singleton.2 hm⟩
  holds path hpath := by
    rw [h.holds path hpath, List.map_append, List.mem_append, List.map_singleton, List.mem_singleton, ← or_assoc]
    refine (or_iff_left_of_imp ?_).symm
    rintro rfl
    exact (h.holds _ hm).1 hold

theorem concat_new (h : Announced feed ms f g new) (hm : m.path.Writable) (hnew : ¬ g.Holds (addedId m.path))
    {e : Event} (he : Announces f.tenantId feed m e) : Announced feed (ms ++ [m]) f (g.gain [e]) (new ++ [e]) where
  gained := by rw [h.gained, gain_gain]
  announces := by
    rw [news_concat, if_pos ((h.isNews_iff hm).2 hnew)]
    exact List.rel_append h.announces (.cons he .nil)
  writable := List.forall_mem_append.2 ⟨h.writable, List.forall_mem_singleton.2 hm⟩
  holds path hpath := by
    rw [holds_gain_iff, h.holds path hpath, List.map_append, List.mem_append, List.map_singleton, List.mem_singleton,
      or_assoc]
    refine or_congr_right (or_congr_right ?_)
    simp only [List.mem_singleton, exists_eq_left, he.tenantId, h.tenantId, true_and, he.id, addedId_inj hm hpath]
    exact eq_comm

end Announced

section Run

variable [EventDigest] {k i : Nat}

theorem Announced.step {start : Forwarder MemorySink} (h : Announced feed ms start f new) (hfeed : feed.Writable)
    (hserver : isServerType typeId = true)
    (hperform : perform (countEntry times doc (documentPath feed doc) new.length ((typeId, relative), i)) f =
      (.ok k, g)) :
    ∃ more, more.length = k ∧
      Announced feed (ms ++ [(typeId, relative)].filterMap (mention? doc (documentPath feed doc))) start g more := by
  cases hmention : mention? doc (documentPath feed doc) (typeId, relative) with
  | none =>
    rw [perform_countEntry_of_ok (perform_announceEntry_of_none hmention f)] at hperform
    cases hperform
    rw [List.filterMap_cons_none hmention, List.filterMap_nil, List.append_nil]
    exact ⟨new, rfl, h⟩
  | some m =>
    have hpath : m.path.Writable := by
      obtain ⟨isNew, told, hentry, -⟩ := perform_bind_eq_ok hperform
      exact writable_of_perform_announceEntry hfeed hmention hentry
    have hentry := perform_announceEntry (times i) hserver hmention hpath f
    rw [List.filterMap_cons_some hmention, List.filterMap_nil]
    by_cases hold : f.Holds (addedId m.path)
    · rw [if_pos hold] at hentry
      rw [perform_countEntry_of_ok hentry] at hperform
      cases hperform
      exact ⟨new, rfl, h.concat_old hpath hold⟩
    · rw [if_neg hold, h.tenantId] at hentry
      rw [perform_countEntry_of_ok hentry] at hperform
      cases hperform
      exact ⟨_, List.length_append, h.concat_new hpath hold (announces_addedEvent _ _ hmention)⟩

theorem announced_of_perform (hfeed : feed.Writable) (hservers : ∀ e ∈ entries, isServerType e.1 = true)
    (h : perform (entries.zipIdx.foldlM (countEntry times doc (documentPath feed doc)) 0) f = (.ok k, g)) :
    ∃ new, new.length = k ∧ Announced feed (entries.filterMap (mention? doc (documentPath feed doc))) f g new := by
  -- From the back, since an entry is news or not after all that the entries before it have sent.
  induction entries using List.reverseRecOn generalizing k g with
  | nil =>
    cases h
    exact ⟨[], rfl, .nil feed f⟩
  | append_singleton entries entry ih =>
    rw [List.forall_mem_append, List.forall_mem_singleton] at hservers
    rw [List.zipIdx_append, List.foldlM_append] at h
    obtain ⟨n, middle, hbefore, hentry⟩ := perform_bind_eq_ok h
    obtain ⟨new, rfl, hannounced⟩ := ih hservers.1 hbefore
    simp only [List.zipIdx_singleton, List.foldlM_cons, List.foldlM_nil, bind_pure] at hentry
    rw [List.filterMap_append]
    exact hannounced.step hfeed hservers.2 hentry

/-- Nothing happens when nothing is new. -/
theorem perform_foldlM_countEntry_of_holds (hservers : ∀ e ∈ entries, isServerType e.1 = true)
    (hold : ∀ m ∈ entries.filterMap (mention? doc base), m.path.Writable ∧ f.Holds (addedId m.path)) (sent : Nat) :
    perform ((entries.zipIdx i).foldlM (countEntry times doc base) sent) f = (.ok sent, f) := by
  induction entries generalizing i with
  | nil => rfl
  | cons entry rest ih =>
    obtain ⟨typeId, relative⟩ := entry
    rw [List.forall_mem_cons] at hservers
    have hentry : perform (announceEntry (times i) doc base typeId relative) f = (.ok false, f) := by
      cases hmention : mention? doc base (typeId, relative) with
      | none => exact perform_announceEntry_of_none hmention f
      | some m =>
        obtain ⟨hpath, hheld⟩ := hold m (List.mem_filterMap.2 ⟨_, List.mem_cons_self, hmention⟩)
        rw [perform_announceEntry (times i) hservers.1 hmention hpath, if_pos hheld]
    rw [List.zipIdx_cons, List.foldlM_cons, perform_bind_of_ok (perform_countEntry_of_ok hentry)]
    apply ih hservers.2
    intro m hm
    obtain ⟨e, he, hmention⟩ := List.mem_filterMap.1 hm
    exact hold m (List.mem_filterMap.2 ⟨e, List.mem_cons_of_mem _ he, hmention⟩)

/-- A document that is told without a failure is announced server by server: each entry of the index that leads to a
resource names it together with its path, and an event tells of it if it is news, the events in the order of the
index. Nothing more is sent, and nothing at all when the document is told again. -/
theorem announceServers_news {feedPath : String}
    (h : perform (announceServers times doc feedPath) f = (.ok k, g)) :
    ∃ feed new, parse feedPath = .ok feed ∧
      (∀ typeId relative resource, doc.getOfKind? .resource relative = some resource →
        ∃ path, (documentPath feed doc).join relative = .ok path ∧
          mention? doc (documentPath feed doc) (typeId, relative) = some ⟨typeId, resource, path⟩) ∧
      g.events = f.events ++ new ∧ new.length = k ∧
      List.Forall₂ (Announces f.tenantId feed) (f.news (mentions doc (documentPath feed doc))) new ∧
      ∀ later, perform (announceServers later doc feedPath) g = (.ok 0, g) := by
  have hservers : ∀ e ∈ serverEntries doc, isServerType e.1 = true := fun e he => isServerType_of_mem_serverEntries he
  cases hfeed : parse feedPath with
  | error e =>
    rw [announceServers, perform_parsePath_of_error hfeed] at h
    cases h
  | ok feed =>
    rw [announceServers, perform_parsePath_of_ok hfeed] at h
    obtain ⟨new, hlength, hannounced⟩ := announced_of_perform (writable_of_parse hfeed) hservers h
    refine ⟨feed, new, rfl, ?_, ?_, hlength, hannounced.announces, ?_⟩
    · intro typeId relative resource hresource
      exact mention?_of_getOfKind? hresource _ typeId
    · rw [hannounced.gained]
      rfl
    · intro later
      rw [announceServers, perform_parsePath_of_ok hfeed]
      apply perform_foldlM_countEntry_of_holds hservers
      intro m hm
      have hpath := hannounced.writable m hm
      exact ⟨hpath, (hannounced.holds _ hpath).2 (.inr (List.mem_map_of_mem hm))⟩

end Run

end Entries

/-- A server with others below it. The index names two of them twice, and leads to a metric and to nothing as well. -/
def estate : Document where
  tree := .node (.resource "s" "" none .empty)
    [.node (.resource "a" "" none .empty) [], .node (.resource "b/c" "" none .empty) [],
      .node (.resource "old" "" none .empty) [], .node (.metric "x" "" "mt;x" .empty) []]
  resourceTypes := .ofList
    [("Domain Host", ["r;a", "r;none", "m;x"]), ("Folder", ["r;a", "r;b\\/c"]),
      ("Host Controller", ["r;\\a", "r;b\\/c", "", "r;old"])]
  metricTypes := .empty

/-- One of the servers has been announced before, another one to somebody else. -/
def keeper : Forwarder MemorySink :=
  .ofSink ⟨[⟨standardTenant, "RESOURCE_ADDED_/t;t/f;f/r;s/r;old", 1, "", "", .empty, .empty⟩,
    ⟨"other", "RESOURCE_ADDED_/t;t/f;f/r;s/r;a", 1, "", "", .empty, .empty⟩]⟩ standardTenant

theorem announceServers_news_estate :
    ∃ g new, perform (announceServers (fun _ => 2) estate "/t;t/f;f") keeper = (.ok 3, g) ∧
      g.events = keeper.events ++ new ∧
      new.map (·.id) = ["RESOURCE_ADDED_/t;t/f;f/r;s/r;a", "RESOURCE_ADDED_/t;t/f;f/r;s/r;b\\/c",
        "RESOURCE_ADDED_/t;t/f;f/r;s"] ∧
      new.map (·.text) = ["Added: Domain Host", "Added: Host Controller", "Added: Host Controller"] ∧
      new.map (·.context.get? "resource_id") = [some "a", some "b/c", some "s"] ∧
      new.map (·.context.get? "feed_id") = [some "f", some "f", some "f"] ∧
      ∀ later, perform (announceServers later estate "/t;t/f;f") g = (.ok 0, g) := by
  have hcount : (perform (announceServers (fun _ => 2) estate "/t;t/f;f") keeper).1 = .ok 3 := by decide +kernel
  obtain ⟨g, hperform⟩ := exists_perform_eq hcount
  obtain ⟨feed, new, hfeed, -, hevents, -, hannounces, hagain⟩ := announceServers_news hperform
  have hparse : parse "/t;t/f;f" = .ok ⟨[⟨"t", "t"⟩, ⟨"f", "f"⟩]⟩ := by rfl
  obtain rfl := Except.ok.inj (hparse.symm.trans hfeed)
  have hnews : keeper.news (mentions estate (documentPath ⟨[⟨"t", "t"⟩, ⟨"f", "f"⟩]⟩ estate)) =
      [⟨"Domain Host", .resource "a" "" none .empty, ⟨[⟨"t", "t"⟩, ⟨"f", "f"⟩, ⟨"r", "s"⟩, ⟨"r", "a"⟩]⟩⟩,
        ⟨"Host Controller", .resource "b/c" "" none .empty, ⟨[⟨"t", "t"⟩, ⟨"f", "f"⟩, ⟨"r", "s"⟩, ⟨"r", "b/c"⟩]⟩⟩,
        ⟨"Host Controller", .resource "s" "" none .empty, ⟨[⟨"t", "t"⟩, ⟨"f", "f"⟩, ⟨"r", "s"⟩]⟩⟩] := by
    decide +kernel
  rw [hnews] at hannounces
  obtain _ | ⟨ha, _ | ⟨hb, _ | ⟨hs, ⟨⟩⟩⟩⟩ := hannounces
  refine ⟨_, _, hperform, hevents, ?_, ?_, ?_, ?_, hagain⟩
  · rw [List.map_cons, List.map_cons, List.map_singleton, ha.id, hb.id, hs.id]
    decide +kernel
  · rw [List.map_cons, List.map_cons, List.map_singleton, ha.text, hb.text, hs.text]
    decide +kernel
  · rw [List.map_cons, List.map_cons, List.map_singleton, ha.resourceId, hb.resourceId, hs.resourceId]
    rfl
  · rw [List.map_cons, List.map_cons, List.map_singleton, ha.feedId, hb.feedId, hs.feedId]
    rfl

end Forwarder

end Inventory
