import Inventory.Proofs.Event.Sending
import Inventory.Proofs.Path.Spelling
import Mathlib.Data.List.Induction

/-! # Resources are announced once

Notices of three kinds come to one forwarder: of a resource, of an availability and of a whole document. Whatever
they say and in whatever order they come, a path is announced as that of a new resource at most once
(`announced_once`): the id of the event is the path as it is rendered, which tells what was parsed, and made-up ids
are no such ids.
-/

namespace Inventory

open CanonicalPath

theorem isAddedId_addedId (path : CanonicalPath) : isAddedId (addedId path) = true := by
  rw [isAddedId, addedId, String.toList_append, List.isPrefixOf_iff_prefix]
  exact List.prefix_append _ _

theorem addedId_inj {path whole : CanonicalPath} (hpath : path.Writable) (hwhole : whole.Writable) :
    addedId path = addedId whole ↔ path = whole := by
  constructor
  · intro h
    have htext : path.render = whole.render := String.append_right_inj _ |>.1 h
    have hread := hpath.parse_render
    rw [htext, hwhole.parse_render] at hread
    exact (Except.ok.inj hread).symm
  · rintro rfl
    rfl

theorem givenId?_addedId (path : CanonicalPath) (message : String) :
    (serverDraft path (some (addedId path)) message).givenId? = some (addedId path) := by
  have hne : addedId path ≠ "" := by
    intro h
    have hadded := isAddedId_addedId path
    rw [h] at hadded
    exact absurd hadded (by decide)
  rw [EventDraft.givenId?, serverDraft, Option.filter_eq_some_iff]
  exact ⟨rfl, bne_iff_ne.2 hne⟩

theorem isAddedId_madeUpId [EventDigest] (draft : EventDraft) (tenantId : String) (now : Int64)
    (sequence : UInt64) : isAddedId (draft.madeUpId tenantId now sequence) = false := by
  rw [Bool.eq_false_iff, isAddedId, Ne, List.isPrefixOf_iff_prefix]
  intro hprefix
  have hmem : 'R' ∈ (draft.madeUpId tenantId now sequence).toList := hprefix.subset (by decide)
  exact absurd (EventDraft.mem_hexDigits_of_mem_madeUpId hmem) (by decide)

namespace Forwarder

section Parsing

variable {σ α : Type} {next : CanonicalPath → Action σ α} {text : String}

theorem perform_parsePath_of_ok {path : CanonicalPath} (h : parse text = .ok path) (f : Forwarder σ) :
    perform (parsePath text >>= next) f = perform (next path) f := by
  apply perform_bind_of_ok
  rw [parsePath, h]
  rfl

theorem perform_parsePath_of_error {e : Error} (h : parse text = .error e) (f : Forwarder σ) :
    perform (parsePath text >>= next) f = (.error e, f) := by
  apply perform_bind_of_error
  rw [parsePath, h]
  rfl

end Parsing

/-! ### What a call does -/

theorem isServerType_of_mem_serverEntries {doc : Document} {typeId relative : String}
    (h : (typeId, relative) ∈ serverEntries doc) :
    isServerType typeId = true := by
  obtain ⟨⟨typeId', paths⟩, hentry, hpath⟩ := List.mem_flatMap.1 h
  obtain ⟨relative', -, heq⟩ := List.mem_map.1 hpath
  cases heq
  exact (List.mem_filter.1 hentry).2

/-- A call only adds events, and counts them right if it succeeds. -/
def Counts {α : Type} (action : Action MemorySink α) (count : α → Nat) : Prop :=
  ∀ f, ∃ n, f.Extends (perform action f).2 n ∧ ∀ a, (perform action f).1 = .ok a → count a = n

variable {α : Type} {count : α → Nat} {text : String}

theorem counts_throw (e : Error) : Counts (throw e) count :=
  fun f => ⟨0, .refl f, fun _ => nofun⟩

theorem counts_pure {a : α} (h : count a = 0) : Counts (pure a) count := by
  intro f
  refine ⟨0, .refl f, ?_⟩
  rintro _ ⟨⟩
  exact h

theorem counts_of_perform {action : Action MemorySink α}
    (h : ∀ f, ∃ a g, perform action f = (.ok a, g) ∧ f.Extends g (count a)) : Counts action count := by
  intro f
  obtain ⟨a, g, hperform, hextends⟩ := h f
  rw [hperform]
  refine ⟨count a, hextends, ?_⟩
  rintro _ ⟨⟩
  rfl

theorem Counts.map {action : Action MemorySink α} (h : Counts action count) : Counts (count <$> action) id := by
  intro f
  obtain ⟨n, hextends, hcount⟩ := h f
  cases hperform : perform action f with
  | mk result g =>
    rw [hperform] at hextends hcount
    cases result with
    | error e =>
      rw [perform_map_of_error hperform]
      exact ⟨n, hextends, fun _ => nofun⟩
    | ok a =>
      rw [perform_map_of_ok hperform]
      refine ⟨n, hextends, ?_⟩
      rintro _ ⟨⟩
      exact hcount a rfl

theorem counts_parsePath {next : CanonicalPath → Action MemorySink α}
    (h : ∀ path, parse text = .ok path → Counts (next path) count) : Counts (parsePath text >>= next) count := by
  intro f
  cases hpath : parse text with
  | error e =>
    rw [perform_parsePath_of_error hpath]
    exact counts_throw e f
  | ok path =>
    rw [perform_parsePath_of_ok hpath]
    exact h path hpath f

variable [EventDigest] {now : Int64} {times : Nat → Int64} {doc : Document} {base feed path whole : CanonicalPath}
  {typeId kind availability feedPath relative : String} {f g : Forwarder MemorySink} {n : Nat}

theorem exists_perform_announceAdded (now : Int64) (hserver : isServerType typeId = true)
    (hpath : parse text = .ok path) (f : Forwarder MemorySink) :
    ∃ isNew g, perform (announceAdded now typeId text) f = (.ok isNew, g) ∧ f.Extends g isNew.toNat ∧
      g.Holds (addedId path) := by
  rw [announceAdded, perform_parsePath_of_ok hpath, if_pos hserver]
  obtain ⟨isNew, g, hperform, hextends, hholds, -⟩ :=
    exists_perform_send now (serverDraft path (some (addedId path)) ("Added: " ++ typeId)) true f fun _ => rfl
  rw [idFor, givenId?_addedId] at hholds
  exact ⟨isNew, g, hperform, hextends, hholds⟩

theorem counts_announceAdded : Counts (announceAdded now typeId text) Bool.toNat := by
  apply counts_parsePath
  intro path hpath
  split
  · next hserver =>
    apply counts_of_perform
    intro f
    obtain ⟨isNew, g, hperform, hextends, -⟩ := exists_perform_announceAdded now hserver hpath f
    rw [announceAdded, perform_parsePath_of_ok hpath, if_pos hserver] at hperform
    exact ⟨isNew, g, hperform, hextends⟩
  · exact counts_pure rfl

theorem exists_perform_announceAvailability (now : Int64) (availability : String) (hpath : parse text = .ok path)
    (f : Forwarder MemorySink) :
    ∃ g, perform (announceAvailability now text serverAvailability availability) f = (.ok true, g) ∧
      f.Extends g 1 := by
  rw [announceAvailability, perform_parsePath_of_ok hpath, if_pos rfl]
  have hmadeUp : ∀ message, isAddedId (f.idFor now (serverDraft path none message)) = false :=
    fun message => isAddedId_madeUpId _ _ _ _
  obtain ⟨isNew, g, hperform, hextends, -, htrue⟩ := exists_perform_send now
    (serverDraft path none ("Avail change [" ++ availability ++ "]: " ++ serverAvailability)) false f fun hadded => by
      rw [hmadeUp] at hadded
      cases hadded
  obtain rfl := htrue rfl
  exact ⟨g, hperform, hextends⟩

theorem counts_announceAvailability : Counts (announceAvailability now text kind availability) Bool.toNat := by
  apply counts_parsePath
  intro path hpath
  split
  · next hkind =>
    subst hkind
    apply counts_of_perform
    intro f
    obtain ⟨g, hperform, hextends⟩ := exists_perform_announceAvailability now availability hpath f
    rw [announceAvailability, perform_parsePath_of_ok hpath, if_pos rfl] at hperform
    exact ⟨true, g, hperform, hextends⟩
  · exact counts_pure rfl

theorem counts_announceEntry (now : Int64) (doc : Document) (base : CanonicalPath) (typeId relative : String) :
    Counts (announceEntry now doc base typeId relative) Bool.toNat := by
  rw [announceEntry]
  split
  · exact counts_pure rfl
  · cases base.join relative with
    | error e => exact counts_throw e
    | ok whole => exact counts_announceAdded

/-! ### The entries of a document -/

theorem perform_countEntry_of_ok {isNew : Bool} {sent i : Nat}
    (h : perform (announceEntry (times i) doc base typeId relative) f = (.ok isNew, g)) :
    perform (countEntry times doc base sent ((typeId, relative), i)) f = (.ok (sent + isNew.toNat), g) := by
  rw [countEntry, perform_bind_of_ok h]
  cases isNew <;> rfl

theorem perform_countEntry_of_error {e : Error} {sent i : Nat}
    (h : perform (announceEntry (times i) doc base typeId relative) f = (.error e, g)) :
    perform (countEntry times doc base sent ((typeId, relative), i)) f = (.error e, g) :=
  perform_bind_of_error h

theorem counts_foldlM_countEntry (times : Nat → Int64) (doc : Document) (base : CanonicalPath)
    (entries : List ((String × String) × Nat)) (sent : Nat) (f : Forwarder MemorySink) :
    ∃ n, f.Extends (perform (entries.foldlM (countEntry times doc base) sent) f).2 n ∧
      ∀ total, (perform (entries.foldlM (countEntry times doc base) sent) f).1 = .ok total → total = sent + n := by
  induction entries generalizing sent f with
  | nil =>
    refine ⟨0, .refl f, ?_⟩
    rintro _ ⟨⟩
    rfl
  | cons entry rest ih =>
    obtain ⟨⟨typeId, relative⟩, i⟩ := entry
    obtain ⟨m, hfirst, hcount⟩ := counts_announceEntry (times i) doc base typeId relative f
    rw [List.foldlM_cons]
    cases hentry : perform (announceEntry (times i) doc base typeId relative) f with
    | mk result g =>
      rw [hentry] at hfirst hcount
      cases result with
      | error e =>
        rw [perform_bind_of_error (perform_countEntry_of_error hentry)]
        exact ⟨m, hfirst, fun _ => nofun⟩
      | ok isNew =>
        rw [perform_bind_of_ok (perform_countEntry_of_ok hentry)]
        obtain ⟨n, hrest, htotal⟩ := ih (sent + isNew.toNat) g
        refine ⟨m + n, hfirst.trans hrest, fun total h => ?_⟩
        rw [htotal total h, hcount isNew rfl, Nat.add_assoc]

theorem counts_announceServers : Counts (announceServers times doc feedPath) id := by
  apply counts_parsePath
  intro feed _ f
  obtain ⟨n, hextends, htotal⟩ :=
    counts_foldlM_countEntry times doc (documentPath feed doc) (serverEntries doc).zipIdx 0 f
  refine ⟨n, hextends, fun total h => ?_⟩
  rw [htotal total h, Nat.zero_add, id]

/-- The entries after one may fail, but the resource at this one has been announced by then. -/
theorem holds_announceServers {before later : List (String × String)} (hfeed : parse feedPath = .ok feed)
    (hentries : serverEntries doc = before ++ (typeId, relative) :: later)
    (hbefore : perform (before.zipIdx.foldlM (countEntry times doc (documentPath feed doc)) 0) f = (.ok n, g))
    (hresource : (doc.getOfKind? .resource relative).isSome = true)
    (hjoin : (documentPath feed doc).join relative = .ok whole) (hparse : parse whole.render = .ok path) :
    (perform (announceServers times doc feedPath) f).2.Holds (addedId path) := by
  have hserver : isServerType typeId = true := by
    apply isServerType_of_mem_serverEntries
    rw [hentries]
    exact List.mem_append_right _ List.mem_cons_self
  obtain ⟨isNew, told, hadded, -, hholds⟩ := exists_perform_announceAdded (times before.length) hserver hparse g
  have hentry : perform (announceEntry (times before.length) doc (documentPath feed doc) typeId relative) g =
      (.ok isNew, told) := by
    rw [announceEntry, if_neg (by rw [Option.isNone_iff_eq_none]; exact Option.isSome_iff_ne_none.1 hresource), hjoin]
    exact hadded
  rw [announceServers, perform_parsePath_of_ok hfeed, hentries, List.zipIdx_append, List.foldlM_append,
    perform_bind_of_ok hbefore, List.zipIdx_cons, List.foldlM_cons, Nat.zero_add,
    perform_bind_of_ok (perform_countEntry_of_ok hentry)]
  obtain ⟨m, hextends, -⟩ := counts_foldlM_countEntry times doc (documentPath feed doc)
    (later.zipIdx (before.length + 1)) (n + isNew.toNat) told
  exact hholds.extends hextends

end Forwarder

/-! ### Whole runs -/

inductive Notice
  | added (now : Int64) (typeId path : String)
  | availability (now : Int64) (path kind value : String)
  | snapshot (times : Nat → Int64) (doc : Document) (feedPath : String)

namespace Notice

open Forwarder

section Runs

variable [EventDigest] {notice : Notice} {notices more : List Notice} {raw other : String} {path : CanonicalPath}
  {f : Forwarder MemorySink}

def action : Notice → Action MemorySink Nat
  | .added now typeId path => Bool.toNat <$> announceAdded now typeId path
  | .availability now path kind value => Bool.toNat <$> announceAvailability now path kind value
  | .snapshot times doc feedPath => announceServers times doc feedPath

/-- The forwarder that has got some notices, one after the other and whether it failed on them or not. -/
def after (notices : List Notice) : Forwarder MemorySink :=
  notices.foldl (fun f notice => (perform notice.action f).2) (ofSink .empty standardTenant)

/-- With a notice a path was reported, in this spelling, as that of a server. The servers of a document are reported up
to the first one that fails. -/
inductive Reports (f : Forwarder MemorySink) : Notice → String → Prop
  | added {now : Int64} {typeId raw : String} : isServerType typeId = true → Reports f (.added now typeId raw) raw
  | entry {times : Nat → Int64} {doc : Document} {feedPath typeId relative : String} {feed whole : CanonicalPath}
      {before later : List (String × String)} {n : Nat} :
      parse feedPath = .ok feed → serverEntries doc = before ++ (typeId, relative) :: later →
      (perform (before.zipIdx.foldlM (countEntry times doc (documentPath feed doc)) 0) f).1 = .ok n →
      (doc.getOfKind? .resource relative).isSome = true → (documentPath feed doc).join relative = .ok whole →
      Reports f (.snapshot times doc feedPath) whole.render

def Reported (notices : List Notice) (raw : String) : Prop :=
  ∃ before notice later, notices = before ++ notice :: later ∧ Reports (after before) notice raw

theorem after_append (notices more : List Notice) :
    after (notices ++ more) = more.foldl (fun f notice => (perform notice.action f).2) (after notices) :=
  List.foldl_append

theorem after_concat (notices : List Notice) (next : Notice) :
    after (notices ++ [next]) = (perform next.action (after notices)).2 :=
  after_append notices [next]

theorem counts_action (notice : Notice) : Counts notice.action id := by
  cases notice with
  | added now typeId path => exact counts_announceAdded.map
  | availability now path kind value => exact counts_announceAvailability.map
  | snapshot times doc feedPath => exact counts_announceServers

theorem exists_extends_after (notices more : List Notice) : ∃ n, (after notices).Extends (after (notices ++ more)) n := by
  induction more using List.reverseRecOn with
  | nil =>
    rw [List.append_nil]
    exact ⟨0, .refl _⟩
  | append_singleton more next ih =>
    obtain ⟨m, hmore⟩ := ih
    obtain ⟨n, hnext, -⟩ := counts_action next (after (notices ++ more))
    rw [← List.append_assoc, after_concat]
    exact ⟨m + n, hmore.trans hnext⟩

theorem sound_after (notices : List Notice) : (after notices).Sound := by
  obtain ⟨n, hextends⟩ := exists_extends_after [] notices
  exact hextends.sound ⟨List.forall_mem_nil _, List.nodup_nil⟩

theorem Reports.holds (h : Reports f notice raw) (hparse : parse raw = .ok path) :
    (perform notice.action f).2.Holds (addedId path) := by
  cases h with
  | added hserver =>
    obtain ⟨isNew, g, hperform, -, hholds⟩ := exists_perform_announceAdded _ hserver hparse f
    rw [action, perform_map_of_ok hperform]
    exact hholds
  | entry hfeed hentries hbefore hresource hjoin =>
    exact holds_announceServers hfeed hentries (Prod.ext hbefore rfl) hresource hjoin hparse

theorem Reported.holds (h : Reported notices raw) (hparse : parse raw = .ok path) :
    (after notices).Holds (addedId path) := by
  obtain ⟨before, notice, later, rfl, hreports⟩ := h
  obtain ⟨n, hextends⟩ := exists_extends_after (before ++ [notice]) later
  have hholds := hreports.holds hparse
  rw [← after_concat] at hholds
  rw [List.append_assoc, List.singleton_append] at hextends
  exact hholds.extends hextends

/-- However often paths are reported and however they are spelled, each of them has one event that tells of it. Nothing
that was sent is lost or changed later, a change of the availability of a server is told each time, and what
is reported to have been sent was sent. -/
theorem announced_once (notices : List Notice) :
    (after notices).addedIds.Nodup ∧
    (∀ raw other path whole, Reported notices raw → Reported notices other →
      parse raw = .ok path → parse other = .ok whole →
      ∃ i j, (∀ k : Nat, ((after notices).events.map (·.id))[k]? = some (addedId path) ↔ k = i) ∧
        (∀ k : Nat, ((after notices).events.map (·.id))[k]? = some (addedId whole) ↔ k = j) ∧
        (i = j ↔ path = whole)) ∧
    (∀ more, (after notices).events <+: (after (notices ++ more)).events) ∧
    (∀ now raw path value, parse raw = .ok path →
      let next := Notice.availability now raw serverAvailability value
      (perform next.action (after notices)).1 = .ok 1 ∧
        ∃ event, (after (notices ++ [next])).events = (after notices).events ++ [event]) ∧
    (∀ next n, (perform next.action (after notices)).1 = .ok n →
      ∃ new, (after (notices ++ [next])).events = (after notices).events ++ new ∧ new.length = n) := by
  have hsound := sound_after notices
  refine ⟨hsound.nodup, ?_, ?_, ?_, ?_⟩
  · intro raw other path whole hraw hother hpath hwhole
    obtain ⟨i, hi⟩ := hsound.exists_place (isAddedId_addedId path) (hraw.holds hpath)
    obtain ⟨j, hj⟩ := hsound.exists_place (isAddedId_addedId whole) (hother.holds hwhole)
    refine ⟨i, j, hi, hj, ?_⟩
    rw [← addedId_inj (writable_of_parse hpath) (writable_of_parse hwhole)]
    constructor
    · rintro rfl
      have hfirst := (hi i).2 rfl
      rw [(hj i).2 rfl] at hfirst
      exact (Option.some.inj hfirst).symm
    · intro heq
      have hfirst := (hi i).2 rfl
      rw [heq] at hfirst
      exact (hj i).1 hfirst
  · intro more
    obtain ⟨n, hextends⟩ := exists_extends_after notices more
    obtain ⟨new, hnew, -⟩ := hextends.grown
    exact ⟨new, hnew.symm⟩
  · intro now raw path value hparse next
    obtain ⟨g, hperform, hextends⟩ := exists_perform_announceAvailability now value hparse (after notices)
    obtain ⟨new, hnew, hlength⟩ := hextends.grown
    obtain ⟨event, rfl⟩ := List.length_eq_one_iff.1 hlength
    have hnext : perform next.action (after notices) = (.ok 1, g) := perform_map_of_ok hperform
    rw [after_concat, hnext]
    exact ⟨rfl, event, hnew⟩
  · intro next n hok
    obtain ⟨m, hextends, hcount⟩ := counts_action next (after notices)
    obtain rfl : n = m := hcount n hok
    rw [after_concat]
    exact hextends.grown

end Runs

def farm : Document :=
  .ofStructure (.node (.resource "feed" "" none .empty) [.node (.resource "a/b" "" (some "rt;WildFly Server") .empty) []])

/-- One server in two spellings and in a document, a path that is none, and the availability of the server twice. -/
def told : List Notice :=
  [.added 1 "WildFly Server" "/f;\\f/r;feed/r;\\a\\/b", .availability 2 "/f;f" "Server Availability" "DOWN",
    .added 3 "Host Controller" "f;f", .snapshot (fun _ => 4) farm "/f;f",
    .added 5 "Host Controller" "/f;f/r;feed/r;a\\/b", .availability 2 "/f;f" "Server Availability" "DOWN"]

theorem announced_once_told :
    Reported told "/f;\\f/r;feed/r;\\a\\/b" ∧ Reported told "/f;f/r;feed/r;a\\/b" ∧
    (after told).events.length = 3 ∧
    ∃ i : Nat, ∀ k : Nat, ((after told).events.map (·.id))[k]? = some "RESOURCE_ADDED_/f;f/r;feed/r;a\\/b" ↔ k = i := by
  have hfeed : parse "/f;f" = .ok ⟨[⟨"f", "f"⟩]⟩ := by rfl
  have hpath : parse "/f;f/r;feed/r;a\\/b" = .ok ⟨[⟨"f", "f"⟩, ⟨"r", "feed"⟩, ⟨"r", "a/b"⟩]⟩ := by rfl
  have hwhole : parse "/f;\\f/r;feed/r;\\a\\/b" = .ok ⟨[⟨"f", "f"⟩, ⟨"r", "feed"⟩, ⟨"r", "a/b"⟩]⟩ := by rfl
  have hfirst : Reported told "/f;\\f/r;feed/r;\\a\\/b" := ⟨[], _, _, rfl, .added (by decide)⟩
  have hdocument : Reported told "/f;f/r;feed/r;a\\/b" := by
    refine ⟨told.take 3, _, _, rfl, ?_⟩
    have hentries : serverEntries farm = [] ++ ("WildFly Server", "r;a\\/b") :: [] := by decide +kernel
    have hrender : "/f;f/r;feed/r;a\\/b" = render ⟨[⟨"f", "f"⟩, ⟨"r", "feed"⟩, ⟨"r", "a/b"⟩]⟩ := by decide +kernel
    rw [hrender]
    exact .entry hfeed hentries rfl (by decide +kernel) (by rfl)
  obtain ⟨i, j, hi, -, -⟩ := (announced_once told).2.1 _ _ _ _ hfirst hdocument hwhole hpath
  have hid : addedId ⟨[⟨"f", "f"⟩, ⟨"r", "feed"⟩, ⟨"r", "a/b"⟩]⟩ = "RESOURCE_ADDED_/f;f/r;feed/r;a\\/b" := by
    decide +kernel
  rw [hid] at hi
  exact ⟨hfirst, hdocument, by decide +kernel, i, hi⟩

end Notice

end Inventory
