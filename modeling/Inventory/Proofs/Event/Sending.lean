import Inventory.Event.Announce
import Mathlib.Data.List.Nodup

/-! # What a sink gains

An action may fail, but what it sent before stays sent. `perform` tells its result and the forwarder after it. Into
a sink that keeps events in memory a forwarder only ever adds events, all of its own tenant and none under the id
of a resource announced before (`Extends`), whether its actions succeed or not.
-/

namespace Inventory

def addedMark : List Char := "RESOURCE_ADDED_".toList

def isAddedId (id : String) : Bool :=
  addedMark.isPrefixOf id.toList

namespace Forwarder

variable {σ α β : Type}

def perform (action : Action σ α) (f : Forwarder σ) : Except Error α × Forwarder σ :=
  action.run.run f

theorem perform_pure (a : α) (f : Forwarder σ) : perform (pure a) f = (.ok a, f) := rfl

theorem perform_get (f : Forwarder σ) : perform (get : Action σ (Forwarder σ)) f = (.ok f, f) := rfl

theorem perform_bind_of_ok {action : Action σ α} {next : α → Action σ β} {f g : Forwarder σ} {a : α}
    (h : perform action f = (.ok a, g)) : perform (action >>= next) f = perform (next a) g := by
  rw [perform] at h
  rw [perform, ExceptT.run_bind, StateT.run_bind, h]
  rfl

theorem perform_bind_of_error {action : Action σ α} {next : α → Action σ β} {f g : Forwarder σ} {e : Error}
    (h : perform action f = (.error e, g)) : perform (action >>= next) f = (.error e, g) := by
  rw [perform] at h
  rw [perform, ExceptT.run_bind, StateT.run_bind, h]
  rfl

theorem perform_bind_eq_ok {action : Action σ α} {next : α → Action σ β} {f g : Forwarder σ} {b : β}
    (h : perform (action >>= next) f = (.ok b, g)) :
    ∃ a middle, perform action f = (.ok a, middle) ∧ perform (next a) middle = (.ok b, g) := by
  cases haction : perform action f with
  | mk result middle =>
    cases result with
    | error e =>
      rw [perform_bind_of_error haction] at h
      cases h
    | ok a =>
      rw [perform_bind_of_ok haction] at h
      exact ⟨a, middle, rfl, h⟩

theorem exists_perform_eq {action : Action σ α} {f : Forwarder σ} {result : Except Error α}
    (h : (perform action f).1 = result) : ∃ g, perform action f = (result, g) := by
  subst h
  exact ⟨_, rfl⟩

theorem perform_map_of_ok {action : Action σ α} {view : α → β} {f g : Forwarder σ} {a : α}
    (h : perform action f = (.ok a, g)) : perform (view <$> action) f = (.ok (view a), g) := by
  rw [← bind_pure_comp, perform_bind_of_ok h, perform_pure]

theorem perform_map_of_error {action : Action σ α} {view : α → β} {f g : Forwarder σ} {e : Error}
    (h : perform action f = (.error e, g)) : perform (view <$> action) f = (.error e, g) := by
  rw [← bind_pure_comp, perform_bind_of_error h]

section Events

variable {f g h : Forwarder MemorySink} {m n : Nat} {id : String}

def events (f : Forwarder MemorySink) : List Event :=
  f.sink.events

def addedIds (f : Forwarder MemorySink) : List String :=
  (f.events.map (·.id)).filter isAddedId

def Holds (f : Forwarder MemorySink) (id : String) : Prop :=
  f.sink.has f.tenantId id = true

instance : Decidable (f.Holds id) :=
  inferInstanceAs (Decidable (_ = true))

/-- All events are of one tenant, and no resource has been announced twice. -/
structure Sound (f : Forwarder MemorySink) : Prop where
  tenant : ∀ e ∈ f.events, e.tenantId = f.tenantId
  nodup : f.addedIds.Nodup

/-- A forwarder after it has sent a number of events, and nothing else. -/
structure Extends (f g : Forwarder MemorySink) (count : Nat) : Prop where
  tenantId : g.tenantId = f.tenantId
  sound : f.Sound → g.Sound
  grown : ∃ new, g.events = f.events ++ new ∧ new.length = count

theorem Extends.refl (f : Forwarder MemorySink) : f.Extends f 0 :=
  ⟨rfl, fun h => h, [], (List.append_nil _).symm, rfl⟩

theorem Extends.trans (hfirst : f.Extends g m) (hsecond : g.Extends h n) : f.Extends h (m + n) := by
  obtain ⟨front, hfront, rfl⟩ := hfirst.grown
  obtain ⟨back, hback, rfl⟩ := hsecond.grown
  constructor
  case tenantId => exact hsecond.tenantId.trans hfirst.tenantId
  case sound => exact fun hsound => hsecond.sound (hfirst.sound hsound)
  case grown =>
    refine ⟨front ++ back, ?_, List.length_append⟩
    rw [hback, hfront, List.append_assoc]

def settled (f : Forwarder σ) (draft : EventDraft) : Forwarder σ :=
  { f with sequence := if draft.givenId?.isNone then f.sequence + 1 else f.sequence }

theorem extends_settled (f : Forwarder MemorySink) (draft : EventDraft) : f.Extends (f.settled draft) 0 :=
  ⟨rfl, fun h => ⟨h.tenant, h.nodup⟩, [], (List.append_nil _).symm, rfl⟩

theorem holds_iff : f.Holds id ↔ ∃ e ∈ f.events, e.tenantId = f.tenantId ∧ e.id = id := by
  simp only [Holds, MemorySink.has, List.any_eq_true, Bool.and_eq_true, beq_iff_eq, events]

theorem Holds.extends (h : f.Holds id) (hextends : f.Extends g n) : g.Holds id := by
  obtain ⟨e, he, htenant, hid⟩ := holds_iff.1 h
  obtain ⟨new, hnew, -⟩ := hextends.grown
  rw [holds_iff, hextends.tenantId, hnew]
  exact ⟨e, List.mem_append_left new he, htenant, hid⟩

theorem Sound.holds_iff_mem (h : f.Sound) : f.Holds id ↔ id ∈ f.events.map (·.id) := by
  rw [holds_iff, List.mem_map]
  constructor
  · rintro ⟨e, he, -, hid⟩
    exact ⟨e, he, hid⟩
  · rintro ⟨e, he, hid⟩
    exact ⟨e, he, h.tenant e he, hid⟩

/-- An id under which a resource was announced stands in one place only. -/
theorem Sound.exists_place (h : f.Sound) (hadded : isAddedId id = true) (hholds : f.Holds id) :
    ∃ i, ∀ k : Nat, (f.events.map (·.id))[k]? = some id ↔ k = i := by
  have hmem := h.holds_iff_mem.1 hholds
  obtain ⟨front, back, hsplit⟩ := List.append_of_mem hmem
  have hnodup := h.nodup
  rw [addedIds, hsplit, List.filter_append, List.filter_cons_of_pos hadded] at hnodup
  have hfront : id ∉ front := by
    intro hfront
    have hdisjoint := (List.nodup_append.1 hnodup).2.2
    exact hdisjoint id (List.mem_filter.2 ⟨hfront, hadded⟩) id List.mem_cons_self rfl
  have hback : id ∉ back := by
    intro hback
    have hcons := (List.nodup_append.1 hnodup).2.1
    exact (List.nodup_cons.1 hcons).1 (List.mem_filter.2 ⟨hback, hadded⟩)
  refine ⟨front.length, fun k => ?_⟩
  rw [hsplit]
  constructor
  · intro hk
    rcases Nat.lt_trichotomy k front.length with hlt | heq | hgt
    · rw [List.getElem?_append_left hlt] at hk
      exact absurd (List.mem_of_getElem? hk) hfront
    · exact heq
    · rw [List.getElem?_append_right (Nat.le_of_lt hgt), List.getElem?_cons, if_neg (by omega)] at hk
      exact absurd (List.mem_of_getElem? hk) hback
  · rintro rfl
    rw [List.getElem?_append_right (Nat.le_refl _), Nat.sub_self]
    rfl

end Events

section Send

variable [EventDigest] {draft : EventDraft} {now : Int64} {once : Bool}

def idFor (f : Forwarder σ) (now : Int64) (draft : EventDraft) : String :=
  draft.givenId?.getD (draft.madeUpId f.tenantId now f.sequence)

def sent (f : Forwarder MemorySink) (now : Int64) (draft : EventDraft) : Forwarder MemorySink :=
  { f.settled draft with sink := f.sink.add [draft.toEvent f.tenantId (f.idFor now draft) now] }

theorem perform_takeId (f : Forwarder σ) :
    perform (takeId now draft) f = (.ok (f.idFor now draft), f.settled draft) := by
  unfold takeId idFor settled
  cases draft.givenId? <;> rfl

theorem perform_send (f : Forwarder MemorySink) :
    perform (send now draft once) f =
      if once = true ∧ f.Holds (f.idFor now draft) then (.ok false, f.settled draft)
      else (.ok true, f.sent now draft) := by
  rw [send, perform_bind_of_ok (perform_takeId f), perform_bind_of_ok (perform_get _)]
  cases once with
  | false => rfl
  | true =>
    have hasked : perform (isSent (f.settled draft).tenantId (f.idFor now draft) true) (f.settled draft) =
        (.ok (f.sink.has f.tenantId (f.idFor now draft)), f.settled draft) := rfl
    rw [perform_bind_of_ok hasked]
    simp only [Holds, true_and]
    cases f.sink.has f.tenantId (f.idFor now draft) with
    | false => rfl
    | true => rfl

theorem holds_sent (f : Forwarder MemorySink) : (f.sent now draft).Holds (f.idFor now draft) :=
  holds_iff.2 ⟨_, List.mem_append_right _ (List.mem_singleton_self _), rfl, rfl⟩

theorem extends_sent {f : Forwarder MemorySink}
    (hnew : isAddedId (f.idFor now draft) = true → ¬ f.Holds (f.idFor now draft)) :
    f.Extends (f.sent now draft) 1 := by
  constructor
  case tenantId => rfl
  case grown => exact ⟨_, rfl, rfl⟩
  case sound =>
    intro hsound
    constructor
    · intro e he
      rcases List.mem_append.1 he with he | he
      · exact hsound.tenant e he
      · obtain rfl := List.mem_singleton.1 he
        rfl
    · have hids : (f.sent now draft).events.map (·.id) = f.events.map (·.id) ++ [f.idFor now draft] :=
        List.map_append
      rw [addedIds, hids, List.filter_append]
      cases hadded : isAddedId (f.idFor now draft) with
      | false =>
        rw [List.filter_cons_of_neg (by simp [hadded]), List.filter_nil, List.append_nil]
        exact hsound.nodup
      | true =>
        rw [List.filter_cons_of_pos hadded, List.filter_nil, List.nodup_append]
        refine ⟨hsound.nodup, List.nodup_singleton _, ?_⟩
        rintro id hid _ hother rfl
        obtain rfl := List.mem_singleton.1 hother
        exact hnew hadded (hsound.holds_iff_mem.2 (List.mem_filter.1 hid).1)

/-- A draft with the id of an announced resource has to be sent `once`. -/
theorem exists_perform_send (now : Int64) (draft : EventDraft) (once : Bool) (f : Forwarder MemorySink)
    (honce : isAddedId (f.idFor now draft) = true → once = true) :
    ∃ isNew g, perform (send now draft once) f = (.ok isNew, g) ∧ f.Extends g isNew.toNat ∧
      g.Holds (f.idFor now draft) ∧ (once = false → isNew = true) := by
  rw [perform_send]
  split
  · next h =>
    refine ⟨false, _, rfl, extends_settled f draft, h.2.extends (extends_settled f draft), ?_⟩
    rintro rfl
    exact absurd h.1 Bool.false_ne_true
  · next h =>
    refine ⟨true, _, rfl, extends_sent ?_, holds_sent f, fun _ => rfl⟩
    intro hadded hholds
    exact h ⟨honce hadded, hholds⟩

end Send

end Forwarder

end Inventory
