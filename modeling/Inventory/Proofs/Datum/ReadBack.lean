import Inventory.Datum.Fields
import Inventory.Proofs.Json.Lexing
import Mathlib.Data.List.Basic

/-! # Free values and maps are read back

A normal value is what its datum denotes, so properties and sorted maps are read back from what is
written for them. Values without floating-point numbers are written as plain data.
-/

namespace Inventory

theorem insertEntry_of_forall_lt {α : Type} {key : String} {value : α} {entries : List (String × α)}
    (h : ∀ e ∈ entries, e.1 < key) : insertEntry key value entries = entries ++ [(key, value)] := by
  induction entries with
  | nil => rfl
  | cons head rest ih =>
    obtain ⟨k, v⟩ := head
    have hlt : k < key := h (k, v) List.mem_cons_self
    have hne : key ≠ k := fun heq => String.lt_irrefl k (heq ▸ hlt)
    rw [insertEntry, if_neg (String.lt_asymm hlt), if_neg hne, ih fun e he => h e (List.mem_cons_of_mem _ he)]
    rfl

theorem sortEntries_of_ascending {α : Type} {entries : List (String × α)} (h : Ascending entries) :
    sortEntries entries = entries := by
  have hfold : ∀ (rest sorted : List (String × α)), Ascending (sorted ++ rest) →
      rest.foldl (fun sorted e => insertEntry e.1 e.2 sorted) sorted = sorted ++ rest := by
    intro rest
    induction rest with
    | nil => simp
    | cons e rest ih =>
      intro sorted h
      have hlast : ∀ d ∈ sorted, d.1 < e.1 := by
        intro d hd
        rw [Ascending, List.map_append, List.pairwise_append] at h
        exact h.2.2 d.1 (List.mem_map_of_mem hd) e.1 (by simp)
      rw [List.foldl_cons, insertEntry_of_forall_lt hlast, ih (sorted ++ [e]) (by simpa using h)]
      simp
  exact hfold entries [] (by simpa using h)

namespace Value

mutual

def noReals : Value → Bool
  | .real _ => false
  | .list items => itemsNoReals items
  | .object entries => entriesNoReals entries
  | _ => true

def itemsNoReals : List Value → Bool
  | [] => true
  | v :: rest => noReals v && itemsNoReals rest

def entriesNoReals : List (String × Value) → Bool
  | [] => true
  | (_, v) :: rest => noReals v && entriesNoReals rest

end

theorem entriesNoReals_iff {entries : List (String × Value)} :
    entriesNoReals entries = true ↔ ∀ e ∈ entries, e.2.noReals = true := by
  induction entries with
  | nil => simp [entriesNoReals]
  | cons e rest ih => simp [entriesNoReals, ih]

theorem toEntries_eq_map (entries : List (String × Value)) :
    Datum.map (toEntries entries) = Datum.object (entries.map fun e => (e.1, e.2.toDatum)) := by
  rw [Datum.object, List.map_map]
  refine congrArg Datum.map ?_
  induction entries with
  | nil => rfl
  | cons e rest ih => exact congrArg ((Key.text e.1, e.2.toDatum) :: ·) ih

theorem beginsWithBytes_toEntries (entries : List (String × Value)) :
    beginsWithBytes (toEntries entries) = false := by
  cases entries <;> rfl

mutual

theorem ofDatum?_toDatum : ∀ v : Value, v.isNormal = true → v.noReals = true → ofDatum? v.toDatum = some v
  | .null, _, _ | .bool _, _, _ | .text _, _, _ => rfl
  | .int i, h, _ => by
    rw [isNormal] at h
    rw [toDatum, Datum.integer]
    split
    · next hpos =>
      rw [ofDatum?, Int.toNat_of_nonneg hpos, if_pos h]
    · rw [ofDatum?, if_pos h]
  | .list items, h, hr => by
    rw [toDatum, ofDatum?, ofItems?_toItems items h hr, Option.map_some]
  | .object entries, h, hr => by
    rw [isNormal, Bool.and_eq_true, decide_eq_true_eq] at h
    rw [toDatum, ofDatum?, beginsWithBytes_toEntries, if_neg Bool.false_ne_true,
      ofEntries?_toEntries entries h.2 hr, Option.map_some, sortEntries_of_ascending h.1]

theorem ofItems?_toItems : ∀ items : List Value, areNormal items = true → itemsNoReals items = true →
    ofItems? (toItems items) = some items
  | [], _, _ => rfl
  | v :: rest, h, hr => by
    rw [areNormal, Bool.and_eq_true] at h
    rw [itemsNoReals, Bool.and_eq_true] at hr
    rw [toItems, ofItems?, ofDatum?_toDatum v h.1 hr.1, Option.bind_some, ofItems?_toItems rest h.2 hr.2,
      Option.map_some]

theorem ofEntries?_toEntries : ∀ entries : List (String × Value), entriesNormal entries = true →
    entriesNoReals entries = true → ofEntries? (toEntries entries) = some entries
  | [], _, _ => rfl
  | (key, v) :: rest, h, hr => by
    rw [entriesNormal, Bool.and_eq_true] at h
    rw [entriesNoReals, Bool.and_eq_true] at hr
    rw [toEntries, ofEntries?, Key.text?, Option.bind_some, ofDatum?_toDatum v h.1 hr.1, Option.bind_some,
      ofEntries?_toEntries rest h.2 hr.2, Option.map_some]

end

mutual

theorem isPlain_toDatum : ∀ v : Value, v.isNormal = true → v.noReals = true → v.toDatum.isPlain = true
  | .null, _, _ | .bool _, _, _ | .text _, _, _ => rfl
  | .int i, h, _ => by
    simp only [isNormal, fits, Bool.and_eq_true, decide_eq_true_eq] at h
    rw [toDatum, Datum.integer]
    split
    · next hpos =>
      have hsize : UInt64.size = 0x10000000000000000 := rfl
      exact decide_eq_true (by omega)
    · next hneg =>
      simp only [Datum.isPlain, Bool.and_eq_true, decide_eq_true_eq]
      omega
  | .list items, h, hr => arePlain_toItems items h hr
  | .object entries, h, hr => by
    rw [isNormal, Bool.and_eq_true] at h
    exact entriesPlain_toEntries entries h.2 hr

theorem arePlain_toItems : ∀ items : List Value, areNormal items = true → itemsNoReals items = true →
    Datum.arePlain (toItems items) = true
  | [], _, _ => rfl
  | v :: rest, h, hr => by
    rw [areNormal, Bool.and_eq_true] at h
    rw [itemsNoReals, Bool.and_eq_true] at hr
    rw [toItems, Datum.arePlain, isPlain_toDatum v h.1 hr.1, arePlain_toItems rest h.2 hr.2, Bool.and_self]

theorem entriesPlain_toEntries : ∀ entries : List (String × Value), entriesNormal entries = true →
    entriesNoReals entries = true → Datum.entriesPlain (toEntries entries) = true
  | [], _, _ => rfl
  | (key, v) :: rest, h, hr => by
    rw [entriesNormal, Bool.and_eq_true] at h
    rw [entriesNoReals, Bool.and_eq_true] at hr
    rw [toEntries, Datum.entriesPlain, isPlain_toDatum v h.1 hr.1, entriesPlain_toEntries rest h.2 hr.2]
    rfl

end

end Value

namespace Properties

def noReals (p : Properties) : Bool :=
  Value.entriesNoReals p.entries

theorem isPlain_toDatum {p : Properties} (h : p.noReals = true) : p.toDatum.isPlain = true :=
  Value.isPlain_toDatum (.object p.entries) p.normal h

end Properties

namespace Datum

theorem entries?_object {α : Type} {read : Datum → Option α} {write : α → Datum}
    (entries : List (String × α)) (h : ∀ e ∈ entries, read (write e.2) = some e.2) :
    entries? read (object (entries.map fun e => (e.1, write e.2))) = some entries := by
  rw [object, entries?]
  induction entries with
  | nil => rfl
  | cons e rest ih =>
    have he := h e List.mem_cons_self
    rw [List.map_cons, List.map_cons, List.mapM_cons, ih fun d hd => h d (List.mem_cons_of_mem _ hd)]
    simp only [Key.text?, he]
    rfl

theorem properties?_toDatum {p : Properties} (h : p.noReals = true) : properties? p.toDatum = some p := by
  have hnormal := p.normal
  rw [Value.isNormal, Bool.and_eq_true, decide_eq_true_eq] at hnormal
  have hread : ∀ e ∈ p.entries, Value.ofDatum? e.2.toDatum = some e.2 := fun e he =>
    Value.ofDatum?_toDatum e.2 (Value.entriesNormal_iff.1 hnormal.2 e he) (Value.entriesNoReals_iff.1 h e he)
  have hentries := entries?_object p.entries hread
  rw [← Value.toEntries_eq_map] at hentries
  unfold properties?
  split
  · next hnone => rw [Properties.toDatum, hentries] at hnone; cases hnone
  · next entries hsome =>
    rw [Properties.toDatum, hentries] at hsome
    cases hsome
    obtain ⟨entries, normal⟩ := p
    simp only [Properties.ofEntries, Option.some.injEq, Properties.mk.injEq]
    exact sortEntries_of_ascending hnormal.1

/-- The fields of a written record are those it was made of, if it has them once and under names of its
own. -/
theorem fields?_object {names : List String} (keys : List String) {entries : List (String × Datum)}
    (hkeys : entries.map Prod.fst = keys) (hnodup : keys.Nodup) (hnames : ∀ key ∈ keys, key ∈ names) :
    fields? names (object entries) = some entries := by
  subst hkeys
  rw [object, fields?]
  induction entries with
  | nil => rfl
  | cons e rest ih =>
    obtain ⟨key, d⟩ := e
    rw [List.map_cons, List.nodup_cons] at hnodup
    rw [List.map_cons, List.forall_mem_cons] at hnames
    have hfind : names.find? (· == key) = some key := by
      cases hfound : names.find? (· == key) with
      | none => exact absurd (List.find?_eq_none.1 hfound key hnames.1) (by simp)
      | some name =>
        have hname := List.find?_some hfound
        exact congrArg some (beq_iff_eq.1 hname)
    have hnew : (List.lookup key rest).isSome = false := by
      rw [Option.isSome_eq_false_iff, Option.isNone_iff_eq_none, List.lookup_eq_none_iff]
      intro other hother
      refine bne_iff_ne.2 fun heq => hnodup.1 ?_
      exact List.mem_map.2 ⟨other, hother, heq.symm⟩
    rw [List.map_cons, fieldsOfEntries?, ih hnodup.2 hnames.2, fieldOf?, hfind]
    simp only [Option.bind_eq_bind, Option.bind_some, hnew, Bool.false_eq_true, if_false, Option.pure_def]

theorem list?_map {α : Type} {read : Datum → Option α} {write : α → Datum} (items : List α)
    (h : ∀ a ∈ items, read (write a) = some a) : list? read (.list (items.map write)) = some items := by
  rw [list?]
  induction items with
  | nil => rfl
  | cons a rest ih =>
    rw [List.map_cons, List.mapM_cons, h a List.mem_cons_self, ih fun b hb => h b (List.mem_cons_of_mem _ hb)]
    rfl

theorem list?_texts (items : List String) : list? text? (texts items) = some items :=
  list?_map items fun _ _ => rfl

theorem sortedMap?_ofSortedMap {α : Type} {read : Datum → Option α} {write : α → Datum} (m : SortedMap α)
    (h : ∀ a ∈ m.values, read (write a) = some a) : sortedMap? read (ofSortedMap write m) = some m := by
  have hread : ∀ e ∈ m.entries, read (write e.2) = some e.2 := fun e he => h e.2 (List.mem_map_of_mem he)
  rw [sortedMap?, ofSortedMap, entries?_object m.entries hread, Option.map_some, SortedMap.ofList]
  exact congrArg some (SortedMap.ext (sortEntries_of_ascending m.ascending))

theorem uint64?_natural (n : UInt64) : uint64? (natural n.toNat) = some n := by
  simp [uint64?, natural, natural?, n.toNat_lt_size]

theorem byte?_natural (b : UInt8) : byte? (natural b.toNat) = some b := by
  simp [byte?, natural, natural?, b.toNat_lt_size]

theorem integer?_integer (i : Int) : integer? (integer i) = some i := by
  rw [integer]
  split
  · next hpos => rw [integer?, Int.toNat_of_nonneg hpos]
  · rfl

theorem int64?_integer (i : Int64) : int64? (integer i.toInt) = some i := by
  have hlow := i.le_toInt
  have hhigh := i.toInt_lt
  rw [int64?, integer?_integer, Option.filter_some_pos (by simp; omega), Option.map_some, Int64.ofInt_toInt]

theorem isPlain_integer (i : Int64) : (integer i.toInt).isPlain = true := by
  have hlow := i.le_toInt
  have hhigh := i.toInt_lt
  exact Value.isPlain_toDatum (.int i.toInt) (by simp [Value.isNormal, Value.fits]; omega) rfl

theorem arePlain_iff {items : List Datum} : arePlain items = true ↔ ∀ d ∈ items, d.isPlain = true := by
  induction items with
  | nil => simp [arePlain]
  | cons d rest ih => simp [arePlain, ih]

theorem isPlain_object {entries : List (String × Datum)} :
    (object entries).isPlain = true ↔ ∀ e ∈ entries, e.2.isPlain = true := by
  rw [object, isPlain]
  induction entries with
  | nil => simp [entriesPlain]
  | cons e rest ih => simp [entriesPlain, ih, Key.isText]

theorem isPlain_texts (items : List String) : (texts items).isPlain = true := by
  rw [texts, isPlain, arePlain_iff]
  intro d hd
  obtain ⟨s, -, rfl⟩ := List.mem_map.1 hd
  rfl

end Datum

end Inventory
