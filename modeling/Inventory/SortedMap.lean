/-! # Maps in the order of their keys

Entries stand in strictly ascending order of code points, so equal maps are equal values. The functions on
lists of entries are stated by themselves, since a type that nests maps of its own kind has to hold the
bare list. The statements say how `insert` and `ofList` change a look-up and that they keep the order.
-/

namespace Inventory

def Ascending {α : Type} (entries : List (String × α)) : Prop :=
  (entries.map Prod.fst).Pairwise (· < ·)

instance {α : Type} (entries : List (String × α)) : Decidable (Ascending entries) :=
  inferInstanceAs (Decidable (List.Pairwise _ _))

/-- Entries with one more, in place of an entry of the same key. -/
def insertEntry {α : Type} (key : String) (value : α) : List (String × α) → List (String × α)
  | [] => [(key, value)]
  | (k, v) :: rest =>
    if key < k then (key, value) :: (k, v) :: rest
    else if key = k then (key, value) :: rest
    else (k, v) :: insertEntry key value rest

/-- Of several entries with the same key the last one stays. -/
def sortEntries {α : Type} (entries : List (String × α)) : List (String × α) :=
  entries.foldl (fun sorted e => insertEntry e.1 e.2 sorted) []

theorem mem_insertEntry {α : Type} {key : String} {value : α} {e : String × α}
    {entries : List (String × α)} (h : e ∈ insertEntry key value entries) :
    e = (key, value) ∨ e ∈ entries := by
  induction entries with
  | nil => simpa [insertEntry] using h
  | cons head rest ih =>
    obtain ⟨k, v⟩ := head
    simp only [insertEntry] at h
    split at h
    · simpa using h
    · split at h
      · rcases List.mem_cons.1 h with h | h
        · exact .inl h
        · exact .inr (List.mem_cons_of_mem _ h)
      · rcases List.mem_cons.1 h with h | h
        · exact .inr (h ▸ List.mem_cons_self)
        · exact (ih h).imp_right (List.mem_cons_of_mem _)

theorem Ascending.insertEntry {α : Type} {key : String} {value : α} {entries : List (String × α)}
    (h : Ascending entries) : Ascending (insertEntry key value entries) := by
  induction entries with
  | nil => simp [Inventory.insertEntry, Ascending]
  | cons head rest ih =>
    obtain ⟨k, v⟩ := head
    simp only [Ascending, List.map_cons, List.pairwise_cons] at h
    obtain ⟨hk, hrest⟩ := h
    simp only [Inventory.insertEntry]
    split
    · next hlt =>
      simp only [Ascending, List.map_cons, List.pairwise_cons, List.mem_cons]
      refine ⟨fun x hx => hx.elim (fun hx => hx ▸ hlt) fun hx => String.lt_trans hlt (hk x hx), hk, hrest⟩
    · next hnot =>
      split
      · next heq =>
        simp only [Ascending, List.map_cons, List.pairwise_cons]
        exact ⟨heq ▸ hk, hrest⟩
      · next hne =>
        simp only [Ascending, List.map_cons, List.pairwise_cons]
        refine ⟨fun x hx => ?_, ih hrest⟩
        obtain ⟨e, he, rfl⟩ := List.mem_map.1 hx
        rcases mem_insertEntry he with rfl | he
        · exact Std.lt_of_le_of_ne (Std.not_lt.1 hnot) (Ne.symm hne)
        · exact hk _ (List.mem_map_of_mem he)

theorem ascending_sortEntries {α : Type} (entries : List (String × α)) :
    Ascending (sortEntries entries) := by
  have : ∀ sorted : List (String × α), Ascending sorted →
      Ascending (entries.foldl (fun sorted e => Inventory.insertEntry e.1 e.2 sorted) sorted) := by
    induction entries with
    | nil => exact fun _ h => h
    | cons e rest ih => exact fun _ h => ih _ h.insertEntry
  exact this [] .nil

theorem mem_sortEntries {α : Type} {e : String × α} {entries : List (String × α)}
    (h : e ∈ sortEntries entries) : e ∈ entries := by
  have : ∀ sorted : List (String × α),
      e ∈ entries.foldl (fun sorted e => Inventory.insertEntry e.1 e.2 sorted) sorted →
        e ∈ sorted ∨ e ∈ entries := by
    clear h
    induction entries with
    | nil => exact fun _ h => .inl h
    | cons head rest ih =>
      intro sorted h
      rcases ih _ h with h | h
      · rcases mem_insertEntry h with h | h
        · exact .inr (h ▸ List.mem_cons_self)
        · exact .inl h
      · exact .inr (List.mem_cons_of_mem _ h)
  exact (this [] h).resolve_left (by simp)

structure SortedMap (α : Type) where
  entries : List (String × α)
  ascending : Ascending entries
deriving DecidableEq

namespace SortedMap

variable {α : Type}

def empty : SortedMap α := ⟨[], .nil⟩

instance : Inhabited (SortedMap α) := ⟨empty⟩

def insert (m : SortedMap α) (key : String) (value : α) : SortedMap α :=
  ⟨insertEntry key value m.entries, m.ascending.insertEntry⟩

def ofList (entries : List (String × α)) : SortedMap α :=
  ⟨sortEntries entries, ascending_sortEntries entries⟩

def get? (m : SortedMap α) (key : String) : Option α :=
  m.entries.lookup key

def contains (m : SortedMap α) (key : String) : Bool :=
  (m.get? key).isSome

def keys (m : SortedMap α) : List String :=
  m.entries.map Prod.fst

def values (m : SortedMap α) : List α :=
  m.entries.map Prod.snd

def alter (m : SortedMap α) (key : String) (f : Option α → α) : SortedMap α :=
  m.insert key (f (m.get? key))

theorem ext {m n : SortedMap α} (h : m.entries = n.entries) : m = n := by
  cases m; cases n; cases h; rfl

theorem lookup_insertEntry (key other : String) (value : α) (entries : List (String × α)) :
    (insertEntry key value entries).lookup other =
      if other = key then some value else entries.lookup other := by
  induction entries with
  | nil =>
    by_cases h : other = key
    · simp [insertEntry, h]
    · simp [insertEntry, List.lookup_cons, beq_eq_false_iff_ne.2 h, h]
  | cons head rest ih =>
    obtain ⟨k, v⟩ := head
    by_cases h : other = key
    · subst h
      simp only [insertEntry]
      split
      · simp
      · split
        · simp
        · next hne => simp [List.lookup_cons, beq_eq_false_iff_ne.2 hne, ih]
    · simp only [insertEntry]
      split
      · simp [List.lookup_cons, beq_eq_false_iff_ne.2 h]
      · split
        · next heq => subst heq; simp [List.lookup_cons, beq_eq_false_iff_ne.2 h]
        · simp only [List.lookup_cons, ih, h, if_false]

theorem get?_insert (m : SortedMap α) (key other : String) (value : α) :
    (m.insert key value).get? other = if other = key then some value else m.get? other :=
  lookup_insertEntry key other value m.entries

theorem ofList_concat (entries : List (String × α)) (key : String) (value : α) :
    ofList (entries ++ [(key, value)]) = (ofList entries).insert key value :=
  ext List.foldl_append

theorem get?_empty (key : String) : (empty : SortedMap α).get? key = none := rfl

end SortedMap

end Inventory
