import Inventory.Chunk.Assembly
import Inventory.Proofs.Text.Naming

/-! # What each check of a sequence finds

`numberTag` finds the number that a tag names. `checkTimestamps` and `checkTotals` walk along the
records and stop at the first one that is out of line; each passes exactly when no record is, and its
fault names the least such record. All time stamps are compared as integers, so a step below the least
64-bit number is never one.
-/

namespace Inventory.ChunkRecord

def Tagged (r : ChunkRecord) (tag : String) (n : Nat) : Prop :=
  ∃ text, r.tags.get? tag = some text ∧ Text.Names text.toList n ∧ n < UInt64.size

def Unreadable (text : String) : Prop :=
  ∀ n, Text.Names text.toList n → UInt64.size ≤ n

theorem numberTag_eq_ok_iff {r : ChunkRecord} {tag : String} {n : Nat} :
    r.numberTag tag = .ok n ↔ r.Tagged tag n := by
  unfold numberTag Tagged
  split
  · next hnone => simp [hnone]
  · next text htext =>
    rw [htext]
    simp only [Option.some.injEq, exists_eq_left', ← Text.natural?_trimChars_eq_some_iff]
    split
    · next m hm => simp [hm]
    · next hm => simp [hm]

theorem numberTag_of_missing {r : ChunkRecord} {tag : String} (h : r.tags.get? tag = none) :
    r.numberTag tag = .error (badTag tag none) := by
  rw [numberTag, h]

theorem numberTag_of_unreadable {r : ChunkRecord} {tag text : String}
    (h : r.tags.get? tag = some text) (hread : Unreadable text) :
    r.numberTag tag = .error (badTag tag (some text)) := by
  rw [numberTag, h]
  have hnone : Text.natural? UInt64.size (Text.trimChars text.toList) = none := by
    rw [Option.eq_none_iff_forall_ne_some]
    intro n hn
    obtain ⟨hnames, hlt⟩ := Text.natural?_trimChars_eq_some_iff.1 hn
    exact absurd (hread n hnames) (Nat.not_le.2 hlt)
  simp only [hnone]

theorem tagged_or (r : ChunkRecord) (tag : String) :
    (∃ n, r.Tagged tag n) ∨ r.tags.get? tag = none ∨
      ∃ text, r.tags.get? tag = some text ∧ Unreadable text := by
  cases htext : r.tags.get? tag with
  | none => exact .inr (.inl rfl)
  | some text =>
    by_cases h : Unreadable text
    · exact .inr (.inr ⟨text, rfl, h⟩)
    · simp only [Unreadable, not_forall, Nat.not_le] at h
      obtain ⟨n, hnames, hlt⟩ := h
      exact .inl ⟨n, text, htext, hnames, hlt⟩

theorem toInt_of_before? {t u : Int64} (h : before? t = some u) : u.toInt = t.toInt - 1 := by
  unfold before? at h
  split at h
  · cases h
  · next hne =>
    have hmin : t.toInt ≠ Int64.minValue.toInt := fun heq => hne (Int64.toInt_inj.1 heq)
    have hle := t.minValue_le_toInt
    have hlt := t.toInt_lt
    rw [Int64.toInt_minValue] at hmin hle
    rw [← Option.some.inj h, Int64.toInt_sub, Int64.toInt_one]
    exact Int.bmod_eq_of_le (by omega) (by omega)

theorem before?_eq_some_iff {t u : Int64} : before? t = some u ↔ u.toInt = t.toInt - 1 := by
  refine ⟨toInt_of_before?, fun h => ?_⟩
  cases hbefore : before? t with
  | some v =>
    have hv := toInt_of_before? hbefore
    exact congrArg some (Int64.toInt_inj.1 (hv.trans h.symm))
  | none =>
    unfold before? at hbefore
    split at hbefore
    · next hmin =>
      have hle := u.minValue_le_toInt
      rw [hmin] at h
      omega
    · cases hbefore

theorem toInt_getD_before? (t : Int64) :
    ((before? t).getD t).toInt = max Int64.minValue.toInt (t.toInt - 1) := by
  have hle := t.minValue_le_toInt
  cases hbefore : before? t with
  | some u =>
    have hu := toInt_of_before? hbefore
    have hmin := u.minValue_le_toInt
    rw [Option.getD_some, hu]
    omega
  | none =>
    unfold before? at hbefore
    split at hbefore
    · next hmin =>
      rw [Option.getD_none, hmin]
      omega
    · cases hbefore

/-- Behind a time stamp, the record at a place is a tick earlier for each place. -/
def InStep (previous : Int64) (records : List ChunkRecord) (i : Nat) : Prop :=
  ∀ r, records[i]? = some r → r.timestamp.toInt = previous.toInt - (i + 1)

theorem inStep_cons_succ {previous : Int64} {r : ChunkRecord} {rest : List ChunkRecord} {i : Nat}
    (h : r.timestamp.toInt = previous.toInt - 1) :
    InStep previous (r :: rest) (i + 1) ↔ InStep r.timestamp rest i := by
  unfold InStep
  rw [List.getElem?_cons_succ]
  refine forall_congr' fun q => imp_congr_right fun _ => ?_
  omega

theorem inStep_cons_zero {previous : Int64} {r : ChunkRecord} {rest : List ChunkRecord} :
    InStep previous (r :: rest) 0 ↔ before? previous = some r.timestamp := by
  rw [before?_eq_some_iff]
  simp [InStep]

theorem checkTimestamps_eq_ok_iff {index : Nat} {previous : Int64} {records : List ChunkRecord} :
    checkTimestamps index previous records = .ok () ↔ ∀ i, InStep previous records i := by
  induction records generalizing index previous with
  | nil => simp [checkTimestamps, InStep]
  | cons r rest ih =>
    rw [checkTimestamps]
    split
    · next hbefore =>
      have hstep := before?_eq_some_iff.1 hbefore
      rw [ih]
      constructor
      · intro h i
        cases i with
        | zero => exact inStep_cons_zero.2 hbefore
        | succ i => exact (inStep_cons_succ hstep).2 (h i)
      · intro h i
        exact (inStep_cons_succ hstep).1 (h (i + 1))
    · next hbefore =>
      refine iff_of_false (by simp) fun h => hbefore (inStep_cons_zero.1 (h 0))

/-- The fault is that of the first record out of step. -/
theorem checkTimestamps_eq_error {index : Nat} {previous expected : Int64} {records : List ChunkRecord}
    {i : Nat} {r : ChunkRecord} (hr : records[i]? = some r) (hbefore : ∀ j < i, InStep previous records j)
    (hout : ¬ InStep previous records i)
    (hexpected : expected.toInt = max Int64.minValue.toInt (previous.toInt - (i + 1))) :
    checkTimestamps index previous records =
      .error (.invalidChunkSequence (.nonContiguous (index + i) r.timestamp expected)) := by
  induction records generalizing index previous i with
  | nil => simp at hr
  | cons q rest ih =>
    rw [checkTimestamps]
    cases i with
    | zero =>
      obtain rfl : q = r := by simpa using hr
      rw [if_neg fun h => hout (inStep_cons_zero.2 h)]
      have heq : (before? previous).getD previous = expected := by
        rw [← Int64.toInt_inj, toInt_getD_before?, hexpected]
        simp
      rw [heq, Nat.add_zero]
    | succ i =>
      have hfirst := inStep_cons_zero.1 (hbefore 0 (Nat.succ_pos i))
      have hstep := before?_eq_some_iff.1 hfirst
      rw [if_pos hfirst, ih (by simpa using hr)
        (fun j hj => (inStep_cons_succ hstep).1 (hbefore (j + 1) (Nat.succ_lt_succ hj)))
        (fun h => hout ((inStep_cons_succ hstep).2 h))
        (by rw [hexpected, hstep]; push_cast; congr 1; omega), Nat.add_right_comm, Nat.add_assoc]

def held (records : List ChunkRecord) (n : Nat) : Nat :=
  (records.take n).foldr (fun r total => r.payload.length + total) 0

@[simp] theorem held_zero (records : List ChunkRecord) : held records 0 = 0 :=
  rfl

@[simp] theorem held_cons_succ (r : ChunkRecord) (rest : List ChunkRecord) (n : Nat) :
    held (r :: rest) (n + 1) = r.payload.length + held rest n :=
  rfl

theorem held_mono (records : List ChunkRecord) {m n : Nat} (h : m ≤ n) :
    held records m ≤ held records n := by
  induction records generalizing m n with
  | nil => simp [held]
  | cons r rest ih =>
    cases m with
    | zero => simp
    | succ m =>
      obtain ⟨n, rfl⟩ : ∃ k, n = k + 1 := ⟨n - 1, by omega⟩
      have := ih (Nat.le_of_succ_le_succ h)
      simp only [held_cons_succ]
      omega

theorem length_payloads_take (records : List ChunkRecord) (n : Nat) :
    (payloads (records.take n)).length = held records n := by
  rw [held, payloads]
  induction records.take n with
  | nil => rfl
  | cons r rest ih => rw [List.flatMap_cons, List.length_append, ih, List.foldr_cons]

theorem checkTotals_eq_ok_iff {declared index total : Nat} {records : List ChunkRecord} :
    checkTotals declared index total records = .ok () ↔
      ∀ i < records.length, total + held records (i + 1) ≤ declared := by
  induction records generalizing index total with
  | nil => simp [checkTotals]
  | cons r rest ih =>
    rw [checkTotals]
    split
    · next hle =>
      rw [ih]
      constructor
      · intro h i hi
        cases i with
        | zero => simpa using hle
        | succ i =>
          have := h i (Nat.lt_of_succ_lt_succ hi)
          rw [held_cons_succ]
          omega
      · intro h i hi
        have := h (i + 1) (Nat.succ_lt_succ hi)
        rw [held_cons_succ] at this
        omega
    · next hgt =>
      refine iff_of_false (by simp) fun h => hgt ?_
      simpa using h 0 (Nat.succ_pos _)

/-- The fault is that of the first record with which the length is exceeded. -/
theorem checkTotals_eq_error {declared index total : Nat} {records : List ChunkRecord} {i : Nat}
    (hi : i < records.length) (hbefore : ∀ j < i, total + held records (j + 1) ≤ declared)
    (hover : declared < total + held records (i + 1)) :
    checkTotals declared index total records =
      .error (.invalidChunkSequence
        (.sizeOverflow (index + i) (total + held records (i + 1)) declared)) := by
  induction records generalizing index total i with
  | nil => simp at hi
  | cons r rest ih =>
    rw [checkTotals]
    have hone : held (r :: rest) (0 + 1) = r.payload.length := by simp
    cases i with
    | zero =>
      rw [hone] at hover ⊢
      rw [if_neg (Nat.not_le.2 hover), Nat.add_zero]
    | succ i =>
      have hfirst := hbefore 0 (Nat.succ_pos i)
      have hsum : ∀ j, total + held (r :: rest) (j + 1 + 1) =
          total + r.payload.length + held rest (j + 1) := by
        intro j
        rw [held_cons_succ, Nat.add_assoc]
      rw [hone] at hfirst
      rw [hsum] at hover ⊢
      rw [if_pos hfirst, ih (Nat.lt_of_succ_lt_succ hi)
        (fun j hj => hsum j ▸ hbefore (j + 1) (Nat.succ_lt_succ hj)) hover, Nat.add_right_comm index,
        Nat.add_assoc index]

end Inventory.ChunkRecord
