import Inventory.Chunk.Snapshot
import Inventory.Proofs.Chunk.Checks
import Inventory.Proofs.Traversal
import Mathlib.Data.Nat.Find

/-! # The verdict on a sequence of records

`Verdict` says, without the steps of `assemble`, which result a sequence of records must have: one case
for each fault, in the order in which faults take precedence, and one for the joined payload. `assemble`
gives exactly the verdict, so a sequence is joined if and only if its tags, number, time stamps and
length agree.
-/

namespace Inventory.ChunkRecord

structure Announces (master : ChunkRecord) (n s : Nat) : Prop where
  count : master.Tagged chunksTag n
  size : master.Tagged sizeTag s

/-- The record at a place is as many ticks older than the first one. -/
def OnTick (master : ChunkRecord) (others : List ChunkRecord) (i : Nat) : Prop :=
  ∀ r, (master :: others)[i]? = some r → r.timestamp.toInt = master.timestamp.toInt - i

structure Lined (master : ChunkRecord) (others : List ChunkRecord) (n : Nat) : Prop where
  pos : 0 < n
  enough : n ≤ others.length + 1
  onTick : ∀ i < n, OnTick master others i

/-- What must come of records of which the first one has the tag for a number of records. -/
inductive Verdict (master : ChunkRecord) (others : List ChunkRecord) : Except Error Bytes → Prop
  | countUnreadable {text : String} (hcount : master.tags.get? chunksTag = some text)
      (hread : Unreadable text) : Verdict master others (.error (badTag chunksTag (some text)))
  | sizeMissing {n : Nat} (hcount : master.Tagged chunksTag n) (hsize : master.tags.get? sizeTag = none) :
      Verdict master others (.error (badTag sizeTag none))
  | sizeUnreadable {n : Nat} {text : String} (hcount : master.Tagged chunksTag n)
      (hsize : master.tags.get? sizeTag = some text) (hread : Unreadable text) :
      Verdict master others (.error (badTag sizeTag (some text)))
  | countZero {s : Nat} {text : String} (h : Announces master 0 s)
      (hcount : master.tags.get? chunksTag = some text) :
      Verdict master others (.error (badTag chunksTag (some text)))
  | incomplete {n s : Nat} (h : Announces master n s) (hfew : others.length + 1 < n) :
      Verdict master others (.error (.incompleteChunks n (others.length + 1)))
  | nonContiguous {n s i : Nat} {r : ChunkRecord} {expected : Int64} (h : Announces master n s)
      (henough : n ≤ others.length + 1) (hi : i < n) (hr : (master :: others)[i]? = some r)
      (hbefore : ∀ j < i, OnTick master others j) (hout : ¬ OnTick master others i)
      (hexpected : expected.toInt = max Int64.minValue.toInt (master.timestamp.toInt - i)) :
      Verdict master others (.error (.invalidChunkSequence (.nonContiguous i r.timestamp expected)))
  | sizeMismatch {n s : Nat} (h : Announces master n s) (hlined : Lined master others n)
      (hshort : held (master :: others) n < s) :
      Verdict master others
        (.error (.invalidChunkSequence (.sizeMismatch (held (master :: others) n) s)))
  | sizeOverflow {n s i : Nat} (h : Announces master n s) (hlined : Lined master others n) (hi : i < n)
      (hbefore : ∀ j < i, held (master :: others) (j + 1) ≤ s) (hover : s < held (master :: others) (i + 1)) :
      Verdict master others
        (.error (.invalidChunkSequence (.sizeOverflow i (held (master :: others) (i + 1)) s)))
  | whole {n s : Nat} (h : Announces master n s) (hlined : Lined master others n)
      (hsize : held (master :: others) n = s) :
      Verdict master others (.ok (payloads ((master :: others).take n)))

theorem exists_first_not {p : Nat → Prop} {n : Nat} (h : ¬ ∀ i < n, p i) :
    ∃ i < n, (∀ j < i, p j) ∧ ¬ p i := by
  classical
  have hex : ∃ i, i < n ∧ ¬ p i := by
    simpa only [not_forall, exists_prop] using h
  obtain ⟨hlt, hnot⟩ := Nat.find_spec hex
  refine ⟨Nat.find hex, hlt, ?_, hnot⟩
  intro j hj
  by_contra hpj
  exact Nat.find_min hex hj ⟨by omega, hpj⟩

/-- A time stamp earlier by some ticks, or the least one there is. -/
theorem exists_clamped_sub (latest : Int64) (i : Nat) :
    ∃ expected : Int64, expected.toInt = max Int64.minValue.toInt (latest.toInt - i) := by
  have hlt := latest.toInt_lt
  refine ⟨Int64.ofInt (max Int64.minValue.toInt (latest.toInt - i)), Int64.toInt_ofInt_of_le ?_ ?_⟩
  · exact Int.le_max_left _ _
  · rw [Int64.toInt_minValue]
    omega

section Timestamps

variable {master : ChunkRecord} {others : List ChunkRecord} {n : Nat}

theorem onTick_zero : OnTick master others 0 := by
  intro r hr
  obtain rfl : master = r := by simpa using hr
  simp

theorem onTick_succ_iff {i : Nat} :
    OnTick master others (i + 1) ↔ InStep master.timestamp others i := by
  simp [OnTick, InStep]

theorem inStep_take_iff {previous : Int64} {i : Nat} :
    InStep previous (others.take n) i ↔ (i < n → InStep previous others i) := by
  unfold InStep
  by_cases hi : i < n
  · simp [List.getElem?_take_of_lt hi, hi]
  · have hnone : (others.take n)[i]? = none := List.getElem?_eq_none (by rw [List.length_take]; omega)
    constructor
    · intro _ hlt
      exact absurd hlt hi
    · intro _ r hr
      rw [hnone] at hr
      cases hr

theorem checkTimestamps_take_eq_ok_iff (hpos : 0 < n) :
    checkTimestamps 1 master.timestamp (others.take (n - 1)) = .ok () ↔
      ∀ i < n, OnTick master others i := by
  rw [checkTimestamps_eq_ok_iff]
  constructor
  · intro h i hi
    cases i with
    | zero => exact onTick_zero
    | succ i => exact onTick_succ_iff.2 (inStep_take_iff.1 (h i) (by omega))
  · intro h i
    exact inStep_take_iff.2 fun hi => onTick_succ_iff.1 (h (i + 1) (by omega))

theorem checkTimestamps_take_eq_error {i : Nat} {r : ChunkRecord} {expected : Int64} (hi : i < n)
    (hr : (master :: others)[i]? = some r) (hbefore : ∀ j < i, OnTick master others j)
    (hout : ¬ OnTick master others i)
    (hexpected : expected.toInt = max Int64.minValue.toInt (master.timestamp.toInt - i)) :
    checkTimestamps 1 master.timestamp (others.take (n - 1)) =
      .error (.invalidChunkSequence (.nonContiguous i r.timestamp expected)) := by
  cases i with
  | zero => exact absurd onTick_zero hout
  | succ i =>
    have hr' : (others.take (n - 1))[i]? = some r := by
      rw [List.getElem?_take_of_lt (by omega)]
      simpa using hr
    have hbefore' : ∀ j < i, InStep master.timestamp (others.take (n - 1)) j := by
      intro j hj
      exact inStep_take_iff.2 fun _ => onTick_succ_iff.1 (hbefore (j + 1) (by omega))
    have hout' : ¬ InStep master.timestamp (others.take (n - 1)) i := by
      intro h
      exact hout (onTick_succ_iff.2 (inStep_take_iff.1 h (by omega)))
    rw [checkTimestamps_eq_error hr' hbefore' hout' (by exact_mod_cast hexpected), Nat.add_comm 1 i]

end Timestamps

theorem take_cons {master : ChunkRecord} {others : List ChunkRecord} {n : Nat} (hpos : 0 < n) :
    master :: others.take (n - 1) = (master :: others).take n := by
  obtain ⟨k, rfl⟩ : ∃ k, n = k + 1 := ⟨n - 1, by omega⟩
  simp

/-- What is left to check once the tags are read and the announced records are there. -/
theorem assemble_of_announces {master : ChunkRecord} {others : List ChunkRecord} {n s : Nat}
    (h : Announces master n s) (hpos : 0 < n) (henough : n ≤ others.length + 1) :
    assemble master others =
      (checkTimestamps 1 master.timestamp (others.take (n - 1))).bind fun _ =>
        if held (master :: others) n < s then
          .error (.invalidChunkSequence (.sizeMismatch (held (master :: others) n) s))
        else (checkTotals s 0 0 ((master :: others).take n)).map fun _ =>
          payloads ((master :: others).take n) := by
  have hfew : ¬ others.length + 1 < n := by omega
  have hzero : n ≠ 0 := by omega
  rw [assemble, numberTag_eq_ok_iff.2 h.count, numberTag_eq_ok_iff.2 h.size]
  simp only [bind, Except.bind, if_neg hzero, if_neg hfew, take_cons hpos, length_payloads_take]
  cases checkTimestamps 1 master.timestamp (others.take (n - 1)) with
  | error e => rfl
  | ok =>
    by_cases hshort : held (master :: others) n < s
    · simp only [if_pos hshort]
      rfl
    · simp only [if_neg hshort]
      cases checkTotals s 0 0 ((master :: others).take n) <;> rfl

theorem assemble_of_lined {master : ChunkRecord} {others : List ChunkRecord} {n s : Nat}
    (h : Announces master n s) (hlined : Lined master others n) :
    assemble master others =
      if held (master :: others) n < s then
        .error (.invalidChunkSequence (.sizeMismatch (held (master :: others) n) s))
      else (checkTotals s 0 0 ((master :: others).take n)).map fun _ =>
        payloads ((master :: others).take n) := by
  rw [assemble_of_announces h hlined.pos hlined.enough,
    (checkTimestamps_take_eq_ok_iff hlined.pos).2 hlined.onTick]
  rfl

theorem held_take {records : List ChunkRecord} {n i : Nat} (h : i ≤ n) :
    held (records.take n) i = held records i := by
  rw [held, held, List.take_take, Nat.min_eq_left h]

theorem assemble_eq_of_verdict {master : ChunkRecord} {others : List ChunkRecord}
    {result : Except Error Bytes} (h : Verdict master others result) : assemble master others = result := by
  cases h with
  | countUnreadable hcount hread =>
    rw [assemble, numberTag_of_unreadable hcount hread]
    rfl
  | sizeMissing hcount hsize =>
    rw [assemble, numberTag_eq_ok_iff.2 hcount, numberTag_of_missing hsize]
    rfl
  | sizeUnreadable hcount hsize hread =>
    rw [assemble, numberTag_eq_ok_iff.2 hcount, numberTag_of_unreadable hsize hread]
    rfl
  | countZero h hcount =>
    rw [assemble, numberTag_eq_ok_iff.2 h.count, numberTag_eq_ok_iff.2 h.size, hcount]
    rfl
  | incomplete h hfew =>
    rw [assemble, numberTag_eq_ok_iff.2 h.count, numberTag_eq_ok_iff.2 h.size]
    simp only [bind, Except.bind, if_neg (Nat.ne_of_gt (Nat.zero_lt_of_lt hfew)), if_pos hfew]
    rfl
  | nonContiguous h henough hi hr hbefore hout hexpected =>
    rw [assemble_of_announces h (by omega) henough,
      checkTimestamps_take_eq_error hi hr hbefore hout hexpected]
    rfl
  | sizeMismatch h hlined hshort => rw [assemble_of_lined h hlined, if_pos hshort]
  | @sizeOverflow n s i h hlined hi hbefore hover =>
    have hle := held_mono (master :: others) (m := i + 1) (n := n) hi
    have hlt : i < ((master :: others).take n).length := by
      have := hlined.enough
      rw [List.length_take, List.length_cons]
      omega
    have hbefore' : ∀ j < i, 0 + held ((master :: others).take n) (j + 1) ≤ s := by
      intro j hj
      rw [Nat.zero_add, held_take (by omega)]
      exact hbefore j hj
    have hover' : s < 0 + held ((master :: others).take n) (i + 1) := by
      rwa [Nat.zero_add, held_take hi]
    have herror : checkTotals s 0 0 ((master :: others).take n) = _ :=
      checkTotals_eq_error hlt hbefore' hover'
    rw [assemble_of_lined h hlined, if_neg (by omega), herror, held_take hi, Nat.zero_add,
      Nat.zero_add]
    rfl
  | @whole n s h hlined hsize =>
    have hok : checkTotals s 0 0 ((master :: others).take n) = .ok () := by
      refine checkTotals_eq_ok_iff.2 fun i hi => ?_
      rw [List.length_take] at hi
      have := held_mono (master :: others) (m := i + 1) (n := n) (by omega)
      rw [held_take (by omega)]
      omega
    rw [assemble_of_lined h hlined, if_neg (by omega), hok]
    rfl

/-- There is a verdict on any records of which the first has the tag. -/
theorem exists_verdict {master : ChunkRecord} (others : List ChunkRecord) (hmaster : master.isMaster = true) :
    ∃ result, Verdict master others result := by
  -- The cases are split in the order in which the faults take precedence.
  rcases tagged_or master chunksTag with ⟨n, hcount⟩ | hcount | ⟨text, hcount, hread⟩
  · rcases tagged_or master sizeTag with ⟨s, hsize⟩ | hsize | ⟨text, hsize, hread⟩
    · have h : Announces master n s := ⟨hcount, hsize⟩
      by_cases hzero : n = 0
      · subst hzero
        obtain ⟨text, htext, -⟩ := hcount
        exact ⟨_, .countZero h htext⟩
      by_cases hfew : others.length + 1 < n
      · exact ⟨_, .incomplete h hfew⟩
      by_cases htick : ∀ i < n, OnTick master others i
      · have hlined : Lined master others n := ⟨by omega, by omega, htick⟩
        rcases Nat.lt_trichotomy (held (master :: others) n) s with hlt | heq | hgt
        · exact ⟨_, .sizeMismatch h hlined hlt⟩
        · exact ⟨_, .whole h hlined heq⟩
        · have hover : ¬ ∀ i < n, held (master :: others) (i + 1) ≤ s := fun hall => by
            have := hall (n - 1) (by omega)
            rw [Nat.sub_add_cancel (by omega)] at this
            omega
          obtain ⟨i, hi, hbefore, hout⟩ := exists_first_not hover
          exact ⟨_, .sizeOverflow h hlined hi hbefore (Nat.not_le.1 hout)⟩
      · obtain ⟨i, hi, hbefore, hout⟩ := exists_first_not htick
        obtain ⟨expected, hexpected⟩ := exists_clamped_sub master.timestamp i
        have hlt : i < (master :: others).length := by
          rw [List.length_cons]
          omega
        exact ⟨_, .nonContiguous h (by omega) hi (List.getElem?_eq_getElem hlt) hbefore hout hexpected⟩
    · exact ⟨_, .sizeMissing hcount hsize⟩
    · exact ⟨_, .sizeUnreadable hcount hsize hread⟩
  · simp [isMaster, SortedMap.contains, hcount] at hmaster
  · exact ⟨_, .countUnreadable hcount hread⟩

theorem reconstruct_of_isMaster {master : ChunkRecord} {others : List ChunkRecord}
    (hmaster : master.isMaster = true) (hpayload : master.payload ≠ []) :
    Document.reconstruct (master :: others) = (assemble master others >>= Document.ofPayload).map some := by
  rw [Document.reconstruct, if_neg (by simpa using hpayload), if_pos hmaster]
  simp only [bind_pure_comp]
  exact (map_bind some (assemble master others) Document.ofPayload).symm

theorem reconstruct_of_not_isMaster {master : ChunkRecord} {others : List ChunkRecord}
    (hmaster : master.isMaster = false) (hpayload : master.payload ≠ []) :
    Document.reconstruct (master :: others) = (Document.ofPayload master.payload).map some := by
  rw [Document.reconstruct, if_neg (by simpa using hpayload), if_neg (by simp [hmaster]), ok_bind]
  exact bind_pure_comp some (Document.ofPayload master.payload)

/-- A sequence whose first record is not empty is joined if and only if everything that its tags
announce is so, and then into something; otherwise the fault is the one that the verdict names. -/
theorem assemble_iff_verdict (master : ChunkRecord) (others : List ChunkRecord)
    (hmaster : master.isMaster = true) (hpayload : master.payload ≠ []) :
    (∀ result, assemble master others = result ↔ Verdict master others result) ∧
    (∀ buffer, assemble master others = .ok buffer ↔
      ∃ n s, Announces master n s ∧ Lined master others n ∧ held (master :: others) n = s ∧
        buffer = payloads ((master :: others).take n)) ∧
    (∀ buffer, assemble master others = .ok buffer → buffer ≠ []) ∧
    Document.reconstruct (master :: others) =
      (assemble master others).bind fun buffer => (Document.ofPayload buffer).map some := by
  have hverdict : ∀ result, assemble master others = result ↔ Verdict master others result := by
    intro result
    refine ⟨fun h => ?_, assemble_eq_of_verdict⟩
    obtain ⟨found, hfound⟩ := exists_verdict others hmaster
    rwa [← h, assemble_eq_of_verdict hfound]
  have hok : ∀ buffer, assemble master others = .ok buffer ↔
      ∃ n s, Announces master n s ∧ Lined master others n ∧ held (master :: others) n = s ∧
        buffer = payloads ((master :: others).take n) := by
    intro buffer
    rw [hverdict]
    constructor
    · intro h
      cases h with
      | whole h hlined hsize => exact ⟨_, _, h, hlined, hsize, rfl⟩
    · rintro ⟨n, s, h, hlined, hsize, rfl⟩
      exact .whole h hlined hsize
  refine ⟨hverdict, hok, ?_, ?_⟩
  · intro buffer h hnil
    obtain ⟨n, s, -, hlined, -, rfl⟩ := (hok buffer).1 h
    rw [← take_cons hlined.pos, payloads, List.flatMap_cons, List.append_eq_nil_iff] at hnil
    exact hpayload hnil.1
  · rw [reconstruct_of_isMaster hmaster hpayload]
    cases assemble master others <;> rfl

/-- Two records in line, whose tags have a plus sign, a leading zero and white space, with an older one
behind. -/
theorem assemble_iff_verdict_two :
    let master : ChunkRecord := ⟨7, [1, 2], .ofList [(chunksTag, " +2"), (sizeTag, "003 ")]⟩
    let others : List ChunkRecord := [⟨6, [3], .empty⟩, ⟨1, [4], .empty⟩]
    master.isMaster = true ∧ master.payload ≠ [] ∧ Verdict master others (.ok [1, 2, 3]) := by
  intro master others
  have hmaster : master.isMaster = true := by decide
  have hjoined : assemble master others = .ok [1, 2, 3] := by decide
  exact ⟨hmaster, by decide, ((assemble_iff_verdict master others hmaster (by decide)).1 _).1 hjoined⟩

end Inventory.ChunkRecord
