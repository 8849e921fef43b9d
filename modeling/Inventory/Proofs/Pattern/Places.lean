import Inventory.Pattern.Places
import Mathlib.Data.List.Induction
import Mathlib.Data.Nat.Bitwise
import Mathlib.Logic.Relation

/-! # Which places are in a set

Each operation on sets of places is described by the places in its result. What is followed from a set of
places is all that is reached from one of them (`testBit_follow`), and `closure` has what is reached from each
place in any number of steps, for steps that do not go back (`testBit_closure`).
-/

namespace Inventory.Places

open Relation

variable {places starts : Places} {place e : Nat}

theorem testBit_single : (single place).testBit e = true ↔ e = place := by
  rw [single, Nat.one_shiftLeft, Nat.testBit_two_pow, decide_eq_true_eq]
  exact eq_comm

theorem testBit_lowest {count : Nat} : (lowest count).testBit e = true ↔ e < count := by
  rw [lowest, Nat.one_shiftLeft, Nat.testBit_two_pow_sub_one, decide_eq_true_eq]

theorem testBit_sub_and (a b e : Nat) : (a - (a &&& b)).testBit e = (a.testBit e && !b.testBit e) := by
  induction e generalizing a b with
  | zero =>
    have hle : a &&& b ≤ a := Nat.and_le_left
    have hbit : (a &&& b) % 2 = 1 ↔ a % 2 = 1 ∧ b % 2 = 1 := Nat.and_mod_two_eq_one
    simp only [Nat.testBit_zero, ← decide_not, ← Bool.decide_and]
    apply decide_eq_decide.2
    omega
  | succ e ih =>
    have hle : (a / 2) &&& (b / 2) ≤ a / 2 := Nat.and_le_left
    have hhalf : (a &&& b) / 2 = a / 2 &&& b / 2 := Nat.and_div_two
    have hbit : (a &&& b) % 2 = 1 ↔ a % 2 = 1 ∧ b % 2 = 1 := Nat.and_mod_two_eq_one
    have hdiff : (a - (a &&& b)) / 2 = a / 2 - (a / 2 &&& b / 2) := by omega
    rw [Nat.testBit_succ, hdiff, ih, Nat.testBit_succ, Nat.testBit_succ]

theorem testBit_without (places others : Places) (e : Nat) :
    (places.without others).testBit e = (places.testBit e && !others.testBit e) :=
  testBit_sub_and places others e

theorem sub_single (h : places.testBit place = true) : places - single place = places.without (single place) := by
  have hand : places &&& single place = single place := by
    apply Nat.eq_of_testBit_eq
    intro e
    rw [Nat.testBit_and]
    cases hsingle : (single place).testBit e with
    | false => rw [Bool.and_false]
    | true =>
      obtain rfl := testBit_single.1 hsingle
      rw [h, Bool.and_true]
  rw [without, hand]

theorem ofBits_cons_eq (b : Bool) (bits : List Bool) :
    ofBits (b :: bits) = (2 : Nat) ^ bits.length * b.toNat + ofBits bits := by
  rw [ofBits_cons, Nat.add_comm, single, Nat.one_shiftLeft]
  cases b with
  | false => rw [if_neg Bool.false_ne_true, Bool.toNat_false, Nat.mul_zero]
  | true => rw [if_pos rfl, Bool.toNat_true, Nat.mul_one]

theorem ofBits_lt (bits : List Bool) : ofBits bits < (2 : Nat) ^ bits.length := by
  induction bits with
  | nil => exact Nat.one_pos
  | cons b rest ih =>
    rw [ofBits_cons_eq, List.length_cons, Nat.pow_succ]
    apply Nat.lt_of_lt_of_le (Nat.add_lt_add_left ih _)
    rw [← Nat.mul_succ]
    exact Nat.mul_le_mul_left _ (Nat.succ_le_succ b.toNat_le)

theorem testBit_ofBits_cons (b : Bool) (bits : List Bool) :
    (ofBits (b :: bits)).testBit e = if e < bits.length then (ofBits bits).testBit e
      else b && decide (e = bits.length) := by
  rw [ofBits_cons_eq, Nat.testBit_two_pow_mul_add _ (ofBits_lt bits)]
  split
  · rfl
  · next h =>
    have hend : e - bits.length = 0 ↔ e = bits.length := by omega
    rw [Nat.testBit_bool_toNat, Bool.and_comm, decide_eq_decide.2 hend]

/-! ### Following steps -/

theorem testBit_follow {ends : Array Places} {Reach : Nat → Nat → Prop}
    (htrans : ∀ a b c, Reach a b → Reach b c → Reach a c) {found : Places}
    (hends : ∀ q, places.testBit q = true → ∀ e, (ends.getD q 0).testBit e = true ↔ Reach q e) :
    (follow ends places found).testBit e = true ↔
      found.testBit e = true ∨ ∃ q, places.testBit q = true ∧ Reach q e := by
  fun_induction follow ends places found with
  | case1 found =>
    constructor
    · exact Or.inl
    · rintro (h | ⟨q, hq, -⟩)
      · exact h
      · rw [Nat.zero_testBit] at hq
        cases hq
  | case2 places found hne place reached ih =>
    have hplace : places.testBit place = true := Nat.testBit_log2 hne
    have hreached : ∀ e, reached.testBit e = true ↔ Reach place e := hends place hplace
    -- What is left out besides the place itself was reached from it, so it reaches nothing new.
    have hleft : ∀ q, ((places - single place).without reached).testBit q = true ↔
        (places.testBit q = true ∧ q ≠ place) ∧ ¬ Reach place q := by
      intro q
      rw [sub_single hplace, testBit_without, testBit_without, Bool.and_eq_true, Bool.and_eq_true,
        Bool.not_eq_true', Bool.not_eq_true', ← Bool.not_eq_true, ← Bool.not_eq_true, testBit_single, hreached]
    rw [ih fun q hq => hends q ((hleft q).1 hq).1.1, Nat.testBit_or, Bool.or_eq_true, hreached]
    constructor
    · rintro ((h | h) | ⟨q, hq, hqe⟩)
      · exact .inl h
      · exact .inr ⟨place, hplace, h⟩
      · exact .inr ⟨q, ((hleft q).1 hq).1.1, hqe⟩
    · rintro (h | ⟨q, hq, hqe⟩)
      · exact .inl (.inl h)
      · by_cases hfrom : q = place
        · subst hfrom
          exact .inl (.inr hqe)
        · by_cases hsoon : Reach place q
          · exact .inl (.inr (htrans _ _ _ hsoon hqe))
          · exact .inr ⟨q, (hleft q).2 ⟨⟨hq, hfrom⟩, hsoon⟩, hqe⟩

variable {Step : Nat → Nat → Prop}

theorem exists_lower_of_reach (hdown : ∀ s e, Step s e → e ≤ s) (h : ReflTransGen Step place e) :
    e = place ∨ ∃ q < place, Step place q ∧ ReflTransGen Step q e := by
  induction h using ReflTransGen.head_induction_on with
  | refl => exact .inl rfl
  | head hstep hrest ih =>
    rcases Nat.lt_or_eq_of_le (hdown _ _ hstep) with hlt | heq
    · exact .inr ⟨_, hlt, hstep, hrest⟩
    · rwa [heq] at ih

theorem closure_concat (steps : List Places) (step : Places) :
    closure (steps ++ [step]) =
      (closure steps).push (follow (closure steps) (step % single (closure steps).size)
        (single (closure steps).size)) := by
  rw [closure, List.foldl_append]
  rfl

theorem size_closure (steps : List Places) : (closure steps).size = steps.length := by
  induction steps using List.reverseRecOn with
  | nil => rfl
  | append_singleton steps step ih => rw [closure_concat, Array.size_push, ih, List.length_append, List.length_singleton]

theorem testBit_mod_single : (places % single place).testBit e = true ↔ e < place ∧ places.testBit e = true := by
  rw [single, Nat.one_shiftLeft, Nat.testBit_mod_two_pow, Bool.and_eq_true, decide_eq_true_eq]

theorem testBit_closure (hdown : ∀ s e, Step s e → e ≤ s) {size : Nat} {steps : Nat → Places}
    (hsteps : ∀ s < size, ∀ e, (steps s).testBit e = true ↔ Step s e) (hplace : place < size) :
    ((closure ((List.range size).map steps)).getD place 0).testBit e = true ↔ ReflTransGen Step place e := by
  induction size generalizing place e with
  | zero => cases hplace
  | succ size ih =>
    have hbefore : ∀ {q : Nat}, q < size → ∀ e,
        ((closure ((List.range size).map steps)).getD q 0).testBit e = true ↔ ReflTransGen Step q e :=
      fun hq e => ih (fun s hs => hsteps s (Nat.lt_succ_of_lt hs)) hq
    have hsize : (closure ((List.range size).map steps)).size = size := by
      rw [size_closure, List.length_map, List.length_range]
    rw [List.range_succ, List.map_append, List.map_singleton, closure_concat, hsize,
      Array.getD_eq_getD_getElem?, Array.getElem?_push, hsize]
    rcases Nat.lt_succ_iff_lt_or_eq.1 hplace with hlt | rfl
    · rw [if_neg (Nat.ne_of_lt hlt), ← Array.getD_eq_getD_getElem?]
      exact hbefore hlt e
    · have hfirst : ∀ q, (steps place % single place).testBit q = true ↔ q < place ∧ Step place q := by
        intro q
        rw [testBit_mod_single, hsteps place (Nat.lt_succ_self place)]
      rw [if_pos rfl, Option.getD_some, testBit_follow (fun _ _ _ => ReflTransGen.trans)
        fun q hq => hbefore ((hfirst q).1 hq).1, testBit_single]
      constructor
      · rintro (rfl | ⟨q, hq, hqe⟩)
        · exact .refl
        · exact .head ((hfirst q).1 hq).2 hqe
      · intro h
        rcases exists_lower_of_reach hdown h with heq | ⟨q, hlt, hstep, hqe⟩
        · exact .inl heq
        · exact .inr ⟨q, (hfirst q).2 ⟨hlt, hstep⟩, hqe⟩

/-- Steps of one place each from the places of a set. -/
theorem reach_downward_iff {s : Nat} :
    ReflTransGen (fun s e => s = e + 1 ∧ places.testBit s = true) s e ↔
      ∃ n, s = e + n ∧ ∀ i < n, places.testBit (e + i + 1) = true := by
  constructor
  · intro h
    induction h using ReflTransGen.head_induction_on with
    | refl => exact ⟨0, rfl, fun i hi => absurd hi (Nat.not_lt_zero i)⟩
    | head hstep _ ih =>
      obtain ⟨rfl, hplace⟩ := hstep
      obtain ⟨n, rfl, hbelow⟩ := ih
      refine ⟨n + 1, rfl, fun i hi => ?_⟩
      rcases Nat.lt_succ_iff_lt_or_eq.1 hi with hlt | rfl
      · exact hbelow i hlt
      · exact hplace
  · rintro ⟨n, rfl, hbelow⟩
    induction n with
    | zero => exact .refl
    | succ n ih =>
      exact .head ⟨rfl, hbelow n (Nat.lt_succ_self n)⟩ (ih fun i hi => hbelow i (Nat.lt_succ_of_lt hi))

end Inventory.Places
