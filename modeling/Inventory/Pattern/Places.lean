/-! # Sets of places

A place in a text is counted from its end, so a text of `n` characters has the places `n` to 0. A set of
places is a number whose bit `i` tells whether the place `i` is in it. Steps go from higher places to lower
ones. `testBit_glide_landings` says what any number of steps of one place each reach.
-/

namespace Inventory

/-- A set of places in a text. -/
abbrev Places := Nat

namespace Places

/-- The set of the places whose bits are given, the highest one first. -/
def ofBits (bits : List Bool) : Places :=
  bits.foldl (fun places b => 2 * places + b.toNat) 0

def single (place : Nat) : Places :=
  1 <<< place

def lowest (count : Nat) : Places :=
  1 <<< count - 1

def without (places others : Places) : Places :=
  places - (places &&& others)

theorem ofBits_cons (b : Bool) (bits : List Bool) :
    ofBits (b :: bits) = ofBits bits + if b then single bits.length else 0 := by
  have h : ∀ start : Nat, bits.foldl (fun places b => 2 * places + b.toNat) start =
      ofBits bits + start * single bits.length := by
    induction bits with
    | nil => simp [ofBits, single]
    | cons head rest ih =>
      intro start
      rw [ofBits, List.foldl_cons, List.foldl_cons, ih, ih (2 * 0 + head.toNat), List.length_cons,
        single, single, Nat.shiftLeft_succ]
      grind
  rw [ofBits, List.foldl_cons, h]
  cases b <;> simp

theorem single_pos (place : Nat) : 0 < single place := by
  rw [single, Nat.one_shiftLeft]
  exact Nat.two_pow_pos place

theorem without_le (places others : Places) : places.without others ≤ places :=
  Nat.sub_le _ _

theorem shiftRight_lt {places : Places} (h : places ≠ 0) (k : Nat) :
    places >>> (1 <<< k) < places := by
  rw [Nat.shiftRight_eq_div_pow]
  exact Nat.div_lt_self (Nat.pos_of_ne_zero h)
    (Nat.one_lt_two_pow (Nat.ne_of_gt (single_pos k)))

/-- The sets of places where `1 <<< k` steps can end, where twice as many can, and so on as long as there are
any, given the first of them. -/
def landings (k : Nat) (places : Places) : List Places :=
  if places = 0 then [] else places :: landings (k + 1) (places &&& places >>> (1 <<< k))
termination_by places
decreasing_by
  exact Nat.lt_of_le_of_lt Nat.and_le_right (shiftRight_lt ‹_› k)

/-- What is reached in any number of steps, where `landings` tells where a number of steps can end. -/
def glide (k : Nat) : (landings : List Places) → Places → Places
  | [], starts => starts
  | places :: rest, starts => glide (k + 1) rest (starts ||| starts >>> (1 <<< k) &&& places)

theorem testBit_glide {steps : Nat → Bool} {k : Nat} {places : Places}
    (h : ∀ e, places.testBit e = true ↔ ∀ i < 1 <<< k, steps (e + i) = true)
    (starts : Places) (e : Nat) :
    (glide k (landings k places) starts).testBit e = true ↔
      ∃ n, starts.testBit (e + n * (1 <<< k)) = true ∧ ∀ i < n * (1 <<< k), steps (e + i) = true := by
  fun_induction landings k places generalizing starts with
  | case1 k =>
    constructor
    · intro he
      exact ⟨0, by simpa [glide] using he, by simp⟩
    · rintro ⟨n, hstart, hsteps⟩
      cases n with
      | zero => simpa [glide] using hstart
      | succ n =>
        have hno := (h e).2 fun i hi => hsteps i (by rw [Nat.succ_mul]; omega)
        simp at hno
  | case2 k places hne ih =>
    have hdouble : 1 <<< (k + 1) = 1 <<< k + 1 <<< k := by rw [Nat.shiftLeft_succ, Nat.two_mul]
    rw [glide, ih fun e => ?_, hdouble]
    · simp only [Nat.testBit_or, Nat.testBit_and, Nat.testBit_shiftRight, Bool.or_eq_true,
        Bool.and_eq_true, h]
      generalize 1 <<< k = w
      constructor
      · rintro ⟨n, hstart | ⟨hstart, hland⟩, hsteps⟩
        · rw [Nat.mul_add] at hstart hsteps
          exact ⟨n + n, by rwa [Nat.add_mul], by rwa [Nat.add_mul]⟩
        · rw [Nat.mul_add] at hstart hsteps hland
          refine ⟨n + n + 1, ?_, fun i hi => ?_⟩
          · rw [Nat.add_mul, Nat.add_mul, Nat.one_mul]
            rwa [show e + (n * w + n * w + w) = w + (e + (n * w + n * w)) by omega]
          · rw [Nat.add_mul, Nat.add_mul, Nat.one_mul] at hi
            by_cases hlt : i < n * w + n * w
            · exact hsteps i hlt
            · have hstep := hland (i - (n * w + n * w)) (by omega)
              rwa [show e + (n * w + n * w) + (i - (n * w + n * w)) = e + i by omega] at hstep
      · rintro ⟨n, hstart, hsteps⟩
        obtain ⟨m, rfl | rfl⟩ : ∃ m, n = m + m ∨ n = m + m + 1 := ⟨n / 2, by omega⟩
        · rw [Nat.add_mul] at hstart hsteps
          exact ⟨m, by rw [Nat.mul_add]; exact .inl hstart, by rwa [Nat.mul_add]⟩
        · rw [Nat.add_mul, Nat.add_mul, Nat.one_mul] at hstart hsteps
          refine ⟨m, ?_, fun i hi => ?_⟩
          · rw [Nat.mul_add]
            refine .inr ⟨?_, fun i hi => ?_⟩
            · rwa [show w + (e + (m * w + m * w)) = e + (m * w + m * w + w) by omega]
            · rw [Nat.add_assoc]
              exact hsteps _ (by omega)
          · rw [Nat.mul_add] at hi
            exact hsteps i (by omega)
    · rw [Nat.testBit_and, Nat.testBit_shiftRight, Bool.and_eq_true, h, h, hdouble]
      generalize 1 <<< k = w
      constructor
      · rintro ⟨hlow, hhigh⟩ i hi
        by_cases hlt : i < w
        · exact hlow i hlt
        · have hstep := hhigh (i - w) (by omega)
          rwa [show w + e + (i - w) = e + i by omega] at hstep
      · intro hsteps
        exact ⟨fun i hi => hsteps i (by omega), fun i hi => by
          rw [show w + e + i = e + (i + w) by omega]; exact hsteps _ (by omega)⟩

/-- Gliding over a set of places reaches all that lies below a place of it without a gap. -/
theorem testBit_glide_landings (places starts : Places) (e : Nat) :
    (glide 0 (landings 0 (places >>> 1)) starts).testBit e = true ↔
      ∃ n, starts.testBit (e + n) = true ∧ ∀ i < n, places.testBit (e + i + 1) = true := by
  have h := @testBit_glide (fun place => places.testBit (place + 1)) 0 (places >>> 1) (fun e => by
    rw [Nat.testBit_shiftRight, Nat.add_comm]
    simp only [Nat.shiftLeft_zero, Nat.lt_one_iff, forall_eq, Nat.add_zero]) starts e
  simpa only [Nat.shiftLeft_zero, Nat.mul_one] using h

/-- All that is reached from a set of places, besides `found`, when `ends` has for each place the places
reached from it, itself and those reached from any of these among them. -/
def follow (ends : Array Places) (places found : Places) : Places :=
  if places = 0 then found
  else
    let place := places.log2
    let reached := ends.getD place 0
    follow ends ((places - single place).without reached) (found ||| reached)
termination_by places
decreasing_by
  exact Nat.lt_of_le_of_lt (without_le _ _)
    (Nat.sub_lt (Nat.pos_of_ne_zero ‹_›) (single_pos _))

/-- What is reached from each place in any number of steps, given what is reached in one step from each, the
lowest place first. -/
def closure (steps : List Places) : Array Places :=
  steps.foldl (fun ends step =>
    let place := single ends.size
    ends.push (follow ends (step % place) place)) #[]

end Places

end Inventory
