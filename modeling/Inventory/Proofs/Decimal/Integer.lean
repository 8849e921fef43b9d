import Inventory.Decimal.Numeral
import Inventory.Proofs.Text.Naming

/-! # Integers as numerals

What `Text.decimal` writes for a number is a numeral without a leading zero, and the number of that
numeral is the one written, as long as 64 bits hold it, with or without a sign.
-/

namespace Inventory

namespace Text

/-- Only zero is written with a leading zero. -/
theorem decimal_ne_zero_cons (n : Nat) (c : Char) (rest : List Char) : decimal n ≠ '0' :: c :: rest := by
  have hhead : ∀ m, 0 < m → (decimal m).head? ≠ some '0' := by
    intro m
    induction m using decimal.induct with
    | case1 m hm =>
      intro hpos
      have hdigit : ∀ d : Fin 10, 0 < d.val → digitChar d ≠ '0' := by decide
      rw [decimal, if_pos hm]
      simpa using hdigit ⟨m, hm⟩ hpos
    | case2 m hm ih =>
      intro _
      have hne := decimal_ne_nil (m / 10)
      rw [decimal, if_neg hm, List.head?_append_of_ne_nil _ hne]
      exact ih (by omega)
  intro h
  by_cases hn : n < 10
  · rw [decimal, if_pos hn] at h
    simp at h
  · exact hhead n (by omega) (by rw [h]; rfl)

theorem takeWhile_isDigit_decimal (n : Nat) : (decimal n).takeWhile Char.isDigit = decimal n :=
  List.takeWhile_eq_self_iff.2 fun _ hc => isDigit_of_mem_decimal hc

theorem dropWhile_isDigit_decimal (n : Nat) : (decimal n).dropWhile Char.isDigit = [] :=
  List.dropWhile_eq_nil_iff.2 fun _ hc => isDigit_of_mem_decimal hc

end Text

namespace Numeral

theorem readMagnitude?_decimal (negative : Bool) (n : Nat) :
    readMagnitude? negative (Text.decimal n) = some ⟨negative, Text.decimal n, [], 0, false⟩ := by
  have hdigits : digits (Text.decimal n) = (Text.decimal n, []) := by
    rw [digits, Text.takeWhile_isDigit_decimal, Text.dropWhile_isDigit_decimal]
  rw [readMagnitude?, hdigits]
  split
  · next rest heq => exact absurd (congrArg Prod.fst heq) (Text.decimal_ne_nil n)
  · next c rest tail heq => exact absurd (congrArg Prod.fst heq) (Text.decimal_ne_zero_cons n c rest)
  · next whole rest _ _ heq =>
    obtain ⟨rfl, rfl⟩ := Prod.mk.inj heq
    rfl

theorem le_foldl_digits (value : Nat) (cs : List Char) :
    value ≤ cs.foldl (fun value c => value * 10 + (c.toNat - '0'.toNat)) value := by
  induction cs generalizing value with
  | nil => exact Nat.le_refl value
  | cons c rest ih =>
    have := ih (value * 10 + (c.toNat - '0'.toNat))
    rw [List.foldl_cons]
    omega

/-- No digit is dropped from a significand that fits. -/
theorem accumulate_of_lt {value : Nat} {cs : List Char}
    (h : cs.foldl (fun value c => value * 10 + (c.toNat - '0'.toNat)) value < UInt64.size) :
    accumulate value cs = (cs.foldl (fun value c => value * 10 + (c.toNat - '0'.toNat)) value, []) := by
  induction cs generalizing value with
  | nil => rfl
  | cons c rest ih =>
    rw [List.foldl_cons] at h ⊢
    have hnext := Nat.lt_of_le_of_lt (le_foldl_digits _ rest) h
    simp only [accumulate, if_pos hnext]
    exact ih h

theorem accumulate_decimal {n : Nat} (h : n < UInt64.size) : accumulate 0 (Text.decimal n) = (n, []) := by
  have hvalue := (Text.digitsValue?_eq_some_iff.1 (Text.digitsValue?_decimal n)).2
  rw [← hvalue] at h
  rw [accumulate_of_lt h, hvalue]

theorem value_whole {negative : Bool} {n : Nat} (h : n < UInt64.size) :
    value ⟨negative, Text.decimal n, [], 0, false⟩ = integer negative n := by
  simp only [value, accumulate_decimal h, Bool.not_false, List.isEmpty_nil, Bool.and_self, if_true]

theorem read?_decimal (n : Nat) :
    read? (Text.decimal n) = some ⟨false, Text.decimal n, [], 0, false⟩ := by
  unfold read?
  split
  · next cs heq =>
    have hminus : '-' ∈ Text.decimal n := by rw [heq]; exact List.mem_cons_self
    exact absurd (Text.isDigit_of_mem_decimal hminus) (by decide)
  · exact readMagnitude?_decimal false n

theorem read?_minus_decimal (n : Nat) :
    read? ('-' :: Text.decimal n) = some ⟨true, Text.decimal n, [], 0, false⟩ :=
  readMagnitude?_decimal true n

end Numeral

end Inventory
