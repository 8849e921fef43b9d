import Inventory.Text.Blank
import Inventory.Text.Natural
import Mathlib.Data.List.Basic
import Mathlib.Data.List.TakeWhile

/-! # Texts that name numbers

Which texts name which number is said here without a reader: digits, perhaps after a plus sign, with any
white space around them. `natural?` on a trimmed text finds exactly that number as long as it is below
the bound (`natural?_trimChars_eq_some_iff`), so a text names at most one number.
-/

namespace Inventory.Text

def digitsValue (digits : List Char) : Nat :=
  digits.foldl (fun value c => value * 10 + (c.toNat - '0'.toNat)) 0

/-- An optional plus sign and at least one digit. -/
def Signed (cs : List Char) (n : Nat) : Prop :=
  ∃ sign digits, cs = sign ++ digits ∧ (sign = [] ∨ sign = ['+']) ∧ digits ≠ [] ∧
    (∀ c ∈ digits, c.isDigit = true) ∧ digitsValue digits = n

/-- A number as it may stand in a tag, with white space around it. -/
def Names (cs : List Char) (n : Nat) : Prop :=
  ∃ before core after, cs = before ++ core ++ after ∧ (∀ c ∈ before, isBlank c = true) ∧
    (∀ c ∈ after, isBlank c = true) ∧ Signed core n

theorem digitsValue?_eq_some_iff {value n : Nat} {digits : List Char} :
    digitsValue? value digits = some n ↔ (∀ c ∈ digits, c.isDigit = true) ∧
      digits.foldl (fun value c => value * 10 + (c.toNat - '0'.toNat)) value = n := by
  induction digits generalizing value with
  | nil => simp [digitsValue?]
  | cons c rest ih =>
    by_cases hc : c.isDigit = true
    · simp [digitsValue?, digitValue?, hc, ih]
    · simp [digitsValue?, digitValue?, hc]

theorem natural?_eq_some_iff {bound n : Nat} {cs : List Char} :
    natural? bound cs = some n ↔ Signed cs n ∧ n < bound := by
  have hread : ∀ digits : List Char,
      (if digits.isEmpty then none else (digitsValue? 0 digits).filter (· < bound)) = some n ↔
        (digits ≠ [] ∧ (∀ c ∈ digits, c.isDigit = true) ∧ digitsValue digits = n) ∧ n < bound := by
    intro digits
    cases digits with
    | nil => simp
    | cons c rest =>
      simp only [List.isEmpty_cons, Bool.false_eq_true, if_false, Option.filter_eq_some_iff,
        digitsValue?_eq_some_iff, decide_eq_true_eq]
      simp [digitsValue]
  unfold natural?
  split
  · next rest =>
    rw [hread]
    constructor
    · rintro ⟨h, hn⟩
      exact ⟨⟨['+'], rest, rfl, .inr rfl, h⟩, hn⟩
    · rintro ⟨⟨sign, digits, hcs, hsign, hne, hdigits, hvalue⟩, hn⟩
      rcases hsign with rfl | rfl
      · have hplus := hdigits '+' (by rw [← List.nil_append digits, ← hcs]; exact List.mem_cons_self)
        exact absurd hplus (by decide)
      · cases hcs
        exact ⟨⟨hne, hdigits, hvalue⟩, hn⟩
  · next hplus =>
    rw [hread]
    constructor
    · rintro ⟨h, hn⟩
      exact ⟨⟨[], cs, rfl, .inl rfl, h⟩, hn⟩
    · rintro ⟨⟨sign, digits, hcs, hsign, hne, hdigits, hvalue⟩, hn⟩
      rcases hsign with rfl | rfl
      · cases hcs
        exact ⟨⟨hne, hdigits, hvalue⟩, hn⟩
      · exact absurd hcs (hplus digits)

theorem isBlank_eq_false_of_isDigit {c : Char} (h : c.isDigit = true) : isBlank c = false := by
  simp only [Char.isDigit, Bool.and_eq_true, decide_eq_true_eq, ge_iff_le, UInt32.le_iff_toNat_le] at h
  obtain ⟨hlow, hhigh⟩ : 48 ≤ c.toNat ∧ c.toNat ≤ 57 := h
  simp only [isBlank, blankRanges, List.any_cons, List.any_nil, Bool.or_eq_false_iff,
    Bool.and_eq_false_iff, decide_eq_false_iff_not, and_true]
  omega

theorem dropBlank_append {before rest : List Char} (h : ∀ c ∈ before, isBlank c = true) :
    dropBlank (before ++ rest) = dropBlank rest := by
  induction before with
  | nil => rfl
  | cons c before ih =>
    rw [dropBlank, List.cons_append, List.dropWhile_cons_of_pos (h c List.mem_cons_self)]
    exact ih fun d hd => h d (List.mem_cons_of_mem _ hd)

theorem exists_of_dropBlank (cs : List Char) :
    ∃ before, cs = before ++ dropBlank cs ∧ ∀ c ∈ before, isBlank c = true := by
  refine ⟨cs.takeWhile isBlank, (List.takeWhile_append_dropWhile).symm, ?_⟩
  intro c hc
  exact List.mem_takeWhile_imp hc

theorem exists_of_trimChars (cs : List Char) :
    ∃ before after, cs = before ++ trimChars cs ++ after ∧ (∀ c ∈ before, isBlank c = true) ∧
      ∀ c ∈ after, isBlank c = true := by
  obtain ⟨before, hbefore, hblank⟩ := exists_of_dropBlank cs
  obtain ⟨after, hafter, hblank'⟩ := exists_of_dropBlank (dropBlank cs).reverse
  refine ⟨before, after.reverse, ?_, hblank, fun c hc => hblank' c (List.mem_reverse.1 hc)⟩
  rw [trimChars, List.append_assoc, ← List.reverse_append, ← hafter, List.reverse_reverse]
  exact hbefore

theorem trimChars_append {before core after : List Char} (hbefore : ∀ c ∈ before, isBlank c = true)
    (hafter : ∀ c ∈ after, isBlank c = true) (hfirst : ∀ c ∈ core.head?, isBlank c = false)
    (hlast : ∀ c ∈ core.getLast?, isBlank c = false) : trimChars (before ++ core ++ after) = core := by
  have hkeep : ∀ cs rest : List Char, (∀ c ∈ cs.head?, isBlank c = false) → cs ≠ [] →
      dropBlank (cs ++ rest) = cs ++ rest := by
    intro cs rest hhead hne
    cases cs with
    | nil => exact absurd rfl hne
    | cons c cs => exact List.dropWhile_cons_of_neg (by simpa using hhead c rfl)
  have hreverse : ∀ c ∈ after.reverse, isBlank c = true := fun c hc => hafter c (List.mem_reverse.1 hc)
  by_cases hcore : core = []
  · subst hcore
    rw [trimChars, List.append_nil, dropBlank_append hbefore]
    have hnil : dropBlank after = [] := List.dropWhile_eq_nil_iff.2 hafter
    rw [hnil]
    rfl
  · rw [trimChars, List.append_assoc, dropBlank_append hbefore, hkeep core after hfirst hcore,
      List.reverse_append, dropBlank_append hreverse]
    have hend := hkeep core.reverse [] (by simpa using hlast) (by simpa using hcore)
    rw [List.append_nil] at hend
    rw [hend, List.reverse_reverse]

theorem trimChars_of_forall {cs : List Char} (h : ∀ c ∈ cs, isBlank c = false) : trimChars cs = cs := by
  have htrim : trimChars ([] ++ cs ++ []) = cs := by
    apply trimChars_append (List.forall_mem_nil _) (List.forall_mem_nil _)
    · exact fun c hc => h c (List.mem_of_mem_head? hc)
    · exact fun c hc => h c (List.mem_of_getLast? hc)
  rwa [List.nil_append, List.append_nil] at htrim

theorem Signed.head_not_blank {cs : List Char} {n : Nat} (h : Signed cs n) :
    ∀ c ∈ cs.head?, isBlank c = false := by
  obtain ⟨sign, digits, rfl, hsign, hne, hdigits, -⟩ := h
  intro c hc
  rcases hsign with rfl | rfl
  · exact isBlank_eq_false_of_isDigit (hdigits c (List.mem_of_mem_head? hc))
  · cases hc
    decide

theorem Signed.last_not_blank {cs : List Char} {n : Nat} (h : Signed cs n) :
    ∀ c ∈ cs.getLast?, isBlank c = false := by
  obtain ⟨sign, digits, rfl, hsign, hne, hdigits, -⟩ := h
  intro c hc
  rw [List.getLast?_append_of_ne_nil _ hne] at hc
  exact isBlank_eq_false_of_isDigit (hdigits c (List.mem_of_getLast? hc))

theorem natural?_trimChars_eq_some_iff {bound n : Nat} {cs : List Char} :
    natural? bound (trimChars cs) = some n ↔ Names cs n ∧ n < bound := by
  rw [natural?_eq_some_iff]
  constructor
  · rintro ⟨h, hn⟩
    obtain ⟨before, after, hcs, hbefore, hafter⟩ := exists_of_trimChars cs
    exact ⟨⟨before, trimChars cs, after, hcs, hbefore, hafter, h⟩, hn⟩
  · rintro ⟨⟨before, core, after, rfl, hbefore, hafter, h⟩, hn⟩
    rw [trimChars_append hbefore hafter h.head_not_blank h.last_not_blank]
    exact ⟨h, hn⟩

theorem isDigit_digitChar {d : Nat} (h : d < 10) : (digitChar d).isDigit = true := by
  have : ∀ d : Fin 10, (digitChar d).isDigit = true := by decide
  exact this ⟨d, h⟩

theorem isDigit_of_mem_decimal {n : Nat} {c : Char} (h : c ∈ decimal n) : c.isDigit = true := by
  induction n using decimal.induct with
  | case1 n hn =>
    rw [decimal, if_pos hn, List.mem_singleton] at h
    exact h ▸ isDigit_digitChar hn
  | case2 n hn ih =>
    rw [decimal, if_neg hn, List.mem_append, List.mem_singleton] at h
    rcases h with h | rfl
    · exact ih h
    · exact isDigit_digitChar (Nat.mod_lt _ (by decide))

theorem decimal_ne_nil (n : Nat) : decimal n ≠ [] := by
  rw [decimal]
  split <;> simp

theorem names_decimal (n : Nat) : Names (decimal n) n := by
  have hvalue := (digitsValue?_eq_some_iff.1 (digitsValue?_decimal n)).2
  exact ⟨[], decimal n, [], by simp, by simp, by simp, [], decimal n, rfl, .inl rfl, decimal_ne_nil n,
    fun c hc => isDigit_of_mem_decimal hc, hvalue⟩

end Inventory.Text
