import Inventory.Pattern.Parser
import Mathlib.Data.List.TakeDrop

/-! # What is left of a pattern

Each part of the reading of a pattern leaves an end of the text it was given. So an item takes at least one character
(`Parser.step?_suffix`), and a set that is read has its closing bracket in the text (`setItems?_suffix`).
-/

namespace Inventory.Pattern

variable {flags : Flags} {cs rest : List Char} {c : Char} {p : Pattern}

theorem suffix_of_cons (h : c :: rest <:+ cs) : rest <:+ cs :=
  (List.suffix_cons c rest).trans h

theorem span_suffix {test : Char → Bool} {front : List Char} (h : cs.span test = (front, rest)) : rest <:+ cs := by
  rw [List.span_eq_takeWhile_dropWhile] at h
  rw [← (Prod.mk.inj h).2]
  exact List.dropWhile_suffix test

theorem skipVerbose_suffix (inComment : Bool) (cs : List Char) : skipVerbose inComment cs <:+ cs := by
  fun_induction skipVerbose inComment cs with
  | case1 => exact List.suffix_rfl
  | case2 c rest ih => exact ih.trans (List.suffix_cons c rest)
  | case3 c rest _ ih => exact ih.trans (List.suffix_cons c rest)
  | case4 rest _ ih => exact ih.trans (List.suffix_cons '#' rest)
  | case5 => exact List.suffix_rfl

theorem skip_suffix (flags : Flags) (cs : List Char) : skip flags cs <:+ cs := by
  unfold skip
  split
  · exact skipVerbose_suffix false cs
  · exact List.suffix_rfl

theorem suffix_of_skip (h : skip flags cs = rest) : rest <:+ cs :=
  h ▸ skip_suffix flags cs

theorem gather_suffix (verbose : Bool) (test : Char → Bool) (limit : Option Nat) (inComment : Bool) (cs : List Char) :
    (gather verbose test limit inComment cs).2 <:+ cs := by
  fun_induction gather verbose test limit inComment cs with
  | case1 => exact List.suffix_rfl
  | case2 _ c rest ih => exact ih.trans (List.suffix_cons c rest)
  | case3 => exact List.suffix_rfl
  | case4 _ c rest _ _ ih => exact ih.trans (List.suffix_cons c rest)
  | case5 _ c rest _ _ _ ih => exact ih.trans (List.suffix_cons c rest)
  | case6 _ c rest _ _ _ _ _ _ heq ih =>
    rw [heq] at ih
    exact ih.trans (List.suffix_cons c rest)
  | case7 => exact List.suffix_rfl

theorem gatherAll_suffix {test : Char → Bool} {taken : List Char} (h : gatherAll flags test cs = (taken, rest)) :
    rest <:+ cs := by
  have hrest := gather_suffix flags.verbose test none false cs
  rw [gatherAll] at h
  rwa [h] at hrest

theorem dropLazy_suffix (cs : List Char) : dropLazy cs <:+ cs := by
  unfold dropLazy
  split
  · exact List.suffix_cons _ _
  · exact List.suffix_rfl

/-! ### Escapes -/

theorem hexEscape?_suffix {width : Nat} (h : hexEscape? flags width cs = some (p, rest)) : rest <:+ cs := by
  unfold hexEscape? at h
  split at h
  · next body hskip =>
    split at h
    · next digits left hgather =>
      obtain ⟨c, -, hc⟩ := Option.map_eq_some_iff.1 h
      cases hc
      exact (suffix_of_cons (gatherAll_suffix hgather)).trans (suffix_of_cons (suffix_of_skip hskip))
    · cases h
  · dsimp only at h
    split at h
    · obtain ⟨c, -, hc⟩ := Option.map_eq_some_iff.1 h
      cases hc
      exact (gather_suffix _ _ _ _ _).trans (skip_suffix flags cs)
    · cases h

theorem edgeEscape?_suffix (h : edgeEscape? flags cs = some (p, rest)) : rest <:+ cs := by
  unfold edgeEscape? at h
  split at h
  · split at h
    · cases h
    · next hskip =>
      split at h
      · split at h
        · next hgather =>
          obtain ⟨look, -, hlook⟩ := Option.map_eq_some_iff.1 h
          cases hlook
          exact suffix_of_cons (((gatherAll_suffix hgather).trans (suffix_of_skip hskip)).trans (List.suffix_cons _ _))
        · cases h
      · cases h
        exact List.suffix_rfl
  · cases h
    exact List.suffix_rfl

theorem escape?_cons_suffix (h : escape? flags (c :: cs) = some (p, rest)) : rest <:+ cs := by
  rw [escape?.eq_def] at h
  split at h
  · next heq => cases heq
  · next heq =>
    cases heq
    exact hexEscape?_suffix h
  · next heq =>
    cases heq
    exact hexEscape?_suffix h
  · next heq =>
    cases heq
    exact hexEscape?_suffix h
  · next heq =>
    cases heq
    exact edgeEscape?_suffix h
  · next heq =>
    cases heq
    split at h
    · cases h
      exact List.suffix_rfl
    · simp only [Option.or_eq_some_iff, Option.map_eq_some_iff, Prod.mk.injEq] at h
      obtain ⟨_, _, _, rfl⟩ | ⟨_, ⟨_, _, _, rfl⟩ | ⟨_, _, _, _, rfl⟩⟩ := h <;> exact List.suffix_rfl

/-! ### Sets -/

theorem setItem?_cons_suffix (h : setItem? flags (c :: cs) = some (p, rest)) : rest <:+ cs := by
  unfold setItem? at h
  split at h
  · next heq => cases heq
  · next heq =>
    cases heq
    cases cs with
    | nil => cases h
    | cons d cs => exact (escape?_cons_suffix h).trans (List.suffix_cons d cs)
  · next heq =>
    cases heq
    cases h
    exact List.suffix_rfl

theorem namedSet?_suffix {set : CharSet} (h : namedSet? cs = some (set, rest)) : rest <:+ cs := by
  unfold namedSet? at h
  split at h
  · dsimp only at h
    split at h
    · next hname =>
      obtain ⟨_, -, hset⟩ := Option.map_eq_some_iff.1 h
      cases hset
      refine (suffix_of_cons (suffix_of_cons (span_suffix hname))).trans ?_
      split
      · exact (List.suffix_cons _ _).trans (List.suffix_cons _ _)
      · exact List.suffix_cons _ _
    · cases h
  · cases h

theorem setItem?_suffix (h : setItem? flags cs = some (p, rest)) : rest <:+ cs := by
  cases cs with
  | nil => cases h
  | cons c cs => exact (setItem?_cons_suffix h).trans (List.suffix_cons c cs)

/-- What the characters before a place mean, with the place. -/
def meant? {α β : Type} (meaning : α → Option β) (read : α × List Char) : Option (β × List Char) :=
  (meaning read.1).map (·, read.2)

theorem bind_meant?_eq_some {α β : Type} {meaning : α → Option β} {o : Option (α × List Char)} {b : β}
    (h : o.bind (meant? meaning) = some (b, rest)) : ∃ a, o = some (a, rest) ∧ meaning a = some b := by
  obtain ⟨⟨a, left⟩, hread, h⟩ := Option.bind_eq_some_iff.1 h
  obtain ⟨_, hb, hmeant⟩ := Option.map_eq_some_iff.1 h
  cases hmeant
  exact ⟨a, hread, hb⟩

def range? (first last : Pattern) : Option CharSet :=
  (charOfItem? first).bind fun low => (charOfItem? last).bind fun high =>
    if low ≤ high then some [⟨low.toNat, high.toNat⟩] else none

def rangeTo? (flags : Flags) (first : Pattern) (cs : List Char) : Option (CharSet × List Char) :=
  (setItem? flags (skip flags cs)).bind (meant? (range? first))

/-- What a set has behind an item: the end of the range that begins with it, or the item is all. -/
def rangesFrom? (flags : Flags) (first : Pattern) (cs : List Char) : Option (CharSet × List Char) :=
  match skip flags cs with
  | '-' :: rest =>
    if behindMinus flags rest = some ']' ∨ behindMinus flags rest = some '-' then
      (rangesOfItem? first).map (·, '-' :: rest)
    else rangeTo? flags first rest
  | rest => (rangesOfItem? first).map (·, rest)

theorem rangesFrom?_item {first : Pattern} (h : ∀ rest, skip flags cs ≠ '-' :: rest) :
    rangesFrom? flags first cs = (rangesOfItem? first).map (·, skip flags cs) := by
  unfold rangesFrom?
  split
  · next heq => exact absurd heq (h _)
  · rfl

theorem rangesFrom?_minus {first : Pattern} (h : skip flags cs = '-' :: rest) :
    rangesFrom? flags first cs =
      if behindMinus flags rest = some ']' ∨ behindMinus flags rest = some '-' then
        (rangesOfItem? first).map (·, '-' :: rest)
      else rangeTo? flags first rest := by
  simp only [rangesFrom?, h]

theorem setRanges?_eq (flags : Flags) (cs : List Char) :
    setRanges? flags cs = (setItem? flags cs).bind fun read => rangesFrom? flags read.1 read.2 := by
  unfold setRanges?
  refine congrArg ((setItem? flags cs).bind ·) (funext fun ⟨first, rest⟩ => ?_)
  dsimp only
  split
  · next hskip =>
    rw [rangesFrom?_minus hskip]
    split
    · cases rangesOfItem? first <;> rfl
    · refine congrArg ((setItem? flags _).bind ·) (funext fun ⟨last, rest⟩ => ?_)
      unfold meant? range?
      cases charOfItem? first with
      | none => rfl
      | some low =>
        cases charOfItem? last with
        | none => rfl
        | some high =>
          change (if low ≤ high then _ else _) = (if low ≤ high then _ else _ : Option CharSet).map _
          split <;> rfl
  · next hskip =>
    rw [rangesFrom?_item hskip]
    cases rangesOfItem? first <;> rfl

theorem rangeTo?_suffix {set : CharSet} (h : rangeTo? flags p cs = some (set, rest)) : rest <:+ cs := by
  obtain ⟨last, hlast, -⟩ := bind_meant?_eq_some h
  exact (setItem?_suffix hlast).trans (skip_suffix flags cs)

theorem rangesFrom?_suffix {set : CharSet} (h : rangesFrom? flags p cs = some (set, rest)) : rest <:+ cs := by
  unfold rangesFrom? at h
  split at h
  · next body hskip =>
    have hbody := suffix_of_skip hskip
    split at h
    · obtain ⟨ranges, -, hranges⟩ := Option.map_eq_some_iff.1 h
      cases hranges
      exact hbody
    · exact (rangeTo?_suffix h).trans (suffix_of_cons hbody)
  · obtain ⟨ranges, -, hranges⟩ := Option.map_eq_some_iff.1 h
    cases hranges
    exact skip_suffix flags cs

theorem setRanges?_cons_suffix {set : CharSet} (h : setRanges? flags (c :: cs) = some (set, rest)) : rest <:+ cs := by
  rw [setRanges?_eq] at h
  obtain ⟨⟨first, left⟩, hfirst, h⟩ := Option.bind_eq_some_iff.1 h
  exact (rangesFrom?_suffix h).trans (setItem?_cons_suffix hfirst)

/-- The items of a set end with its closing bracket. -/
theorem setItems?_suffix {fuel : Nat} {found set : CharSet} (h : setItems? flags fuel found cs = some (set, rest)) :
    ']' :: rest <:+ cs := by
  induction fuel generalizing found cs with
  | zero => cases h
  | succ fuel ih =>
    rw [setItems?] at h
    split at h
    · next hskip =>
      cases h
      exact suffix_of_skip hskip
    · next body hskip =>
      obtain ⟨⟨named, left⟩, hnamed, h⟩ := Option.bind_eq_some_iff.1 h
      exact ((ih h).trans (namedSet?_suffix hnamed)).trans (suffix_of_cons (suffix_of_skip hskip))
    · cases h
    · cases h
    · cases h
    · obtain ⟨⟨ranges, left⟩, hranges, h⟩ := Option.bind_eq_some_iff.1 h
      refine (ih h).trans (List.IsSuffix.trans ?_ (skip_suffix flags cs))
      cases hnext : skip flags cs with
      | nil =>
        rw [hnext] at hranges
        cases hranges
      | cons d tail =>
        rw [hnext] at hranges
        exact (setRanges?_cons_suffix hranges).trans (List.suffix_cons d tail)

theorem setItems?_eq_none {fuel : Nat} {found : CharSet} (h : ']' ∉ cs) : setItems? flags fuel found cs = none := by
  rw [Option.eq_none_iff_forall_ne_some]
  rintro ⟨set, rest⟩ hset
  exact h ((setItems?_suffix hset).subset List.mem_cons_self)

def setSign : List Char → Bool × List Char
  | '^' :: rest => (true, rest)
  | cs => (false, cs)

/-- The items at the front of a set that are marks anywhere else in it, and the text behind them. -/
def setLead (flags : Flags) (cs : List Char) : CharSet × List Char :=
  match gatherAll flags (· == '-') cs with
  | ([], ']' :: rest) => ([.single ']'], rest)
  | (dashes, rest) => (dashes.map CharRange.single, rest)

def setPattern (flags : Flags) (negated : Bool) (ranges : CharSet) : Pattern :=
  let set := CharSet.ofRanges ranges
  let set := if flags.ignoreCase then set.foldCase else set
  .oneOf (if negated then set.complement else set)

theorem setSign_cases (cs : List Char) :
    (∃ rest, cs = '^' :: rest ∧ setSign cs = (true, rest)) ∨
      (∀ rest, cs ≠ '^' :: rest) ∧ setSign cs = (false, cs) := by
  unfold setSign
  split
  · exact .inl ⟨_, rfl, rfl⟩
  · next h => exact .inr ⟨h, rfl⟩

theorem setLead_cases (flags : Flags) (cs : List Char) :
    (∃ rest, gatherAll flags (· == '-') cs = ([], ']' :: rest) ∧ setLead flags cs = ([.single ']'], rest)) ∨
      ∃ dashes rest, gatherAll flags (· == '-') cs = (dashes, rest) ∧
        (dashes = [] → ∀ left, rest ≠ ']' :: left) ∧ setLead flags cs = (dashes.map CharRange.single, rest) := by
  unfold setLead
  split
  · next h => exact .inl ⟨_, h, rfl⟩
  · next dashes rest hother h => exact .inr ⟨dashes, rest, h, fun hdashes left => hother left hdashes, rfl⟩

theorem set?_eq (flags : Flags) (cs : List Char) :
    set? flags cs =
      let (negated, body) := setSign (skip flags cs)
      let (found, items) := setLead flags body
      (setItems? flags (items.length + 1) found items).map fun read => (setPattern flags negated read.1, read.2) := by
  unfold set?
  generalize skip flags cs = text
  obtain ⟨body, rfl, hsign⟩ | ⟨hother, hsign⟩ := setSign_cases text
  · obtain ⟨items, hgather, hlead⟩ | ⟨dashes, items, hgather, hbracket, hlead⟩ := setLead_cases flags body
    · simp only [hsign, hlead, hgather]
      cases setItems? flags (items.length + 1) [.single ']'] items <;> rfl
    · simp only [hsign, hlead, hgather]
      split
      · exact absurd rfl (hbracket rfl _)
      · cases setItems? flags (items.length + 1) (dashes.map .single) items <;> rfl
  · obtain ⟨items, hgather, hlead⟩ | ⟨dashes, items, hgather, hbracket, hlead⟩ := setLead_cases flags text
    · simp only [hsign, hlead, hgather]
      cases setItems? flags (items.length + 1) [.single ']'] items <;> rfl
    · simp only [hsign, hlead, hgather]
      split
      · exact absurd rfl (hbracket rfl _)
      · cases setItems? flags (items.length + 1) (dashes.map .single) items <;> rfl

theorem setSign_suffix (cs : List Char) : (setSign cs).2 <:+ cs := by
  unfold setSign
  split
  · exact List.suffix_cons _ _
  · exact List.suffix_rfl

theorem setLead_suffix (flags : Flags) (cs : List Char) : (setLead flags cs).2 <:+ cs := by
  unfold setLead
  split
  · next h => exact suffix_of_cons (gatherAll_suffix h)
  · next h => exact gatherAll_suffix h

theorem set?_suffix (h : set? flags cs = some (p, rest)) : rest <:+ cs := by
  rw [set?_eq] at h
  obtain ⟨⟨ranges, left⟩, hitems, hset⟩ := Option.map_eq_some_iff.1 h
  cases hset
  exact (((suffix_of_cons (setItems?_suffix hitems)).trans (setLead_suffix flags _)).trans (setSign_suffix _)).trans
    (skip_suffix flags cs)

/-! ### Repetitions -/

theorem count?_suffix {n : Nat} (h : count? flags cs = some (n, rest)) : rest <:+ cs := by
  obtain ⟨m, -, hm⟩ := Option.bind_eq_some_iff.1 h
  cases hm
  exact ((List.dropWhile_suffix _).trans (gather_suffix _ _ _ _ _)).trans (List.dropWhile_suffix _)

theorem bounds?_suffix {bounds : Nat × Option Nat} (h : bounds? flags cs = some (bounds, rest)) : rest <:+ cs := by
  obtain ⟨⟨least, left⟩, hleast, h⟩ := Option.bind_eq_some_iff.1 h
  have hleft := (count?_suffix hleast).trans (skip_suffix flags cs)
  dsimp only at h
  split at h
  · cases h
    exact suffix_of_cons hleft
  · next body =>
    have hbody := suffix_of_cons hleft
    split at h
    · next hskip =>
      cases h
      exact (suffix_of_cons (suffix_of_skip hskip)).trans hbody
    · obtain ⟨⟨most, more⟩, hmost, h⟩ := Option.bind_eq_some_iff.1 h
      have hmore := ((count?_suffix hmost).trans (skip_suffix flags body)).trans hbody
      split at h
      · next heq =>
        cases heq
        split at h
        · cases h
          exact suffix_of_cons hmore
        · cases h
      · cases h
  · cases h

/-! ### Groups -/

variable {opening : Opening}

theorem namedGroup?_suffix (h : namedGroup? flags cs = some (opening, rest)) : rest <:+ cs := by
  unfold namedGroup? at h
  split at h
  · next hname =>
    split at h
    · cases h
      exact suffix_of_cons (span_suffix hname)
    · cases h
  · cases h

theorem flaggedGroup?_suffix (h : flaggedGroup? flags cs = some (opening, rest)) : rest <:+ cs := by
  unfold flaggedGroup? at h
  split at h
  · next hchanges =>
    obtain ⟨_, -, hflags⟩ := Option.map_eq_some_iff.1 h
    cases hflags
    exact suffix_of_cons (span_suffix hchanges)
  · next hchanges =>
    split at h
    · cases h
    · obtain ⟨_, -, hflags⟩ := Option.map_eq_some_iff.1 h
      cases hflags
      exact suffix_of_cons (span_suffix hchanges)
  · cases h

theorem opening?_suffix (h : opening? flags cs = some (opening, rest)) : rest <:+ cs := by
  unfold opening? at h
  split at h
  · next hskip =>
    exact (namedGroup?_suffix h).trans (suffix_of_cons (suffix_of_cons (suffix_of_cons (suffix_of_skip hskip))))
  · next hskip => exact (namedGroup?_suffix h).trans (suffix_of_cons (suffix_of_cons (suffix_of_skip hskip)))
  · next hskip => exact (flaggedGroup?_suffix h).trans (suffix_of_cons (suffix_of_skip hskip))
  · cases h
    exact skip_suffix flags cs

/-! ### Items -/

namespace Parser

variable {parser next : Parser} {left : List Char}

theorem step?_suffix (h : parser.step? c rest = some (next, left)) : left <:+ rest := by
  unfold step? at h
  dsimp only at h
  split at h
  · obtain ⟨⟨opening, more⟩, hopening, h⟩ := Option.bind_eq_some_iff.1 h
    obtain ⟨_, -, hnext⟩ := Option.bind_eq_some_iff.1 h
    cases hnext
    exact opening?_suffix hopening
  · obtain ⟨_, -, hnext⟩ := Option.map_eq_some_iff.1 h
    cases hnext
    exact List.suffix_rfl
  · cases h
    exact List.suffix_rfl
  · obtain ⟨⟨set, more⟩, hset, hnext⟩ := Option.map_eq_some_iff.1 h
    cases hnext
    exact set?_suffix hset
  · obtain ⟨_, -, hnext⟩ := Option.map_eq_some_iff.1 h
    cases hnext
    exact dropLazy_suffix rest
  · obtain ⟨_, -, hnext⟩ := Option.map_eq_some_iff.1 h
    cases hnext
    exact dropLazy_suffix rest
  · obtain ⟨_, -, hnext⟩ := Option.map_eq_some_iff.1 h
    cases hnext
    exact dropLazy_suffix rest
  · obtain ⟨⟨⟨least, most⟩, more⟩, hbounds, h⟩ := Option.bind_eq_some_iff.1 h
    obtain ⟨_, -, hnext⟩ := Option.bind_eq_some_iff.1 h
    cases hnext
    exact ((dropLazy_suffix _).trans (skip_suffix _ _)).trans (bounds?_suffix hbounds)
  · obtain ⟨⟨item, more⟩, hitem, hnext⟩ := Option.map_eq_some_iff.1 h
    cases hnext
    cases rest with
    | nil => cases hitem
    | cons d rest => exact (escape?_cons_suffix hitem).trans (List.suffix_cons d rest)
  all_goals
    cases h
    exact List.suffix_rfl

end Parser

end Inventory.Pattern
