import Inventory.Proofs.Pattern.Machine
import Inventory.Source.TagFilter

/-! # Patterns made of given texts

A text with its marks escaped is read as a pattern for just this text (`parse?_escapeText`); between two stretches of
anything but line feeds it is read as a pattern for the texts that contain it (`parse?_between`). Such a pattern is
too large only if the text is very long.
-/

namespace Inventory.Pattern

open Meaning

/-! ### Reading an escaped text -/

section Reading

variable {parser next : Parser} {c : Char} {rest left : List Char} {fuel : Nat}

theorem escape?_meta (h : c ∈ metaChars) (rest : List Char) :
    escape? .plain (c :: rest) = some (.char c, rest) := by
  have hmarks : metaChars.all fun c => isEscapable c && c != 'x' && c != 'u' && c != 'U' && c != 'b' := by decide
  have hmark := List.all_eq_true.mp hmarks c h
  simp only [Bool.and_eq_true, bne_iff_ne, ne_eq] at hmark
  obtain ⟨⟨⟨⟨hescapable, hx⟩, hu⟩, hU⟩, hb⟩ := hmark
  rw [escape?.eq_def]
  split
  · next heq => cases heq
  · next heq => exact absurd (List.cons.inj heq).1 hx
  · next heq => exact absurd (List.cons.inj heq).1 hu
  · next heq => exact absurd (List.cons.inj heq).1 hU
  · next heq => exact absurd (List.cons.inj heq).1 hb
  · next heq =>
    cases heq
    exact if_pos hescapable

theorem step?_escaped (hflags : parser.flags = .plain) (h : c ∈ metaChars) (rest : List Char) :
    parser.step? '\\' (c :: rest) = some (parser.push (.char c), rest) := by
  change (escape? parser.flags (c :: rest)).map (fun read => (parser.push read.1, read.2)) = _
  rw [hflags, escape?_meta h]
  rfl

theorem step?_plain (hflags : parser.flags = .plain) (h : c ∉ metaChars) (rest : List Char) :
    parser.step? c rest = some (parser.push (.char c), rest) := by
  rw [Parser.step?.eq_def]
  dsimp only
  split
  all_goals first
    | exact absurd (by decide) h
    | rw [hflags]; rfl

theorem run?_step (hflags : parser.flags = .plain) (h : parser.step? c rest = some (next, left)) :
    parser.run? (fuel + 1) (c :: rest) = next.run? fuel left := by
  rw [Parser.run?, hflags]
  change (parser.step? c rest).bind _ = _
  rw [h]
  rfl

theorem escapeChars_cons_of_mem (h : c ∈ metaChars) (cs : List Char) :
    escapeChars (c :: cs) = '\\' :: c :: escapeChars cs := by
  rw [escapeChars, List.flatMap_cons, if_pos h]
  rfl

theorem escapeChars_cons_of_notMem (h : c ∉ metaChars) (cs : List Char) :
    escapeChars (c :: cs) = c :: escapeChars cs := by
  rw [escapeChars, List.flatMap_cons, if_neg h]
  rfl

def spelling (parser : Parser) (cs : List Char) : Parser :=
  { parser with parts := (cs.map Pattern.char).reverse ++ parser.parts }

theorem spelling_push (parser : Parser) (c : Char) (cs : List Char) :
    spelling (parser.push (.char c)) cs = spelling parser (c :: cs) := by
  rw [spelling, spelling, List.map_cons, List.reverse_cons, List.append_assoc]
  rfl

theorem run?_escapeChars (hflags : parser.flags = .plain) (cs : List Char) (fuel : Nat) (rest : List Char) :
    parser.run? (cs.length + fuel) (escapeChars cs ++ rest) = (spelling parser cs).run? fuel rest := by
  induction cs generalizing parser with
  | nil =>
    rw [List.length_nil, Nat.zero_add]
    rfl
  | cons c cs ih =>
    have hpushed := @ih (parser.push (.char c)) hflags
    rw [List.length_cons, Nat.add_right_comm, ← spelling_push, ← hpushed]
    by_cases h : c ∈ metaChars
    · rw [escapeChars_cons_of_mem h]
      exact run?_step hflags (step?_escaped hflags h _)
    · rw [escapeChars_cons_of_notMem h]
      exact run?_step hflags (step?_plain hflags h _)

theorem le_length_escapeChars (cs : List Char) : cs.length ≤ (escapeChars cs).length := by
  induction cs with
  | nil => exact Nat.le_refl 0
  | cons c cs ih =>
    by_cases h : c ∈ metaChars
    · rw [escapeChars_cons_of_mem h]
      exact Nat.succ_le_succ (Nat.le_succ_of_le ih)
    · rw [escapeChars_cons_of_notMem h]
      exact Nat.succ_le_succ ih

/-- What stands between two ends of a text. -/
def whole (p : Pattern) : Pattern :=
  .sequence [.look .textStart, p, .look .textEnd]

def inside (parts : List Pattern) : Parser :=
  ⟨.plain, [], [⟨none, .plain, [], [.look .textStart]⟩], [], parts⟩

theorem run?_opening (fuel : Nat) (rest : List Char) :
    Parser.start.run? (fuel + 2) ('^' :: '(' :: '?' :: ':' :: rest) = (inside []).run? fuel rest := rfl

theorem run?_closing (fuel : Nat) (parts : List Pattern) :
    (inside parts).run? (fuel + 3) [')', '$'] = some (whole (ofSequence parts.reverse)) := rfl

theorem ofSequence_cons {p : Pattern} {rest : List Pattern} (h : rest ≠ []) :
    ofSequence (p :: rest) = .sequence (p :: rest) := by
  obtain ⟨q, more, rfl⟩ := List.exists_cons_of_ne_nil h
  rfl

theorem toList_anchored (s : String) : (anchored s).toList = '^' :: '(' :: '?' :: ':' :: (s.toList ++ [')', '$']) := by
  rw [anchored, String.toList_append, String.toList_append]
  rfl

/-- A text is read with more steps to spare than it has characters. -/
theorem parse?_anchored {s : String} {p : Pattern} (needed : Nat) (hneeded : needed ≤ s.toList.length)
    (h : ∀ fuel, (inside []).run? (needed + (fuel + 3)) (s.toList ++ [')', '$']) = some p) :
    parse? (anchored s) = (some p).filter isWithinLimits := by
  obtain ⟨spare, hspare⟩ := Nat.exists_eq_add_of_le hneeded
  have hfuel : (anchored s).toList.length + 1 = needed + (spare + 2 + 3) + 2 := by
    rw [toList_anchored, List.length_cons, List.length_cons, List.length_cons, List.length_cons, List.length_append,
      hspare]
    rfl
  rw [parse?, hfuel, toList_anchored, run?_opening, h]

def spelled (cs : List Char) : Pattern :=
  ofSequence (cs.map .char)

theorem toList_escapeText (v : String) : (escapeText v).toList = escapeChars v.toList :=
  String.toList_ofList

theorem parse?_escapeText (v : String) :
    parse? (anchored (escapeText v)) = (some (whole (spelled v.toList))).filter isWithinLimits := by
  apply parse?_anchored v.toList.length
  · rw [toList_escapeText]
    exact le_length_escapeChars _
  · intro fuel
    have hparts : ((v.toList.map Pattern.char).reverse ++ []).reverse = v.toList.map .char := by
      rw [List.append_nil, List.reverse_reverse]
    rw [toList_escapeText, run?_escapeChars rfl]
    change (inside ((v.toList.map Pattern.char).reverse ++ [])).run? (fuel + 3) [')', '$'] = _
    rw [run?_closing, hparts, spelled]

/-- Any characters but line feeds. -/
def anything : Pattern :=
  .repeated 0 none Flags.plain.dot

def between (cs : List Char) : Pattern :=
  .sequence (anything :: (cs.map .char ++ [anything]))

theorem dropLazy_escapeChars (cs : List Char) (hrest : dropLazy rest = rest) :
    dropLazy (escapeChars cs ++ rest) = escapeChars cs ++ rest := by
  have hmark : '?' ∈ metaChars := by decide
  cases cs with
  | nil => exact hrest
  | cons c cs =>
    by_cases h : c ∈ metaChars
    · rw [escapeChars_cons_of_mem h]
      rfl
    · rw [escapeChars_cons_of_notMem h, List.cons_append]
      unfold dropLazy
      split
      · next heq =>
        rw [(List.cons.inj heq).1] at h
        exact absurd hmark h
      · rfl

theorem run?_anything (parts : List Pattern) (hrest : dropLazy rest = rest) (fuel : Nat) :
    (inside parts).run? (fuel + 2) ('.' :: '*' :: rest) = (inside (anything :: parts)).run? fuel rest := by
  have hdot : (inside parts).step? '.' ('*' :: rest) = some (inside (Flags.plain.dot :: parts), '*' :: rest) := rfl
  have hstar : (inside (Flags.plain.dot :: parts)).step? '*' rest =
      some (inside (anything :: parts), dropLazy rest) := rfl
  rw [hrest] at hstar
  rw [run?_step rfl hdot, run?_step rfl hstar]

theorem parse?_between (v : String) :
    parse? (anchored (".*" ++ escapeText v ++ ".*")) = (some (whole (between v.toList))).filter isWithinLimits := by
  have htext : (".*" ++ escapeText v ++ ".*").toList = '.' :: '*' :: (escapeChars v.toList ++ ['.', '*']) := by
    rw [String.toList_append, String.toList_append, toList_escapeText, List.append_assoc]
    rfl
  apply parse?_anchored (v.toList.length + 4)
  · rw [htext, List.length_cons, List.length_cons, List.length_append]
    exact Nat.add_le_add_right (le_length_escapeChars _) 4
  · intro fuel
    have hfuel : v.toList.length + 4 + (fuel + 3) = (v.toList.length + (fuel + 3 + 2)) + 2 := by omega
    have hparts : (anything :: ((v.toList.map Pattern.char).reverse ++ [anything])).reverse =
        anything :: (v.toList.map .char ++ [anything]) := by
      rw [List.reverse_cons, List.reverse_append, List.reverse_reverse]
      rfl
    rw [htext, hfuel, List.cons_append, List.cons_append, List.append_assoc,
      run?_anything _ (dropLazy_escapeChars _ rfl), run?_escapeChars rfl]
    change (inside ((v.toList.map Pattern.char).reverse ++ [anything])).run? (fuel + 3 + 2) ('.' :: '*' :: [')', '$']) = _
    rw [run?_anything _ rfl, run?_closing, hparts, ofSequence_cons (List.append_ne_nil_of_right_ne_nil _
      (List.cons_ne_nil _ _)), between]

end Reading

/-! ### What such patterns describe -/

section Describing

variable {before piece after cs : List Char} {p q : Pattern} {text : String}

theorem followedBy_nothing {m : Meaning} : m.followedBy nothing before piece after ↔ m before piece after := by
  constructor
  · rintro ⟨front, _, rfl, hfront, rfl⟩
    rwa [List.append_nil]
  · intro h
    exact ⟨piece, [], (List.append_nil _).symm, h, rfl⟩

theorem describeInTurn_append {ps qs : List Pattern} :
    DescribeInTurn (ps ++ qs) before piece after ↔
      (DescribeInTurn ps).followedBy (DescribeInTurn qs) before piece after := by
  induction ps generalizing before piece after with
  | nil =>
    constructor
    · intro h
      refine ⟨[], piece, rfl, rfl, ?_⟩
      rwa [List.append_nil]
    · rintro ⟨_, back, rfl, rfl, h⟩
      rwa [List.append_nil] at h
  | cons p ps ih =>
    constructor
    · rintro ⟨front, back, rfl, hfront, hback⟩
      obtain ⟨middle, last, rfl, hmiddle, hlast⟩ := ih.1 hback
      refine ⟨front ++ middle, last, (List.append_assoc _ _ _).symm, ⟨front, middle, rfl, ?_, hmiddle⟩, ?_⟩
      · rwa [List.append_assoc] at hfront
      · rwa [List.append_assoc] at hlast
    · rintro ⟨_, last, rfl, ⟨front, middle, rfl, hfront, hmiddle⟩, hlast⟩
      refine ⟨front, middle ++ last, List.append_assoc _ _ _, ?_, ih.2 ⟨middle, last, rfl, hmiddle, ?_⟩⟩
      · rwa [List.append_assoc]
      · rwa [List.append_assoc]

theorem describes_ofSequence {ps : List Pattern} :
    (ofSequence ps).Describes before piece after ↔ DescribeInTurn ps before piece after := by
  unfold ofSequence
  split
  · exact Iff.rfl
  · exact followedBy_nothing.symm
  · exact Iff.rfl

theorem describeInTurn_chars : DescribeInTurn (cs.map .char) before piece after ↔ piece = cs := by
  induction cs generalizing before piece with
  | nil => exact Iff.rfl
  | cons c cs ih =>
    constructor
    · rintro ⟨front, back, rfl, rfl, hback⟩
      rw [ih.1 hback]
      rfl
    · rintro rfl
      exact ⟨[c], cs, rfl, rfl, ih.2 rfl⟩

theorem describes_whole :
    (whole p).Describes before piece after ↔ before = [] ∧ after = [] ∧ p.Describes [] piece [] := by
  constructor
  · rintro ⟨_, _, rfl, ⟨rfl, hstart⟩, front, _, rfl, hp, _, _, rfl, ⟨rfl, hend⟩, rfl⟩
    obtain rfl := List.getLast?_eq_none_iff.1 (Option.isNone_iff_eq_none.1 hstart)
    obtain rfl := List.head?_eq_none_iff.1 (Option.isNone_iff_eq_none.1 hend)
    refine ⟨rfl, rfl, ?_⟩
    simpa using hp
  · rintro ⟨rfl, rfl, hp⟩
    refine ⟨[], piece, rfl, ⟨rfl, rfl⟩, piece, [], (List.append_nil _).symm, hp, [], [], rfl, ⟨rfl, rfl⟩, rfl⟩

theorem whole_occursIn : (whole p).occursIn text = true ↔ p.Describes [] text.toList [] := by
  rw [occursIn_iff]
  constructor
  · rintro ⟨before, piece, after, htext, h⟩
    obtain ⟨rfl, rfl, hp⟩ := describes_whole.1 h
    rw [htext]
    simpa using hp
  · intro h
    exact ⟨[], text.toList, [], (List.append_nil _).symm, describes_whole.2 ⟨rfl, rfl, h⟩⟩

theorem whole_spelled_occursIn {v : String} : (whole (spelled v.toList)).occursIn text = true ↔ text = v := by
  rw [whole_occursIn, spelled, describes_ofSequence, describeInTurn_chars]
  exact String.toList_inj

theorem describes_dot :
    Flags.plain.dot.Describes before piece after ↔ ∃ c, piece = [c] ∧ c ≠ '\n' := by
  have hranges : CharSet.allBut ['\n'] = [⟨0, 9⟩, ⟨11, 0x10FFFF⟩] := by decide
  have hcontains : ∀ c : Char, CharSet.contains (CharSet.allBut ['\n']) c = true ↔ c ≠ '\n' := by
    intro c
    have hlast : c.toNat ≤ 0x10FFFF := by
      rcases c.valid with h | ⟨-, h⟩
      · exact Nat.le_trans (Nat.le_of_lt h) (by decide)
      · exact Nat.le_of_lt_succ h
    have hfeed : c = '\n' ↔ c.toNat = 10 := Char.toNat_inj.symm
    rw [hranges, Ne, hfeed]
    simp only [CharSet.contains, CharRange.contains, List.any_cons, List.any_nil, Bool.or_false, Bool.or_eq_true,
      Bool.and_eq_true, decide_eq_true_eq]
    omega
  constructor
  · rintro ⟨c, rfl, hset⟩
    exact ⟨c, rfl, (hcontains c).1 hset⟩
  · rintro ⟨c, rfl, hc⟩
    exact ⟨c, rfl, (hcontains c).2 hc⟩

theorem times_dot {k : Nat} :
    Flags.plain.dot.Describes.times k before piece after ↔ piece.length = k ∧ '\n' ∉ piece := by
  induction k generalizing before piece with
  | zero =>
    rw [List.length_eq_zero_iff]
    constructor
    · rintro rfl
      exact ⟨rfl, List.not_mem_nil⟩
    · exact And.left
  | succ k ih =>
    constructor
    · rintro ⟨_, back, rfl, hfront, hback⟩
      obtain ⟨c, rfl, hc⟩ := describes_dot.1 hfront
      obtain ⟨hlength, hfeed⟩ := ih.1 hback
      refine ⟨?_, ?_⟩
      · rw [List.singleton_append, List.length_cons, hlength]
      · rw [List.singleton_append, List.mem_cons, not_or]
        exact ⟨hc.symm, hfeed⟩
    · rintro ⟨hlength, hfeed⟩
      obtain ⟨c, back, rfl⟩ := List.exists_cons_of_length_eq_add_one hlength
      rw [List.mem_cons, not_or] at hfeed
      exact ⟨[c], back, rfl, describes_dot.2 ⟨c, rfl, Ne.symm hfeed.1⟩, ih.2 ⟨Nat.succ.inj hlength, hfeed.2⟩⟩

theorem describes_anything : anything.Describes before piece after ↔ '\n' ∉ piece := by
  constructor
  · rintro ⟨k, -, -, h⟩
    exact (times_dot.1 h).2
  · intro hfeed
    exact ⟨piece.length, Nat.zero_le _, nofun, times_dot.2 ⟨rfl, hfeed⟩⟩

theorem describes_between :
    (between cs).Describes before piece after ↔
      ∃ front back, piece = front ++ (cs ++ back) ∧ '\n' ∉ front ∧ '\n' ∉ back := by
  constructor
  · rintro ⟨front, _, rfl, hfront, h⟩
    obtain ⟨middle, back, rfl, hmiddle, hback⟩ := describeInTurn_append.1 h
    obtain rfl := describeInTurn_chars.1 hmiddle
    exact ⟨front, back, rfl, describes_anything.1 hfront, describes_anything.1 (followedBy_nothing.1 hback)⟩
  · rintro ⟨front, back, rfl, hfront, hback⟩
    refine ⟨front, cs ++ back, rfl, describes_anything.2 hfront, describeInTurn_append.2 ⟨cs, back, rfl, ?_, ?_⟩⟩
    · exact describeInTurn_chars.2 rfl
    · exact followedBy_nothing.2 (describes_anything.2 hback)

theorem whole_between_occursIn {v : String} :
    (whole (between v.toList)).occursIn text = true ↔
      ∃ front back, text.toList = front ++ (v.toList ++ back) ∧ '\n' ∉ front ∧ '\n' ∉ back := by
  rw [whole_occursIn, describes_between]

end Describing

/-! ### How large such patterns are -/

section Size

variable {cs : List Char}

theorem height_whole (p : Pattern) : (whole p).height = p.height + 1 := by
  simp [whole, height, heights]

theorem totalCost_whole (p : Pattern) : (whole p).totalCost = p.totalCost + 64 := by
  have hlabels : (whole p).labels = p.labels := by
    simp [whole, labels, labelsOfAll]
  rw [totalCost, totalCost, hlabels]
  simp only [whole, cost, costs, stateCost]
  omega

theorem isWithinLimits_whole {p : Pattern} :
    (whole p).isWithinLimits = true ↔ p.height < heightLimit ∧ p.totalCost + 64 ≤ costLimit := by
  rw [isWithinLimits, height_whole, totalCost_whole, Bool.and_eq_true, decide_eq_true_eq, decide_eq_true_eq]
  exact Iff.rfl

theorem height_chars (cs : List Char) : heights (cs.map .char) = 0 := by
  induction cs with
  | nil => rfl
  | cons c cs ih => rw [List.map_cons, heights, ih]; rfl

theorem heights_append (ps qs : List Pattern) : heights (ps ++ qs) = max (heights ps) (heights qs) := by
  induction ps with
  | nil => exact (Nat.zero_max _).symm
  | cons p ps ih => rw [List.cons_append, heights, heights, ih, Nat.max_assoc]

theorem costs_chars (cs : List Char) : costs (cs.map .char) = 32 * cs.length := by
  induction cs with
  | nil => rfl
  | cons c cs ih =>
    rw [List.map_cons, costs, ih, List.length_cons, cost, stateCost]
    omega

theorem costs_append (ps qs : List Pattern) : costs (ps ++ qs) = costs ps + costs qs := by
  induction ps with
  | nil => exact (Nat.zero_add _).symm
  | cons p ps ih => rw [List.cons_append, costs, costs, ih, Nat.add_assoc]

theorem labels_chars (cs : List Char) : labelsOfAll (cs.map .char) = [] := by
  induction cs with
  | nil => rfl
  | cons c cs ih => rw [List.map_cons, labelsOfAll, ih]; rfl

theorem labelsOfAll_append (ps qs : List Pattern) : labelsOfAll (ps ++ qs) = labelsOfAll ps ++ labelsOfAll qs := by
  induction ps with
  | nil => rfl
  | cons p ps ih => rw [List.cons_append, labelsOfAll, labelsOfAll, ih, List.append_assoc]

theorem height_spelled_le (cs : List Char) : (spelled cs).height ≤ 1 := by
  unfold spelled ofSequence
  split
  · exact Nat.zero_le 1
  · next heq =>
    obtain ⟨c, -, rfl⟩ := List.map_eq_singleton_iff.1 heq
    exact Nat.zero_le 1
  · rw [height, height_chars]

theorem totalCost_spelled (cs : List Char) : (spelled cs).totalCost = 32 * max 1 cs.length + 112 := by
  match cs with
  | [] => rfl
  | [c] => rfl
  | c :: d :: cs =>
    have hlabels : (spelled (c :: d :: cs)).labels = [] := labels_chars (c :: d :: cs)
    have hcost : (spelled (c :: d :: cs)).cost = 32 * (c :: d :: cs).length := costs_chars (c :: d :: cs)
    have hnames : labelCost [] = 16 := rfl
    have hlength : max 1 (c :: d :: cs).length = (c :: d :: cs).length :=
      Nat.max_eq_right (Nat.le_add_left 1 (d :: cs).length)
    rw [totalCost, hlabels, hcost, hnames, hlength, stateCost]

theorem isWithinLimits_spelled (cs : List Char) :
    (whole (spelled cs)).isWithinLimits = true ↔ 32 * cs.length + 176 ≤ costLimit := by
  have hheight : (spelled cs).height < heightLimit := Nat.lt_of_le_of_lt (height_spelled_le cs) (by decide)
  rw [isWithinLimits_whole, and_iff_right hheight, totalCost_spelled]
  -- A text without characters costs as much as one with a single character, which is far from the limit.
  have hlimit : costLimit = 10485760 := rfl
  omega

theorem height_between (cs : List Char) : (between cs).height = 2 := by
  simp only [between, height, heights, heights_append, height_chars, anything, Flags.dot]
  rfl

theorem totalCost_between (cs : List Char) : (between cs).totalCost = 32 * cs.length + 288 := by
  have hlabels : (between cs).labels = [] := by
    simp only [between, labels, labelsOfAll, labelsOfAll_append, labels_chars, anything, Flags.dot]
    rfl
  have hanything : cost anything = 88 := by decide
  have hnames : labelCost [] = 16 := rfl
  rw [totalCost, hlabels, hnames]
  simp only [between, cost, costs, costs_append, costs_chars, hanything, stateCost]
  omega

theorem isWithinLimits_between (cs : List Char) :
    (whole (between cs)).isWithinLimits = true ↔ 32 * cs.length + 352 ≤ costLimit := by
  rw [isWithinLimits_whole, height_between, totalCost_between, Nat.add_assoc]
  exact and_iff_right (by decide)

end Size

end Inventory.Pattern
