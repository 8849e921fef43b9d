import Inventory.Pattern.Match
import Inventory.Proofs.Pattern.Meaning
import Inventory.Proofs.Pattern.Places

/-! # The machine finds what is described

Laid over a text, a pattern leads from one place to another just if it describes the piece between them
(`realizes_ofPattern`), so it occurs in a text just if it describes some piece of it (`occursIn_iff`).
-/

namespace Inventory

open Relation

/-! ### Leaves over a text -/

namespace Ground

variable {text : String} {e : Nat}

theorem testBit_neighbours (test : Option Char → Option Char → Bool) (last : Option Char) (cs : List Char) :
    (Places.ofBits (((last :: cs.map some).zip (cs.map some ++ [none])).map
      fun (before, after) => test before after)).testBit e = true ↔
      ∃ before after, cs = before ++ after ∧ after.length = e ∧
        test (before.getLast?.or last) after.head? = true := by
  induction cs generalizing last with
  | nil =>
    rw [List.map_nil, List.nil_append, List.zip_cons_cons, List.zip_nil_right, List.map_singleton,
      Places.testBit_ofBits_cons, List.length_nil, if_neg (Nat.not_lt_zero e), Bool.and_eq_true, decide_eq_true_eq]
    constructor
    · rintro ⟨htest, rfl⟩
      exact ⟨[], [], rfl, rfl, htest⟩
    · rintro ⟨before, after, hcs, rfl, htest⟩
      obtain ⟨rfl, rfl⟩ := List.nil_eq_append_iff.1 hcs
      exact ⟨htest, rfl⟩
  | cons c rest ih =>
    have hlength : (((some c :: rest.map some).zip (rest.map some ++ [none])).map
        fun (before, after) => test before after).length = rest.length + 1 := by
      simp
    rw [List.map_cons, List.cons_append, List.zip_cons_cons, List.map_cons, Places.testBit_ofBits_cons, hlength]
    constructor
    · split
      · intro h
        obtain ⟨before, after, rfl, he, htest⟩ := (ih (some c)).1 h
        refine ⟨c :: before, after, rfl, he, ?_⟩
        rw [List.getLast?_cons, Option.some_or]
        rwa [Option.or_some] at htest
      · rw [Bool.and_eq_true, decide_eq_true_eq]
        rintro ⟨htest, rfl⟩
        exact ⟨[], c :: rest, rfl, List.length_cons, htest⟩
    · rintro ⟨before, after, hcs, rfl, htest⟩
      cases before with
      | nil =>
        obtain rfl : c :: rest = after := hcs
        rw [List.length_cons, if_neg (Nat.lt_irrefl _), decide_eq_true rfl, Bool.and_true]
        exact htest
      | cons head before =>
        obtain ⟨rfl, rfl⟩ : c = head ∧ rest = before ++ after := List.cons.inj hcs
        rw [if_pos (by rw [List.length_append]; omega)]
        refine (ih (some c)).2 ⟨before, after, rfl, rfl, ?_⟩
        rw [List.getLast?_cons, Option.some_or] at htest
        rwa [Option.or_some]

theorem testBit_placesWhere {test : Option Char → Option Char → Bool} :
    ((ofText text).placesWhere test).testBit e = true ↔
      ∃ before after, text.toList = before ++ after ∧ after.length = e ∧
        test before.getLast? after.head? = true := by
  rw [placesWhere, ofText, neighboursIn, testBit_neighbours]
  simp only [Option.or_none]

theorem testBit_placesBefore {c : Char} :
    ((ofText text).placesBefore c).testBit e = true ↔
      ∃ before after, text.toList = before ++ c :: after ∧ after.length + 1 = e := by
  rw [placesBefore_ofText, testBit_placesWhere]
  constructor
  · rintro ⟨before, after, htext, rfl, htest⟩
    cases after with
    | nil => cases htest
    | cons d after =>
      obtain rfl : d = c := Option.some.inj (beq_iff_eq.1 htest)
      exact ⟨before, after, htext, rfl⟩
  · rintro ⟨before, after, htext, rfl⟩
    exact ⟨before, c :: after, htext, rfl, beq_self_eq_true _⟩

theorem testBit_foldl_or (set : CharSet) (found : Places) (entries : List (Char × Places)) :
    (entries.foldl (fun found entry => if set.contains entry.1 then found ||| entry.2 else found)
      found).testBit e = true ↔
      found.testBit e = true ∨ ∃ entry ∈ entries, set.contains entry.1 = true ∧ entry.2.testBit e = true := by
  induction entries generalizing found with
  | nil => simp
  | cons entry rest ih =>
    rw [List.foldl_cons, ih]
    cases hset : set.contains entry.1 with
    | false => simp [hset]
    | true => simp [hset, or_assoc]

theorem testBit_placesBeforeAny {set : CharSet} :
    ((ofText text).placesBeforeAny set).testBit e = true ↔
      ∃ c, set.contains c = true ∧ ((ofText text).placesBefore c).testBit e = true := by
  rw [placesBeforeAny, Std.TreeMap.foldl_eq_foldl_toList, testBit_foldl_or, Nat.zero_testBit]
  constructor
  · rintro (h | ⟨⟨c, places⟩, hentry, hset, hplace⟩)
    · cases h
    · have hget := Std.TreeMap.mem_toList_iff_getElem?_eq_some.1 hentry
      refine ⟨c, hset, ?_⟩
      rwa [placesBefore, Std.TreeMap.getD_eq_getD_getElem?, hget]
  · rintro ⟨c, hset, hplace⟩
    rw [placesBefore, Std.TreeMap.getD_eq_getD_getElem?] at hplace
    cases hget : (ofText text).byChar[c]? with
    | none =>
      rw [hget, Option.getD_none, Nat.zero_testBit] at hplace
      cases hplace
    | some places =>
      rw [hget] at hplace
      exact .inr ⟨(c, places), Std.TreeMap.mem_toList_iff_getElem?_eq_some.2 hget, hset, hplace⟩

end Ground

/-! ### The machine -/

namespace Overlay

theorem exactly_succ (step : Places → Places) (k : Nat) (starts : Places) :
    exactly step (k + 1) starts = exactly step k (step starts) := by
  have hfixed : step starts = starts → ∀ k, exactly step k starts = starts := by
    intro h k
    cases k with
    | zero => rfl
    | succ k =>
      rw [exactly]
      exact if_pos h
  rw [exactly]
  split
  · next h => rw [h, hfixed h]
  · rfl

theorem atMost_succ (step : Places → Places) (k : Nat) (starts : Places) :
    atMost step (k + 1) starts = atMost step k (starts ||| step starts) := by
  have hfixed : starts ||| step starts = starts → ∀ k, atMost step k starts = starts := by
    intro h k
    cases k with
    | zero => rfl
    | succ k =>
      rw [atMost]
      exact if_pos h
  rw [atMost]
  split
  · next h => rw [h, hfixed h]
  · rfl

def Within (text : List Char) (places : Places) : Prop :=
  ∀ s, places.testBit s = true → s ≤ text.length

/-- Over a text an overlay leads from place to place just along the pieces that are meant. -/
def Realizes (text : List Char) (o : Overlay) (m : Meaning) : Prop :=
  ∀ starts, Within text starts → ∀ e, (o.reach starts).testBit e = true ↔
    ∃ s, starts.testBit s = true ∧ m.Spans text s e

variable {text : List Char} {o : Overlay} {m n : Meaning} {starts : Places} {s e : Nat}

theorem within_single (hs : s ≤ text.length) : Within text (.single s) := by
  intro q hq
  rwa [Places.testBit_single.1 hq]

theorem Realizes.within (h : Realizes text o m) (hstarts : Within text starts) : Within text (o.reach starts) := by
  intro e he
  obtain ⟨s, hs, hspans⟩ := (h starts hstarts e).1 he
  exact Nat.le_trans hspans.le (hstarts s hs)

theorem Realizes.testBit_single (h : Realizes text o m) (hs : s ≤ text.length) :
    (o.reach (.single s)).testBit e = true ↔ m.Spans text s e := by
  rw [h _ (within_single hs)]
  constructor
  · rintro ⟨q, hq, hspans⟩
    rwa [← Places.testBit_single.1 hq]
  · intro hspans
    exact ⟨s, Places.testBit_single.2 rfl, hspans⟩

theorem testBit_exactly (h : Realizes text o m) (hstarts : Within text starts) (k : Nat) :
    (exactly o.reach k starts).testBit e = true ↔ ∃ s, starts.testBit s = true ∧ (m.times k).Spans text s e := by
  induction k generalizing starts with
  | zero =>
    constructor
    · intro he
      exact ⟨e, he, Meaning.spans_nothing.2 ⟨rfl, hstarts e he⟩⟩
    · rintro ⟨s, hs, hspans⟩
      obtain ⟨rfl, -⟩ := Meaning.spans_nothing.1 hspans
      exact hs
  | succ k ih =>
    rw [exactly_succ, ih (h.within hstarts)]
    constructor
    · rintro ⟨q, hq, hrest⟩
      obtain ⟨s, hs, hfirst⟩ := (h starts hstarts q).1 hq
      exact ⟨s, hs, Meaning.spans_followedBy.2 ⟨q, hfirst, hrest⟩⟩
    · rintro ⟨s, hs, hspans⟩
      obtain ⟨q, hfirst, hrest⟩ := Meaning.spans_followedBy.1 hspans
      exact ⟨q, (h starts hstarts q).2 ⟨s, hs, hfirst⟩, hrest⟩

theorem testBit_atMost (h : Realizes text o m) (hstarts : Within text starts) (k : Nat) :
    (atMost o.reach k starts).testBit e = true ↔
      ∃ j ≤ k, ∃ s, starts.testBit s = true ∧ (m.times j).Spans text s e := by
  induction k generalizing starts with
  | zero =>
    constructor
    · intro he
      exact ⟨0, Nat.le_refl 0, e, he, Meaning.spans_nothing.2 ⟨rfl, hstarts e he⟩⟩
    · rintro ⟨j, hj, s, hs, hspans⟩
      obtain rfl := Nat.le_zero.1 hj
      obtain ⟨rfl, -⟩ := Meaning.spans_nothing.1 hspans
      exact hs
  | succ k ih =>
    have hnext : Within text (starts ||| o.reach starts) := by
      intro q hq
      rw [Nat.testBit_or, Bool.or_eq_true] at hq
      exact hq.elim (hstarts q) (h.within hstarts q)
    rw [atMost_succ, ih hnext]
    constructor
    · rintro ⟨j, hj, q, hq, hrest⟩
      rw [Nat.testBit_or, Bool.or_eq_true] at hq
      rcases hq with hq | hq
      · exact ⟨j, Nat.le_succ_of_le hj, q, hq, hrest⟩
      · obtain ⟨s, hs, hfirst⟩ := (h starts hstarts q).1 hq
        exact ⟨j + 1, Nat.succ_le_succ hj, s, hs, Meaning.spans_followedBy.2 ⟨q, hfirst, hrest⟩⟩
    · rintro ⟨j, hj, s, hs, hspans⟩
      cases j with
      | zero =>
        refine ⟨0, Nat.zero_le k, s, ?_, hspans⟩
        rw [Nat.testBit_or, hs, Bool.true_or]
      | succ j =>
        obtain ⟨q, hfirst, hrest⟩ := Meaning.spans_followedBy.1 hspans
        refine ⟨j, Nat.le_of_succ_le_succ hj, q, ?_, hrest⟩
        rw [Nat.testBit_or, Bool.or_eq_true]
        exact .inr ((h starts hstarts q).2 ⟨s, hs, hfirst⟩)

theorem realizes_repeated (h : Realizes text o m) (least : Nat) (most : Nat) :
    Realizes text (.repeated least (most - least) o) (m.repeatedly least (some most)) := by
  intro starts hstarts e
  have hfirst : Within text (exactly o.reach least starts) := by
    intro q hq
    obtain ⟨s, hs, hspans⟩ := (testBit_exactly h hstarts least).1 hq
    exact Nat.le_trans hspans.le (hstarts s hs)
  rw [reach, testBit_atMost h hfirst]
  simp only [testBit_exactly h hstarts, Meaning.spans_repeatedly, Option.some.injEq, forall_eq']
  constructor
  · rintro ⟨j, hj, q, ⟨s, hs, hleast⟩, hmore⟩
    exact ⟨s, hs, least + j, Nat.le_add_right _ _, by omega, Meaning.spans_times_add.2 ⟨q, hleast, hmore⟩⟩
  · rintro ⟨s, hs, k, hleast, hmost, hspans⟩
    obtain ⟨j, rfl⟩ := Nat.exists_eq_add_of_le hleast
    obtain ⟨q, hfront, hback⟩ := Meaning.spans_times_add.1 hspans
    exact ⟨j, by omega, q, ⟨s, hs, hfront⟩, hback⟩

theorem spans_endlessly (hs : s ≤ text.length) :
    (m.repeatedly 0 none).Spans text s e ↔ ReflTransGen (m.Spans text) s e := by
  have hstar : (∃ k, (m.times k).Spans text s e) ↔ _ := Meaning.exists_spans_times
  rw [Meaning.spans_repeatedly]
  simp only [Nat.zero_le, reduceCtorEq, false_implies, implies_true, true_and, hstar, hs]

theorem realizes_glide {places : Places} (h : Realizes text (.advance places) m) :
    Realizes text (.glide (Places.landings 0 (places >>> 1))) (m.repeatedly 0 none) := by
  have hstep : ∀ {s e}, s ≤ text.length → (m.Spans text s e ↔ s = e + 1 ∧ places.testBit s = true) := by
    intro s e hs
    rw [← h.testBit_single hs, reach, Nat.testBit_shiftRight, Nat.testBit_and, Bool.and_eq_true,
      Places.testBit_single, Nat.add_comm 1 e]
    constructor
    · rintro ⟨rfl, hplace⟩
      exact ⟨rfl, hplace⟩
    · rintro ⟨rfl, hplace⟩
      exact ⟨rfl, hplace⟩
  have hsteps : ∀ {s e}, s ≤ text.length → (ReflTransGen (m.Spans text) s e ↔
      ReflTransGen (fun s e => s = e + 1 ∧ places.testBit s = true) s e) := by
    intro s e hs
    constructor
    · exact ReflTransGen.mono (fun _ _ hspans => (hstep hspans.le_length).1 hspans) s e
    · intro hreach
      induction hreach using ReflTransGen.head_induction_on with
      | refl => exact .refl
      | head hfirst _ ih =>
        have hspans := (hstep hs).2 hfirst
        exact .head hspans (ih (Nat.le_trans hspans.le hs))
  intro starts hstarts e
  rw [reach, Places.testBit_glide_landings]
  constructor
  · rintro ⟨n, hstart, hbelow⟩
    have hs := hstarts _ hstart
    exact ⟨e + n, hstart, (spans_endlessly hs).2 ((hsteps hs).2 (Places.reach_downward_iff.2 ⟨n, rfl, hbelow⟩))⟩
  · rintro ⟨s, hstart, hspans⟩
    have hs := hstarts s hstart
    obtain ⟨n, rfl, hbelow⟩ := Places.reach_downward_iff.1 ((hsteps hs).1 ((spans_endlessly hs).1 hspans))
    exact ⟨n, hstart, hbelow⟩

theorem realizes_along (h : Realizes text o m) :
    Realizes text (.along (Places.closure ((List.range (text.length + 1)).map fun place => o.reach (.single place))))
      (m.repeatedly 0 none) := by
  intro starts hstarts e
  have hends : ∀ q, starts.testBit q = true → ∀ e,
      ((Places.closure ((List.range (text.length + 1)).map fun place => o.reach (.single place))).getD q 0).testBit e =
        true ↔ ReflTransGen (m.Spans text) q e := by
    intro q hq e
    apply Places.testBit_closure fun s e hspans => hspans.le
    · intro s hs e
      exact h.testBit_single (Nat.le_of_lt_succ hs)
    · exact Nat.lt_succ_of_le (hstarts q hq)
  rw [reach, Places.testBit_follow (fun _ _ _ => ReflTransGen.trans) hends, Nat.zero_testBit]
  constructor
  · rintro (hno | ⟨s, hs, hreach⟩)
    · cases hno
    · exact ⟨s, hs, (spans_endlessly (hstarts s hs)).2 hreach⟩
  · rintro ⟨s, hs, hspans⟩
    exact .inr ⟨s, hs, (spans_endlessly (hstarts s hs)).1 hspans⟩

theorem realizes_endless (h : Realizes text o m) :
    Realizes text (endless (text.length + 1) o) (m.repeatedly 0 none) := by
  unfold endless
  split
  · exact realizes_glide h
  · exact realizes_along h

theorem Realizes.congr (h : Realizes text o m) (hmn : ∀ s e, m.Spans text s e ↔ n.Spans text s e) :
    Realizes text o n := by
  intro starts hstarts e
  rw [h starts hstarts e]
  simp only [hmn]

theorem realizes_nil : Realizes text (.sequence []) Meaning.nothing := by
  intro starts hstarts e
  constructor
  · intro he
    exact ⟨e, he, Meaning.spans_nothing.2 ⟨rfl, hstarts e he⟩⟩
  · rintro ⟨s, hs, hspans⟩
    obtain ⟨rfl, -⟩ := Meaning.spans_nothing.1 hspans
    exact hs

theorem realizes_cons {rest : List Overlay} (hfirst : Realizes text o m) (hrest : Realizes text (.sequence rest) n) :
    Realizes text (.sequence (o :: rest)) (m.followedBy n) := by
  intro starts hstarts e
  have hafter := hrest (o.reach starts) (hfirst.within hstarts) e
  rw [reach] at hafter
  rw [reach, reachInTurn, hafter]
  simp only [hfirst starts hstarts, Meaning.spans_followedBy]
  constructor
  · rintro ⟨q, ⟨s, hs, hfront⟩, hback⟩
    exact ⟨s, hs, q, hfront, hback⟩
  · rintro ⟨s, hs, q, hfront, hback⟩
    exact ⟨q, ⟨s, hs, hfront⟩, hback⟩

end Overlay

namespace Pattern

open Overlay

variable {text : String}

theorem realizes_char (c : Char) :
    Realizes text.toList (ofPattern (.ofText text) (.char c)) (Describes (.char c)) := by
  intro starts hstarts e
  rw [ofPattern, reach, Nat.testBit_shiftRight, Nat.testBit_and, Bool.and_eq_true, Ground.testBit_placesBefore]
  constructor
  · rintro ⟨hstart, before, after, htext, hafter⟩
    exact ⟨1 + e, hstart, before, [c], after, htext, by rw [List.length_singleton]; omega, by omega, rfl⟩
  · rintro ⟨s, hs, before, piece, after, htext, rfl, rfl, rfl⟩
    exact ⟨hs, before, after, htext, Nat.add_comm _ _⟩

theorem realizes_oneOf (set : CharSet) :
    Realizes text.toList (ofPattern (.ofText text) (.oneOf set)) (Describes (.oneOf set)) := by
  intro starts hstarts e
  rw [ofPattern, reach, Nat.testBit_shiftRight, Nat.testBit_and, Bool.and_eq_true, Ground.testBit_placesBeforeAny]
  simp only [Ground.testBit_placesBefore]
  constructor
  · rintro ⟨hstart, c, hset, before, after, htext, hafter⟩
    exact ⟨1 + e, hstart, before, [c], after, htext, by rw [List.length_singleton]; omega, by omega, c, rfl, hset⟩
  · rintro ⟨s, hs, before, piece, after, htext, rfl, rfl, c, rfl, hset⟩
    exact ⟨hs, c, hset, before, after, htext, Nat.add_comm _ _⟩

theorem realizes_look (condition : Look) :
    Realizes text.toList (ofPattern (.ofText text) (.look condition)) (Describes (.look condition)) := by
  intro starts hstarts e
  rw [ofPattern, reach, Nat.testBit_and, Bool.and_eq_true, Ground.testBit_placesWhere]
  constructor
  · rintro ⟨hstart, before, after, htext, rfl, hholds⟩
    exact ⟨after.length, hstart, before, [], after, htext, Nat.zero_add _, rfl, rfl, hholds⟩
  · rintro ⟨s, hs, before, piece, after, htext, rfl, rfl, rfl, hholds⟩
    rw [List.length_nil, Nat.zero_add] at hs
    exact ⟨hs, before, after, htext, rfl, hholds⟩

/-- At least so many parts are so many and then any number more. -/
theorem spans_atLeast {m : Meaning} {cs : List Char} {least s e : Nat} :
    ((m.repeatedly least (some least)).followedBy ((m.repeatedly 0 none).followedBy Meaning.nothing)).Spans cs s e ↔
      (m.repeatedly least none).Spans cs s e := by
  simp only [Meaning.spans_followedBy, Meaning.spans_repeatedly]
  constructor
  · rintro ⟨q, ⟨k, hleast, -, hfront⟩, r, ⟨j, -, -, hback⟩, hnothing⟩
    obtain ⟨rfl, -⟩ := Meaning.spans_nothing.1 hnothing
    exact ⟨k + j, Nat.le_add_right_of_le hleast, nofun, Meaning.spans_times_add.2 ⟨q, hfront, hback⟩⟩
  · rintro ⟨k, hleast, -, hspans⟩
    obtain ⟨j, rfl⟩ := Nat.exists_eq_add_of_le hleast
    obtain ⟨q, hfront, hback⟩ := Meaning.spans_times_add.1 hspans
    refine ⟨q, ⟨least, Nat.le_refl _, fun _ _ => Nat.le_max_left _ _, hfront⟩, e,
      ⟨j, Nat.zero_le j, nofun, hback⟩, ?_⟩
    exact Meaning.spans_nothing.2 ⟨rfl, Nat.le_trans hback.le hback.le_length⟩

theorem size_ofText (text : String) : (Ground.ofText text).size = text.toList.length + 1 := by
  simp [Ground.size, Ground.ofText, Ground.neighboursIn]

mutual

theorem realizes_ofPattern (text : String) :
    ∀ p : Pattern, Realizes text.toList (ofPattern (.ofText text) p) p.Describes
  | .empty => realizes_nil
  | .char c => realizes_char c
  | .oneOf set => realizes_oneOf set
  | .look condition => realizes_look condition
  | .repeated least (some most) sub => realizes_repeated (realizes_ofPattern text sub) least most
  | .repeated least none sub => by
    have hsub := realizes_ofPattern text sub
    have hleast := realizes_repeated hsub least least
    rw [Nat.sub_self] at hleast
    have hmore := realizes_endless hsub
    rw [← size_ofText] at hmore
    rw [ofPattern, Describes]
    exact (realizes_cons hleast (realizes_cons hmore realizes_nil)).congr fun _ _ => spans_atLeast
  | .group _ sub => realizes_ofPattern text sub
  | .sequence subs => realizes_inTurn text subs
  | .choice subs => realizes_choice text subs

theorem realizes_inTurn (text : String) :
    ∀ subs : List Pattern, Realizes text.toList (.sequence (ofPatterns (.ofText text) subs)) (DescribeInTurn subs)
  | [] => realizes_nil
  | p :: rest => realizes_cons (realizes_ofPattern text p) (realizes_inTurn text rest)

theorem realizes_choice (text : String) :
    ∀ subs : List Pattern, Realizes text.toList (.choice (ofPatterns (.ofText text) subs)) (OneDescribes subs)
  | [] => by
    intro starts _ e
    constructor
    · intro he
      rw [ofPatterns, reach, reachByAny, Nat.zero_testBit] at he
      cases he
    · rintro ⟨s, -, before, piece, after, -, -, -, hno⟩
      cases hno
  | p :: rest => by
    intro starts hstarts e
    have hrest := realizes_choice text rest starts hstarts e
    rw [reach] at hrest
    rw [ofPatterns, reach, reachByAny, Nat.testBit_or, Bool.or_eq_true, realizes_ofPattern text p starts hstarts,
      hrest]
    constructor
    · rintro (⟨s, hs, before, piece, after, htext, hstart, hend, h⟩ | ⟨s, hs, before, piece, after, htext, hstart, hend, h⟩)
      · exact ⟨s, hs, before, piece, after, htext, hstart, hend, .inl h⟩
      · exact ⟨s, hs, before, piece, after, htext, hstart, hend, .inr h⟩
    · rintro ⟨s, hs, before, piece, after, htext, hstart, hend, h | h⟩
      · exact .inl ⟨s, hs, before, piece, after, htext, hstart, hend, h⟩
      · exact .inr ⟨s, hs, before, piece, after, htext, hstart, hend, h⟩

end

/-- A pattern occurs in a text just if it describes some piece of it. -/
theorem occursIn_iff {p : Pattern} : p.occursIn text = true ↔
    ∃ before piece after, text.toList = before ++ (piece ++ after) ∧ p.Describes before piece after := by
  have hwithin : Within text.toList (.lowest (Ground.ofText text).size) := by
    intro s hs
    rw [Places.testBit_lowest, size_ofText] at hs
    exact Nat.le_of_lt_succ hs
  have hreach := realizes_ofPattern text p _ hwithin
  rw [occursIn, bne_iff_ne]
  constructor
  · intro hne
    obtain ⟨e, he⟩ := Nat.exists_testBit_of_ne_zero hne
    obtain ⟨s, -, before, piece, after, htext, -, -, h⟩ := (hreach e).1 he
    exact ⟨before, piece, after, htext, h⟩
  · rintro ⟨before, piece, after, htext, h⟩ hzero
    have hspans : p.Describes.Spans text.toList (piece.length + after.length) after.length :=
      ⟨before, piece, after, htext, rfl, rfl, h⟩
    have hstart : (Places.lowest (Ground.ofText text).size).testBit (piece.length + after.length) = true := by
      rw [Places.testBit_lowest, size_ofText]
      exact Nat.lt_succ_of_le hspans.le_length
    have hend := (hreach after.length).2 ⟨_, hstart, hspans⟩
    rw [hzero, Nat.zero_testBit] at hend
    cases hend

end Pattern

end Inventory
