import Inventory.Proofs.Pattern.GroupAhead
import Inventory.Proofs.Pattern.Quoted

/-! # Patterns put into a group

A text that is put into a group is read item for item as by itself (`Parser.step?_within`), with one group more open at
any time. The end of the group ends it too (`Parser.Reads.read?_within`), unless it ends in a comment. What is read in a
group is read by itself, unless it closes the group (`Parser.reads_of_within`). So `parse?_anchored_iff` says when a
text is a pattern between the two ends of a text.
-/

namespace Inventory.Pattern

variable {cs rest left t : List Char} {c : Char} {p : Pattern}

/-- A character that is no blank and begins no comment is not passed over. -/
theorem skip_mark (hblank : Text.isBlank c = false) (hcomment : c ≠ '#') (flags : Flags) (rest : List Char) :
    skip flags (c :: rest) = c :: rest := by
  unfold skip
  split
  · rw [skipVerbose, if_neg (by rw [hblank]; decide), if_neg hcomment]
  · rfl

namespace Parser

variable {parser next : Parser} {outer : List OpenGroup}

/-! ### Reading without a count of steps -/

def read? (parser : Parser) (cs : List Char) : Option Pattern :=
  parser.run? (cs.length + 1) cs

theorem run?_eq_of_lt {n m : Nat} (hn : cs.length < n) (hm : cs.length < m) : parser.run? n cs = parser.run? m cs := by
  induction n generalizing m parser cs with
  | zero => exact absurd hn (Nat.not_lt_zero _)
  | succ n ih =>
    obtain ⟨m, rfl⟩ : ∃ k, m = k + 1 := Nat.exists_eq_add_one.2 (Nat.zero_lt_of_lt hm)
    rw [run?, run?]
    split
    · rfl
    · next c rest hskip =>
      have hrest := (suffix_of_skip hskip).length_le
      rw [List.length_cons] at hrest
      cases hstep : parser.step? c rest with
      | none => rfl
      | some read =>
        have hleft := (step?_suffix hstep).length_le
        exact ih (by omega) (by omega)

theorem read?_end (h : skip parser.flags cs = []) :
    parser.read? cs = if parser.groups.isEmpty then some parser.level else none := by
  rw [read?, run?, h]

theorem read?_item (h : skip parser.flags cs = c :: rest) :
    parser.read? cs = (parser.step? c rest).bind fun read => read.1.read? read.2 := by
  have hrest := (suffix_of_skip h).length_le
  rw [read?, run?, h]
  change ((parser.step? c rest).bind fun read => read.1.run? cs.length read.2) = _
  rw [List.length_cons] at hrest
  cases hstep : parser.step? c rest with
  | none => rfl
  | some read =>
    have hleft := (step?_suffix hstep).length_le
    have hless : read.2.length < cs.length := by omega
    exact run?_eq_of_lt hless (Nat.lt_succ_self _)

/-! ### Reading inside of other groups -/

def within (outer : List OpenGroup) (parser : Parser) : Parser :=
  { parser with groups := parser.groups ++ outer }

def opened (parser : Parser) (keeps : Bool) (name : Option String) (flags : Flags) : Parser :=
  { flags, choices := [], parts := []
    kept := if keeps then name :: parser.kept else parser.kept
    groups := ⟨if keeps then some ⟨parser.kept.length + 1, name⟩ else none, parser.flags, parser.choices,
      parser.parts⟩ :: parser.groups }

theorem open?_group (keeps : Bool) (name : Option String) (flags : Flags) :
    parser.open? (.group keeps name flags) =
      if parser.groups.length < groupLimit ∧ (name.isNone || !parser.kept.contains name) = true then
        some (parser.opened keeps name flags)
      else none := by
  simp only [open?, Bool.and_eq_true, decide_eq_true_eq]
  rfl

/-- Inside of other groups a group is opened alike if there is room for it. -/
theorem open?_within {opening : Opening} (hroom : parser.groups.length + outer.length ≤ groupLimit) :
    (parser.within outer).open? opening =
      ((parser.open? opening).filter fun next => next.groups.length + outer.length ≤ groupLimit).map
        (within outer) := by
  cases opening with
  | directive flags =>
    change _ = Option.map _ (Option.filter _ (some { parser with flags := flags }))
    rw [Option.filter_some, if_pos (decide_eq_true hroom)]
    rfl
  | group keeps name flags =>
    have hgroups : (parser.within outer).groups.length = parser.groups.length + outer.length := List.length_append
    have hopened : (parser.opened keeps name flags).groups.length = parser.groups.length + 1 := List.length_cons
    rw [open?_group, open?_group, hgroups]
    by_cases hname : (name.isNone || !parser.kept.contains name) = true
    · by_cases hdeep : parser.groups.length + outer.length < groupLimit
      · have halone : parser.groups.length < groupLimit := Nat.lt_of_le_of_lt (Nat.le_add_right _ _) hdeep
        rw [if_pos ⟨hdeep, hname⟩, if_pos ⟨halone, hname⟩, Option.filter_some,
          if_pos (decide_eq_true (by rw [hopened]; omega))]
        rfl
      · rw [if_neg fun h => hdeep h.1]
        split
        · rw [Option.filter_some, if_neg (by rw [decide_eq_true_eq, hopened]; omega)]
          rfl
        · rfl
    · rw [if_neg fun h => hname h.2, if_neg fun h => hname h.2]
      rfl

theorem close?_within (h : parser.groups ≠ []) : (parser.within outer).close? = parser.close?.map (within outer) := by
  obtain ⟨g, groups, hgroups⟩ := List.exists_cons_of_ne_nil h
  simp only [close?, within, hgroups, List.cons_append, Option.map_some]
  rfl

theorem repeat?_within (least : Nat) (most : Option Nat) :
    (parser.within outer).repeat? least most = (parser.repeat? least most).map (within outer) := by
  unfold repeat? within
  cases parser.parts <;> rfl

theorem groups_of_repeat? {least : Nat} {most : Option Nat} (h : parser.repeat? least most = some next) :
    next.groups = parser.groups := by
  unfold repeat? at h
  split at h
  · cases h
  · cases h
    rfl

theorem behind_dropLazy {found : List Char → List Char} (h : Behind left found) :
    Behind (dropLazy left) fun t => dropLazy (found t) := by
  obtain h | ⟨rfl, h⟩ := h
  · refine .inl fun t ht => ?_
    dsimp only
    rw [h t ht, dropLazy_append ht]
  · refine .inr ⟨rfl, fun t ht => ?_⟩
    dsimp only
    rw [h t ht]
    rfl

theorem repeat?_append {least : Nat} {most : Option Nat}
    (h : (parser.repeat? least most).map (·, dropLazy rest) = some (next, left)) :
    ∃ found, Behind left found ∧ ∀ outer t, Closing t →
      ((parser.within outer).repeat? least most).map (·, dropLazy (rest ++ t)) = some (next.within outer, found t) := by
  obtain ⟨_, hrepeat, hnext⟩ := Option.map_eq_some_iff.1 h
  cases hnext
  refine ⟨(dropLazy rest ++ ·), .of_append _, fun outer t ht => ?_⟩
  rw [repeat?_within, hrepeat, dropLazy_append ht]
  rfl

/-- An item that is read alone is read inside of other groups and before a closing too. -/
theorem step?_within (h : parser.step? c rest = some (next, left)) :
    ∃ found, Behind left found ∧ ∀ outer t, Closing t → parser.groups.length + outer.length ≤ groupLimit →
      next.groups.length + outer.length ≤ groupLimit →
        (parser.within outer).step? c (rest ++ t) = some (next.within outer, found t) := by
  unfold step? at h
  dsimp only at h
  split at h
  -- The beginning and the end of a group.
  · obtain ⟨⟨opening, more⟩, hopening, h⟩ := Option.bind_eq_some_iff.1 h
    obtain ⟨_, hopen, hnext⟩ := Option.bind_eq_some_iff.1 h
    cases hnext
    obtain ⟨found, hbehind, hfound⟩ := opening?_append hopening
    refine ⟨found, hbehind, fun outer t ht hroom hnext => ?_⟩
    change ((opening? parser.flags (rest ++ t)).bind fun read =>
      ((parser.within outer).open? read.1).bind fun next => some (next, read.2)) = _
    rw [hfound t ht, Option.bind_some, open?_within hroom, hopen, Option.filter_some, if_pos (decide_eq_true hnext)]
    rfl
  · obtain ⟨_, hclose, hnext⟩ := Option.map_eq_some_iff.1 h
    cases hnext
    have hgroups : parser.groups ≠ [] := by
      intro hnil
      rw [close?, hnil] at hclose
      cases hclose
    refine ⟨(rest ++ ·), .of_append rest, fun outer t _ _ _ => ?_⟩
    change (parser.within outer).close?.map (·, rest ++ t) = _
    rw [close?_within hgroups, hclose]
    rfl
  -- A bar between two alternatives, and a set.
  · cases h
    exact ⟨(rest ++ ·), .of_append rest, fun outer t _ _ _ => rfl⟩
  · obtain ⟨⟨set, more⟩, hset, hnext⟩ := Option.map_eq_some_iff.1 h
    cases hnext
    refine ⟨(more ++ ·), .of_append more, fun outer t ht _ _ => ?_⟩
    change (set? parser.flags (rest ++ t)).map (fun read => ((parser.within outer).push read.1, read.2)) = _
    rw [set?_append ht, hset]
    rfl
  -- The repetitions, of which the one with bounds passes over what stands behind it.
  iterate 3
    · obtain ⟨found, hbehind, hfound⟩ := repeat?_append h
      exact ⟨found, hbehind, fun outer t ht _ _ => hfound outer t ht⟩
  · obtain ⟨⟨⟨least, most⟩, more⟩, hbounds, h⟩ := Option.bind_eq_some_iff.1 h
    obtain ⟨_, hrepeat, hnext⟩ := Option.bind_eq_some_iff.1 h
    cases hnext
    refine ⟨fun t => dropLazy (skip parser.flags (more ++ t)), ?_, fun outer t ht _ _ => ?_⟩
    · exact behind_dropLazy (skip_append parser.flags more)
    · change ((bounds? parser.flags (rest ++ t)).bind fun read =>
        ((parser.within outer).repeat? read.1.1 read.1.2).bind fun next =>
          some (next, dropLazy (skip parser.flags read.2))) = _
      rw [bounds?_append ht, hbounds, Option.map_some, Option.bind_some]
      dsimp only [extend]
      rw [repeat?_within, hrepeat]
      rfl
  -- An escape, and the characters that are an item by themselves.
  · obtain ⟨⟨item, more⟩, hitem, hnext⟩ := Option.map_eq_some_iff.1 h
    cases hnext
    cases rest with
    | nil => cases hitem
    | cons d rest =>
      refine ⟨(more ++ ·), .of_append more, fun outer t ht _ _ => ?_⟩
      change (escape? parser.flags (d :: (rest ++ t))).map (fun read => ((parser.within outer).push read.1, read.2)) = _
      obtain hescape | ⟨_, -, -, hnone, -⟩ := escape?_append parser.flags d rest ht
      · rw [hescape, hitem]
        rfl
      · rw [hitem] at hnone
        cases hnone
  iterate 3
    · cases h
      exact ⟨(rest ++ ·), .of_append rest, fun outer t _ _ _ => rfl⟩
  · cases h
    refine ⟨(rest ++ ·), .of_append rest, fun outer t _ _ _ => ?_⟩
    simp only [step?]
    rfl

theorem read?_nil (h : parser.groups ≠ []) : parser.read? [] = none := by
  have hskip : skip parser.flags [] = [] := List.suffix_nil.1 (skip_suffix parser.flags [])
  rw [read?_end hskip, if_neg (mt List.isEmpty_iff.1 h)]

/-- A brace behind which only blanks and comments stand is no repetition. -/
theorem read?_brace (parser : Parser) (hrest : skip parser.flags rest = []) (ht : Closing t) :
    parser.read? ('{' :: rest ++ t) = none := by
  have hbounds : bounds? parser.flags rest = none := by
    rw [bounds?_eq, hrest, count?_nil]
    rfl
  rw [List.cons_append, read?_item (skip_mark rfl (by decide) parser.flags _)]
  change (((bounds? parser.flags (rest ++ t)).bind fun _ => _).bind fun _ => _) = _
  rw [bounds?_append ht, hbounds]
  rfl

/-- Behind the closing nothing is left that would close a group. -/
theorem read?_tail {tail : List Char} (ht : Closing (')' :: tail)) (h : parser.groups ≠ []) :
    parser.read? tail = none := by
  cases ht with
  | bracket => exact read?_nil h
  | anchored =>
    rw [read?_item (skip_mark rfl (by decide) parser.flags [])]
    have hpushed : (parser.push parser.flags.endAnchor).groups ≠ [] := h
    exact read?_nil hpushed

/-- An item that is read inside of other groups and before a closing is read alone, or nothing can be read behind it. -/
theorem step?_of_within (ht : Closing t) (houter : outer ≠ [])
    (hroom : parser.groups.length + outer.length ≤ groupLimit) (hclose : c = ')' → parser.groups ≠ [])
    (h : (parser.within outer).step? c (rest ++ t) = some (next, left)) :
    next.read? left = none ∨
      ∃ alone more, parser.step? c rest = some (alone, more) ∧ alone.groups.length + outer.length ≤ groupLimit := by
  have hwithin : (parser.within outer).groups ≠ [] := List.append_ne_nil_of_right_ne_nil _ houter
  have hrepeat (least : Nat) (most : Option Nat) {cs more : List Char}
      (h : ((parser.within outer).repeat? least most).map (·, more) = some (next, left)) :
      ∃ alone more, (parser.repeat? least most).map (·, dropLazy cs) = some (alone, more) ∧
        alone.groups.length + outer.length ≤ groupLimit := by
    obtain ⟨_, hrepeat, -⟩ := Option.map_eq_some_iff.1 h
    rw [repeat?_within] at hrepeat
    obtain ⟨alone, halone, -⟩ := Option.map_eq_some_iff.1 hrepeat
    exact ⟨alone, _, congrArg (Option.map (·, _)) halone, by rw [groups_of_repeat? halone]; exact hroom⟩
  unfold step? at h
  dsimp only at h
  split at h
  -- The beginning and the end of a group.
  · obtain ⟨⟨opening, more⟩, hopening, h⟩ := Option.bind_eq_some_iff.1 h
    obtain ⟨_, hopen, hnext⟩ := Option.bind_eq_some_iff.1 h
    cases hnext
    cases hfound : opening? parser.flags rest with
    | none =>
      obtain ⟨⟨changed, rfl⟩, rfl⟩ := directive_of_opening?_append ht hfound hopening
      cases hopen
      exact .inl (read?_tail ht hwithin)
    | some read =>
      refine .inr ?_
      obtain ⟨found, -, hsame⟩ := opening?_append hfound
      cases (hsame t ht).symm.trans hopening
      rw [open?_within hroom] at hopen
      obtain ⟨alone, halone, -⟩ := Option.map_eq_some_iff.1 hopen
      obtain ⟨halone, hdeep⟩ := Option.filter_eq_some_iff.1 halone
      refine ⟨alone, read.2, ?_, of_decide_eq_true hdeep⟩
      change ((opening? parser.flags rest).bind fun read =>
        (parser.open? read.1).bind fun next => some (next, read.2)) = _
      rw [hfound, Option.bind_some, halone]
      rfl
  · obtain ⟨g, groups, hgroups⟩ := List.exists_cons_of_ne_nil (hclose rfl)
    obtain ⟨alone, halone, hless⟩ : ∃ alone, parser.close? = some alone ∧ alone.groups = groups := by
      rw [close?, hgroups]
      exact ⟨_, rfl, rfl⟩
    refine .inr ⟨alone, rest, congrArg (Option.map (·, rest)) halone, ?_⟩
    rw [hgroups, List.length_cons] at hroom
    rw [hless]
    omega
  -- A bar between two alternatives, and a set.
  · exact .inr ⟨_, _, rfl, hroom⟩
  · obtain ⟨⟨set, more⟩, hset, -⟩ := Option.map_eq_some_iff.1 h
    rw [within, set?_append ht] at hset
    obtain ⟨⟨alone, left⟩, halone, -⟩ := Option.map_eq_some_iff.1 hset
    exact .inr ⟨_, _, congrArg (Option.map _) halone, hroom⟩
  -- The repetitions.
  · exact .inr (hrepeat 0 (some 1) h)
  · exact .inr (hrepeat 0 none h)
  · exact .inr (hrepeat 1 none h)
  · obtain ⟨⟨⟨least, most⟩, more⟩, hbounds, h⟩ := Option.bind_eq_some_iff.1 h
    rw [within, bounds?_append ht] at hbounds
    obtain ⟨⟨bounds, left⟩, hfound, hbounds⟩ := Option.map_eq_some_iff.1 hbounds
    cases hbounds
    obtain ⟨_, hrepeat, -⟩ := Option.bind_eq_some_iff.1 h
    rw [repeat?_within] at hrepeat
    obtain ⟨alone, halone, -⟩ := Option.map_eq_some_iff.1 hrepeat
    refine .inr ⟨alone, dropLazy (skip parser.flags left), ?_, by rw [groups_of_repeat? halone]; exact hroom⟩
    change ((bounds? parser.flags rest).bind fun read =>
      (parser.repeat? read.1.1 read.1.2).bind fun next => some (next, dropLazy (skip parser.flags read.2))) = _
    rw [hfound, Option.bind_some, halone]
    rfl
  -- An escape that the text breaks off takes the closing for itself, or it leaves a brace that begins nothing.
  · obtain ⟨⟨item, more⟩, hitem, hnext⟩ := Option.map_eq_some_iff.1 h
    cases hnext
    cases rest with
    | nil =>
      obtain ⟨tail, rfl⟩ := ht.eq_cons
      cases hitem
      exact .inl (read?_tail ht hwithin)
    | cons d rest =>
      obtain hescape | ⟨body, rfl, hbody, -, hlook⟩ := escape?_append parser.flags d rest ht
      · rw [within, List.cons_append, hescape] at hitem
        obtain ⟨⟨alone, left⟩, halone, -⟩ := Option.map_eq_some_iff.1 hitem
        exact .inr ⟨_, _, congrArg (Option.map _) halone, hroom⟩
      · cases hlook _ hitem
        exact .inl (read?_brace ((parser.within outer).push (.look .wordEdge)) hbody ht)
  -- The characters that are an item by themselves.
  · exact .inr ⟨_, _, rfl, hroom⟩
  · exact .inr ⟨_, _, rfl, hroom⟩
  · exact .inr ⟨_, _, rfl, hroom⟩
  · exact .inr ⟨parser.push (parser.flags.char c), rest, by simp only [step?], hroom⟩

/-! ### Runs -/

/-- A parser reads a text as a pattern, with at most `room` groups open at a time. -/
inductive Reads (room : Nat) : Parser → List Char → Pattern → Prop
  | done {parser : Parser} {cs : List Char} (hskip : skip parser.flags cs = []) (hgroups : parser.groups = []) :
      Reads room parser cs parser.level
  | item {parser next : Parser} {cs rest left : List Char} {c : Char} {p : Pattern}
      (hskip : skip parser.flags cs = c :: rest) (hstep : parser.step? c rest = some (next, left))
      (hroom : next.groups.length ≤ room) (hnext : Reads room next left p) : Reads room parser cs p

/-- Reading a text a parser comes to the end of a group that it has not opened. -/
inductive Unmatched : Parser → List Char → Prop
  | here {parser : Parser} {cs rest : List Char} (hskip : skip parser.flags cs = ')' :: rest)
      (hgroups : parser.groups = []) : Unmatched parser cs
  | item {parser next : Parser} {cs rest left : List Char} {c : Char}
      (hskip : skip parser.flags cs = c :: rest) (hstep : parser.step? c rest = some (next, left))
      (hnext : Unmatched next left) : Unmatched parser cs

variable {room : Nat} {q : Pattern}

theorem Reads.not_unmatched (h : Reads room parser cs p) : ¬Unmatched parser cs := by
  induction h with
  | done hskip _ =>
    intro h
    cases h with
    | here hskip' _ => cases hskip.symm.trans hskip'
    | item hskip' _ _ => cases hskip.symm.trans hskip'
  | item hskip hstep _ _ ih =>
    intro h
    cases h with
    | here hskip' hgroups =>
      cases hskip.symm.trans hskip'
      change (close? _).map _ = _ at hstep
      rw [close?, hgroups] at hstep
      cases hstep
    | item hskip' hstep' hnext =>
      cases hskip.symm.trans hskip'
      cases hstep.symm.trans hstep'
      exact ih hnext

theorem Reads.read? (h : Reads room parser cs p) : parser.read? cs = some p := by
  induction h with
  | done hskip hgroups => rw [read?_end hskip, hgroups, List.isEmpty_nil, if_pos rfl]
  | item hskip hstep _ _ ih => rw [read?_item hskip, hstep, Option.bind_some, ih]

theorem length_groups_of_open? {opening : Opening} (h : parser.open? opening = some next)
    (hroom : parser.groups.length ≤ groupLimit) : next.groups.length ≤ groupLimit := by
  cases opening with
  | directive flags =>
    cases h
    exact hroom
  | group keeps name flags =>
    rw [open?_group] at h
    split at h
    · next hopen =>
      cases h
      exact hopen.1
    · cases h

theorem length_groups_of_close? (h : parser.close? = some next) : next.groups.length ≤ parser.groups.length := by
  unfold close? at h
  split at h
  · cases h
  · next heq =>
    cases h
    rw [heq]
    exact Nat.le_succ _

theorem length_groups_of_step? (h : parser.step? c rest = some (next, left))
    (hroom : parser.groups.length ≤ groupLimit) : next.groups.length ≤ groupLimit := by
  have hrepeat {least : Nat} {most : Option Nat} {more : List Char}
      (h : (parser.repeat? least most).map (·, more) = some (next, left)) : next.groups.length ≤ groupLimit := by
    obtain ⟨_, hrepeat, hnext⟩ := Option.map_eq_some_iff.1 h
    cases hnext
    rw [groups_of_repeat? hrepeat]
    exact hroom
  unfold step? at h
  dsimp only at h
  split at h
  · obtain ⟨_, -, h⟩ := Option.bind_eq_some_iff.1 h
    obtain ⟨_, hopen, hnext⟩ := Option.bind_eq_some_iff.1 h
    cases hnext
    exact length_groups_of_open? hopen hroom
  · obtain ⟨_, hclose, hnext⟩ := Option.map_eq_some_iff.1 h
    cases hnext
    exact (length_groups_of_close? hclose).trans hroom
  · cases h
    exact hroom
  · obtain ⟨_, -, hnext⟩ := Option.map_eq_some_iff.1 h
    cases hnext
    exact hroom
  · exact hrepeat h
  · exact hrepeat h
  · exact hrepeat h
  · obtain ⟨_, -, h⟩ := Option.bind_eq_some_iff.1 h
    exact hrepeat (Option.map_eq_bind.trans h)
  · obtain ⟨_, -, hnext⟩ := Option.map_eq_some_iff.1 h
    cases hnext
    exact hroom
  all_goals
    cases h
    exact hroom

theorem reads_of_read? (hroom : parser.groups.length ≤ groupLimit) (h : parser.read? cs = some p) :
    Reads groupLimit parser cs p := by
  induction hn : cs.length using Nat.strong_induction_on generalizing parser cs with
  | _ n ih =>
    cases hcs : skip parser.flags cs with
    | nil =>
      rw [read?_end hcs] at h
      split at h
      · next hnone =>
        cases h
        exact .done hcs (List.isEmpty_iff.1 hnone)
      · cases h
    | cons c rest =>
      rw [read?_item hcs] at h
      obtain ⟨⟨next, left⟩, hstep, h⟩ := Option.bind_eq_some_iff.1 h
      have hless : left.length < n := by
        have hleft := (step?_suffix hstep).length_le
        have hrest := (suffix_of_skip hcs).length_le
        rw [List.length_cons] at hrest
        omega
      have hnext := length_groups_of_step? hstep hroom
      exact .item hcs hstep hnext (ih _ hless hnext h rfl)

theorem skipVerbose_skipVerbose (inComment : Bool) (cs : List Char) :
    skipVerbose false (skipVerbose inComment cs) = skipVerbose inComment cs := by
  fun_induction skipVerbose inComment cs with
  | case1 => rfl
  | case2 c rest ih => exact ih
  | case3 c rest hblank ih => exact ih
  | case4 rest hblank ih => exact ih
  | case5 c rest hblank hcomment => rw [skipVerbose, if_neg hblank, if_neg hcomment]

theorem read?_skip (parser : Parser) (cs : List Char) : parser.read? (skip parser.flags cs) = parser.read? cs := by
  have hskip : skip parser.flags (skip parser.flags cs) = skip parser.flags cs := by
    unfold skip
    split
    · exact skipVerbose_skipVerbose false cs
    · rfl
  cases hcs : skip parser.flags cs with
  | nil =>
    rw [hcs] at hskip
    rw [read?_end hskip, read?_end hcs]
  | cons c rest =>
    rw [hcs] at hskip
    rw [read?_item hskip, read?_item hcs]

/-- A text that is read alone is read inside of other groups too, up to the closing behind it. The closing is left,
unless the text ends in a comment. -/
theorem Reads.read?_within (h : Reads room parser cs p) (hgroups : parser.groups.length ≤ room) :
    ∃ (last : Parser) (found : List Char → List Char), last.groups = [] ∧ last.level = p ∧ Behind [] found ∧
      ∀ outer t, Closing t → room + outer.length ≤ groupLimit →
        (parser.within outer).read? (cs ++ t) = (last.within outer).read? (found t) := by
  induction h with
  | @done parser cs hskip hnone =>
    refine ⟨parser, fun t => skip parser.flags (cs ++ t), hnone, rfl, hskip ▸ skip_append parser.flags cs, ?_⟩
    intro outer t _ _
    exact (read?_skip (parser.within outer) (cs ++ t)).symm
  | @item parser next cs rest left c p hskip hstep hroom hnext ih =>
    obtain ⟨after, hbehind, hafter⟩ := step?_within hstep
    have hitem (outer : List OpenGroup) (t : List Char) (ht : Closing t) (houter : room + outer.length ≤ groupLimit) :
        (parser.within outer).read? (cs ++ t) = (next.within outer).read? (after t) := by
      have hskip' : skip (parser.within outer).flags (cs ++ t) = c :: (rest ++ t) := by
        obtain h | ⟨hnil, -⟩ := (skip_append parser.flags cs).eq_or ht
        · rw [hskip] at h
          exact h
        · rw [hskip] at hnil
          cases hnil
      rw [read?_item hskip', hafter outer t ht (by omega) (by omega)]
      rfl
    obtain hleft | ⟨rfl, hleft⟩ := hbehind
    · obtain ⟨last, found, hlast, hlevel, hfound, hread⟩ := ih hroom
      refine ⟨last, found, hlast, hlevel, hfound, fun outer t ht houter => ?_⟩
      rw [hitem outer t ht houter, hleft t ht, hread outer t ht houter]
    · cases hnext with
      | done _ hnone =>
        refine ⟨next, fun _ => [], hnone, rfl, .inr ⟨rfl, fun _ _ => rfl⟩, fun outer t ht houter => ?_⟩
        rw [hitem outer t ht houter, hleft t ht]
      | item hskip' _ _ _ => cases hskip'.symm.trans (List.suffix_nil.1 (skip_suffix _ []))

/-- The closing closes a group of the parser's own, and the others stay open. -/
theorem read?_closing (ht : Closing t) (houter : outer ≠ []) (h : parser.groups ≠ []) :
    (parser.within outer).read? ([] ++ t) = none := by
  obtain ⟨tail, rfl⟩ := ht.eq_cons
  rw [List.nil_append, read?_item (skip_mark rfl (by decide) (parser.within outer).flags tail)]
  change (((parser.within outer).close?.map (·, tail)).bind fun read => read.1.read? read.2) = none
  rw [close?_within h]
  cases parser.close? with
  | none => rfl
  | some next =>
    have hnext : (next.within outer).groups ≠ [] := List.append_ne_nil_of_right_ne_nil _ houter
    exact read?_tail ht hnext

/-- A text that is read inside of another group and before a closing is read alone, or it closes the group itself. -/
theorem reads_of_within (ht : Closing t) (houter : outer ≠ []) (hroom : room + outer.length = groupLimit)
    (hgroups : parser.groups.length ≤ room) (h : (parser.within outer).read? (cs ++ t) = some q) :
    (∃ p, Reads room parser cs p) ∨ Unmatched parser cs := by
  have hwithin (parser : Parser) : (parser.within outer).groups ≠ [] := List.append_ne_nil_of_right_ne_nil _ houter
  -- Each item that is read in the group is one that is read alone, and the rest of the text is shorter.
  induction hn : cs.length using Nat.strong_induction_on generalizing parser cs with
  | _ n ih =>
    obtain hskip | ⟨hnil, hskip⟩ := (skip_append parser.flags cs).eq_or ht
    · cases hcs : skip parser.flags cs with
      | nil =>
        by_cases hnone : parser.groups = []
        · exact .inl ⟨_, .done hcs hnone⟩
        · rw [hcs] at hskip
          rw [← read?_skip] at h
          change (parser.within outer).read? (skip parser.flags (cs ++ t)) = _ at h
          rw [hskip, read?_closing ht houter hnone] at h
          cases h
      | cons c rest =>
        rw [hcs] at hskip
        by_cases hunmatched : c = ')' ∧ parser.groups = []
        · obtain ⟨rfl, hnone⟩ := hunmatched
          exact .inr (.here hcs hnone)
        have hitem : skip (parser.within outer).flags (cs ++ t) = c :: (rest ++ t) := hskip
        rw [read?_item hitem] at h
        obtain ⟨⟨next, left⟩, hstep, h⟩ := Option.bind_eq_some_iff.1 h
        obtain hdead | ⟨alone, more, halone, hdeep⟩ := step?_of_within ht houter (by omega)
          (fun hc hnone => hunmatched ⟨hc, hnone⟩) hstep
        · rw [hdead] at h
          cases h
        · obtain ⟨found, hbehind, hfound⟩ := step?_within halone
          cases (hfound outer t ht (by omega) hdeep).symm.trans hstep
          obtain hleft | ⟨-, hleft⟩ := hbehind.eq_or ht
          · have hless : more.length < n := by
              have hmore := (step?_suffix halone).length_le
              have hrest := (suffix_of_skip hcs).length_le
              rw [List.length_cons] at hrest
              omega
            rw [hleft] at h
            obtain ⟨p, hp⟩ | hunmatched := ih _ hless (by omega) h rfl
            · exact .inl ⟨p, .item hcs halone (by omega) hp⟩
            · exact .inr (.item hcs halone hunmatched)
          · rw [hleft, read?_nil (hwithin alone)] at h
            cases h
    · rw [← read?_skip] at h
      change (parser.within outer).read? (skip parser.flags (cs ++ t)) = _ at h
      rw [hskip, read?_nil (hwithin parser)] at h
      cases h

end Parser

/-! ### Between the two ends of a text -/

section Anchored

variable {s : String} {w : Pattern}

def anchoredGroup : OpenGroup :=
  ⟨none, .plain, [], [.look .textStart]⟩

theorem parse?_eq (s : String) : parse? s = (Parser.start.read? s.toList).filter isWithinLimits :=
  rfl

theorem parse?_anchored_eq (s : String) :
    parse? (anchored s) =
      ((Parser.start.within [anchoredGroup]).read? (s.toList ++ [')', '$'])).filter isWithinLimits := by
  have hfuel : (anchored s).toList.length + 1 = (s.toList ++ [')', '$']).length + 3 + 2 := by
    rw [toList_anchored]
    rfl
  rw [parse?, hfuel, toList_anchored, run?_opening]
  exact congrArg _ (Parser.run?_eq_of_lt (by omega) (by omega))

theorem read?_anchored_end {last : Parser} (hgroups : last.groups = []) :
    (last.within [anchoredGroup]).read? [')', '$'] = some (whole last.level) := by
  rw [Parser.read?_item (skip_mark rfl (by decide) (last.within [anchoredGroup]).flags ['$'])]
  obtain ⟨flags, kept, groups, choices, parts⟩ := last
  subst hgroups
  rfl

theorem read?_bracket {last : Parser} (hgroups : last.groups = []) : last.read? [')'] = none := by
  have hclose : last.close? = none := by
    rw [Parser.close?, hgroups]
  rw [Parser.read?_item (skip_mark rfl (by decide) last.flags [])]
  change ((last.close?.map (·, [])).bind fun read => read.1.read? read.2) = none
  rw [hclose]
  rfl

theorem within_nil (parser : Parser) : parser.within [] = parser := by
  rw [Parser.within, List.append_nil]

theorem not_unmatched_of_parse? (h : parse? s = some p) : ¬Parser.Unmatched .start s.toList :=
  (Parser.reads_of_read? (Nat.zero_le _) (Option.filter_eq_some_iff.1 h).1).not_unmatched

/-- With room for one more group, a text is read in the group too unless it ends in a comment. -/
theorem read?_anchored_of_reads (h : Parser.Reads (Parser.groupLimit - 1) .start s.toList p) :
    (Parser.start.read? (s.toList ++ [')']) = none ∧
      (Parser.start.within [anchoredGroup]).read? (s.toList ++ [')', '$']) = some (whole p)) ∨
    Parser.start.read? (s.toList ++ [')']) = some p ∧
      (Parser.start.within [anchoredGroup]).read? (s.toList ++ [')', '$']) = none := by
  obtain ⟨last, found, hlast, hlevel, hbehind, hread⟩ := h.read?_within (Nat.zero_le _)
  have hplain := hread [] _ .bracket (by decide)
  have hgroup := hread [anchoredGroup] _ .anchored (by decide)
  rw [within_nil, within_nil] at hplain
  obtain hfound | ⟨-, hfound⟩ := hbehind
  · refine .inl ⟨?_, ?_⟩
    · rw [hplain, hfound _ .bracket]
      exact read?_bracket hlast
    · rw [hgroup, hfound _ .anchored, ← hlevel]
      exact read?_anchored_end hlast
  · refine .inr ⟨?_, ?_⟩
    · rw [hplain, hfound _ .bracket, Parser.read?_end (List.suffix_nil.1 (skip_suffix _ _)), hlast, hlevel]
      rfl
    · rw [hgroup, hfound _ .anchored]
      exact Parser.read?_nil (List.append_ne_nil_of_right_ne_nil _ (List.cons_ne_nil _ _))

/-- A text that closes no group that it has not opened is a pattern between the two ends of a text if it is one by
itself, does not end in a comment, and leaves room for the group and the ends. -/
theorem parse?_anchored_iff (hmatched : ¬Parser.Unmatched .start s.toList) :
    parse? (anchored s) = some w ↔
      ∃ p, parse? s = some p ∧ Parser.Reads (Parser.groupLimit - 1) .start s.toList p ∧ parse? (s ++ ")") = none ∧
        p.height < heightLimit ∧ p.totalCost + 64 ≤ costLimit ∧ w = whole p := by
  have htext : (s ++ ")").toList = s.toList ++ [')'] := String.toList_append
  rw [parse?_anchored_eq, parse?_eq (s ++ ")"), htext, Option.filter_eq_some_iff]
  constructor
  · rintro ⟨hread, hlimits⟩
    have hroom : Parser.groupLimit - 1 + [anchoredGroup].length = Parser.groupLimit := rfl
    obtain ⟨p, hp⟩ | hunmatched := Parser.reads_of_within .anchored (List.cons_ne_nil anchoredGroup []) hroom
      (Nat.zero_le _) hread
    · obtain ⟨hplain, hgroup⟩ | ⟨-, hgroup⟩ := read?_anchored_of_reads hp
      · cases hgroup.symm.trans hread
        obtain ⟨hheight, hcost⟩ := isWithinLimits_whole.1 hlimits
        have hwithin : p.isWithinLimits = true := by
          rw [isWithinLimits, Bool.and_eq_true, decide_eq_true_eq, decide_eq_true_eq]
          omega
        refine ⟨p, ?_, hp, ?_, hheight, hcost, rfl⟩
        · rw [parse?_eq, hp.read?, Option.filter_some, if_pos hwithin]
        · rw [hplain]
          rfl
      · cases hgroup.symm.trans hread
    · exact absurd hunmatched hmatched
  · rintro ⟨p, hparse, hp, hplain, hheight, hcost, rfl⟩
    obtain ⟨-, hgroup⟩ | ⟨hread, -⟩ := read?_anchored_of_reads hp
    · exact ⟨hgroup, isWithinLimits_whole.2 ⟨hheight, hcost⟩⟩
    · rw [hread, ← hp.read?] at hplain
      cases hplain.symm.trans hparse

end Anchored

end Inventory.Pattern
