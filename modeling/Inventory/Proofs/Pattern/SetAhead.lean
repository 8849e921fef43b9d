import Inventory.Proofs.Pattern.Ahead
import Mathlib.Data.List.TakeWhile

/-! # Reading ahead of a set

A set ends with its closing bracket. If the text has one, the set is read alike with the end of a group behind the
text; if it has none, the set is not read, and the end of a group does not help (`set?_append`).
-/

namespace Inventory.Pattern

variable {flags : Flags} {cs rest left t : List Char} {c : Char} {p : Pattern}

theorem dropWhile_append (ht : Closing t) {test : Char → Bool} (hstop : test ')' = false) (cs : List Char) :
    (cs ++ t).dropWhile test = cs.dropWhile test ++ t := by
  rw [List.dropWhile_append]
  split
  · next h =>
    obtain ⟨tail, rfl⟩ := ht.eq_cons
    rw [List.isEmpty_iff.1 h, List.dropWhile_cons_of_neg (by rw [hstop]; decide)]
    rfl
  · rfl

theorem span_append {test : Char → Bool} (ht : ∀ c ∈ t, test c = true) (cs : List Char) :
    (cs ++ t).span test = extend t (cs.span test) ∨ (cs.span test).2 = [] ∧ ((cs ++ t).span test).2 = [] := by
  rw [List.span_eq_takeWhile_dropWhile, List.span_eq_takeWhile_dropWhile]
  induction cs with
  | nil => exact .inr ⟨rfl, List.dropWhile_eq_nil_iff.2 ht⟩
  | cons c cs ih =>
    by_cases hc : test c = true
    · simp only [List.cons_append, List.takeWhile_cons_of_pos hc, List.dropWhile_cons_of_pos hc]
      exact ih.imp_left fun h => congrArg (fun read => (c :: read.1, read.2)) h
    · simp only [List.cons_append, List.takeWhile_cons_of_neg hc, List.dropWhile_cons_of_neg hc]
      exact .inl rfl

/-- An item of a set is read alike, unless the text breaks it off. Then it takes a part of the closing, or it is an edge
of a word, which no set may have. -/
theorem setItem?_append (flags : Flags) (c : Char) (cs : List Char) (ht : Closing t) :
    setItem? flags (c :: (cs ++ t)) = (setItem? flags (c :: cs)).map (extend t) ∨
      setItem? flags (c :: cs) = none ∧ ∀ read, setItem? flags (c :: (cs ++ t)) = some read →
        ']' ∉ read.2 ∨ read.1 = .look .wordEdge := by
  by_cases hc : c = '\\'
  · subst hc
    change escape? flags (cs ++ t) = (escape? flags cs).map (extend t) ∨ escape? flags cs = none ∧ _
    cases cs with
    | nil =>
      refine .inr ⟨rfl, fun read h => .inl fun hread => ?_⟩
      obtain ⟨tail, rfl⟩ := ht.eq_cons
      have hescape : escape? flags (')' :: tail) = some (read.1, read.2) := h
      have hmem := (escape?_cons_suffix hescape).subset hread
      exact ht.notMem (by decide) (by decide) (List.mem_cons_of_mem _ hmem)
    | cons d cs =>
      obtain h | ⟨rest, -, -, hnone, hlook⟩ := escape?_append flags d cs ht
      · exact .inl h
      · exact .inr ⟨hnone, fun read h => .inr (by rw [hlook read h])⟩
  · refine .inl ?_
    have hchar (cs : List Char) : setItem? flags (c :: cs) = some (.char c, cs) := by
      unfold setItem?
      split
      · next heq => cases heq
      · next heq => exact absurd (List.cons.inj heq).1 hc
      · next heq =>
        cases heq
        rfl
    rw [hchar, hchar]
    rfl

theorem head?_append (ht : Closing t) (cs : List Char) : (cs ++ t).head? = cs.head?.or (some ')') := by
  obtain ⟨tail, rfl⟩ := ht.eq_cons
  cases cs <;> rfl

theorem behindMinus_append (ht : Closing t) (cs : List Char) :
    behindMinus flags (cs ++ t) = (behindMinus flags cs).or (some ')') := by
  unfold behindMinus
  split
  · rw [dropWhile_append ht rfl]
    split
    · next heq =>
      obtain ⟨body, hbody⟩ : ∃ body, cs.dropWhile Text.isBlank = '#' :: body := by
        by_contra h
        exact ht.append_ne_cons (by decide) (not_exists.1 h) _ heq
      rw [hbody] at heq ⊢
      obtain rfl := (List.cons.inj heq).2
      rw [List.append_eq, dropWhile_append ht rfl, head?_append ht]
      rfl
    · next hcomment =>
      rw [head?_append ht]
      split
      · next heq =>
        rw [heq] at hcomment
        exact absurd rfl (hcomment _)
      · rfl
  · exact head?_append ht cs

theorem notMem_of_head?_dropWhile {test : Char → Bool} (hc : test c = false) (h : (cs.dropWhile test).head? = none) :
    c ∉ cs := by
  rw [List.head?_eq_none_iff, List.dropWhile_eq_nil_iff] at h
  intro hmem
  rw [h c hmem] at hc
  cases hc

theorem notMem_of_behindMinus (h : behindMinus flags cs = none) : ']' ∉ cs := by
  have hblank : Text.isBlank ']' = false := by decide
  unfold behindMinus at h
  split at h
  · split at h
    · next heq =>
      rw [← List.takeWhile_append_dropWhile (p := Text.isBlank) (l := cs), heq, List.mem_append, List.mem_cons]
      rintro (hmem | hmem | hmem)
      · rw [List.mem_takeWhile_imp hmem] at hblank
        cases hblank
      · exact absurd hmem (by decide)
      · exact notMem_of_head?_dropWhile hblank h hmem
    · exact notMem_of_head?_dropWhile hblank h
  · rw [List.head?_eq_none_iff.1 h]
    exact List.not_mem_nil

/-- What is left, if anything is read, has no closing bracket. -/
def Unclosed {α : Type} (o : Option (α × List Char)) : Prop :=
  ∀ read, o = some read → ']' ∉ read.2

/-- The text that a reader leaves has no closing bracket if the text before has none. -/
theorem notMem_bracket (ht : Closing t) (h : ']' ∉ cs) (hleft : left <:+ cs ++ t) : ']' ∉ left :=
  fun hmem => (List.mem_append.1 (hleft.subset hmem)).elim h (ht.notMem (by decide) (by decide))

theorem range?_look {first last : Pattern} {edge : Look} (h : last = .look edge) : range? first last = none := by
  subst h
  unfold range?
  cases charOfItem? first <;> rfl

theorem rangeTo?_append (ht : Closing t) (first : Pattern) (cs : List Char) :
    rangeTo? flags first (cs ++ t) = (rangeTo? flags first cs).map (extend t) ∨
      Unclosed (rangeTo? flags first cs) ∧ Unclosed (rangeTo? flags first (cs ++ t)) := by
  unfold rangeTo?
  obtain hskip | ⟨hleft, hskip⟩ := (skip_append flags cs).eq_or ht
  · rw [hskip]
    cases skip flags cs with
    | nil =>
      refine .inr ⟨nofun, fun read h => ?_⟩
      obtain ⟨last, hlast, -⟩ := bind_meant?_eq_some h
      exact notMem_bracket ht List.not_mem_nil (setItem?_suffix hlast)
    | cons c rest =>
      obtain hitem | ⟨hnone, hitem⟩ := setItem?_append flags c rest ht
      · refine .inl ?_
        rw [← bind_meant?_extend, ← hitem]
        rfl
      · rw [hnone]
        refine .inr ⟨nofun, fun read h => ?_⟩
        obtain ⟨last, hlast, hrange⟩ := bind_meant?_eq_some h
        obtain hbracket | hlook := hitem _ hlast
        · exact hbracket
        · rw [range?_look hlook] at hrange
          cases hrange
  · rw [hleft, hskip]
    exact .inr ⟨nofun, nofun⟩

theorem rangesFrom?_append (ht : Closing t) (first : Pattern) (cs : List Char) :
    rangesFrom? flags first (cs ++ t) = (rangesFrom? flags first cs).map (extend t) ∨
      Unclosed (rangesFrom? flags first cs) ∧ Unclosed (rangesFrom? flags first (cs ++ t)) := by
  obtain hskip | ⟨hleft, hskip⟩ := (skip_append flags cs).eq_or ht
  · by_cases hminus : ∃ rest, skip flags cs = '-' :: rest
    · obtain ⟨rest, hrest⟩ := hminus
      rw [hrest, List.cons_append] at hskip
      rw [rangesFrom?_minus hskip, rangesFrom?_minus hrest, behindMinus_append ht]
      cases hnext : behindMinus flags rest with
      | none =>
        -- The text ends with the minus sign, but for blanks and comment marks.
        have hbracket := notMem_of_behindMinus hnext
        rw [if_neg (by decide), if_neg (by decide)]
        refine .inr ⟨fun read h => ?_, fun read h => ?_⟩
        · exact fun hmem => hbracket ((rangeTo?_suffix h).subset hmem)
        · exact notMem_bracket ht hbracket (rangeTo?_suffix h)
      | some d =>
        rw [Option.some_or]
        split
        · refine .inl ?_
          rw [Option.map_map]
          rfl
        · exact rangeTo?_append ht first rest
    · rw [not_exists] at hminus
      have hminus' : ∀ rest, skip flags (cs ++ t) ≠ '-' :: rest := hskip ▸ ht.append_ne_cons (by decide) hminus
      refine .inl ?_
      rw [rangesFrom?_item hminus', rangesFrom?_item hminus, hskip, Option.map_map]
      rfl
  · have hnil {cs : List Char} (h : skip flags cs = []) : Unclosed (rangesFrom? flags first cs) := by
      intro read hread
      rw [rangesFrom?_item (by rw [h]; nofun), h] at hread
      obtain ⟨_, -, rfl⟩ := Option.map_eq_some_iff.1 hread
      exact List.not_mem_nil
    exact .inr ⟨hnil hleft, hnil hskip⟩

theorem rangesFrom?_look {first : Pattern} {edge : Look} (h : first = .look edge) :
    rangesFrom? flags first cs = none := by
  subst h
  by_cases hminus : ∃ rest, skip flags cs = '-' :: rest
  · obtain ⟨rest, hrest⟩ := hminus
    rw [rangesFrom?_minus hrest]
    split
    · rfl
    · unfold rangeTo?
      cases setItem? flags (skip flags rest) <;> rfl
  · rw [rangesFrom?_item (not_exists.1 hminus)]
    rfl

/-- One item or range of a set is read alike, or no closing bracket stands behind it. -/
theorem setRanges?_append (flags : Flags) (c : Char) (cs : List Char) (ht : Closing t) :
    setRanges? flags (c :: (cs ++ t)) = (setRanges? flags (c :: cs)).map (extend t) ∨
      Unclosed (setRanges? flags (c :: cs)) ∧ Unclosed (setRanges? flags (c :: (cs ++ t))) := by
  rw [setRanges?_eq, setRanges?_eq]
  obtain hitem | ⟨hnone, hitem⟩ := setItem?_append flags c cs ht
  · rw [hitem]
    cases setItem? flags (c :: cs) with
    | none => exact .inl rfl
    | some read => exact rangesFrom?_append ht read.1 read.2
  · rw [hnone]
    refine .inr ⟨nofun, fun read h => ?_⟩
    obtain ⟨⟨first, left⟩, hfirst, h⟩ := Option.bind_eq_some_iff.1 h
    obtain hbracket | hlook := hitem _ hfirst
    · exact fun hmem => hbracket ((rangesFrom?_suffix h).subset hmem)
    · rw [rangesFrom?_look hlook] at h
      cases h

theorem Closing.append_ne_pair {d : Char} (ht : Closing t) (hc : c ≠ ')') (hd : d ≠ ')')
    (h : ∀ rest, cs ≠ c :: d :: rest) (rest : List Char) : cs ++ t ≠ c :: d :: rest := by
  cases cs with
  | nil =>
    have hnil (rest : List Char) : [] ≠ c :: rest := nofun
    exact ht.append_ne_cons hc hnil (d :: rest)
  | cons e cs =>
    intro heq
    obtain ⟨rfl, htail⟩ := List.cons.inj heq
    exact ht.append_ne_cons hd (fun rest hrest => h rest (congrArg (e :: ·) hrest)) rest htail

def colonName? (cs : List Char) : Option (List Char × List Char) :=
  match cs.span (· != ':') with
  | (name, ':' :: ']' :: rest) => some (name, rest)
  | _ => none

theorem colonName?_cases (cs : List Char) :
    (∃ name rest, cs.span (· != ':') = (name, ':' :: ']' :: rest) ∧ colonName? cs = some (name, rest)) ∨
      (∀ name rest, cs.span (· != ':') ≠ (name, ':' :: ']' :: rest)) ∧ colonName? cs = none := by
  unfold colonName?
  split
  · next h => exact .inl ⟨_, _, h, rfl⟩
  · next h => exact .inr ⟨h, rfl⟩

theorem namedSet?_colon (cs : List Char) :
    namedSet? (':' :: cs) = (colonName? (setSign cs).2).bind (meant? fun name =>
      (CharSet.named? (String.ofList name)).map fun set => if (setSign cs).1 then set.complement else set) := by
  obtain ⟨rest, rfl, hsign⟩ | ⟨hother, hsign⟩ := setSign_cases cs
  all_goals
    rw [hsign]
    dsimp only
    obtain ⟨name, left, hspan, hname⟩ | ⟨hspan, hname⟩ := colonName?_cases _
    · rw [hname]
      simp only [namedSet?, hspan]
      exact Option.map_map (·, _) _ _ |>.symm
    · rw [hname]
      -- `hspan` rules the first arm of the match out.
      simp only [namedSet?, if_true, Bool.false_eq_true, if_false]
      rfl

theorem setSign_append (ht : Closing t) (cs : List Char) : setSign (cs ++ t) = extend t (setSign cs) := by
  obtain ⟨rest, rfl, h⟩ | ⟨hsign, h⟩ := setSign_cases cs
  · rw [h]
    rfl
  · rw [h]
    obtain ⟨rest, hrest, -⟩ | ⟨-, h⟩ := setSign_cases (cs ++ t)
    · exact absurd hrest (ht.append_ne_cons (by decide) hsign _)
    · exact h

theorem colonName?_append (ht : Closing t) (cs : List Char) :
    colonName? (cs ++ t) = (colonName? cs).map (extend t) := by
  have hspan := span_append (ht.bne (by decide) (by decide) : ∀ c ∈ t, (c != ':') = true) cs
  obtain ⟨name, rest, hread, hname⟩ | ⟨hread, hnone⟩ := colonName?_cases cs
  · rw [hread] at hspan
    obtain hspan | ⟨⟨⟩, -⟩ := hspan
    rw [hname, colonName?, hspan]
    rfl
  · rw [hnone]
    obtain ⟨name, rest, hmore, -⟩ | ⟨-, hmore⟩ := colonName?_cases (cs ++ t)
    · rw [hmore] at hspan
      obtain hspan | ⟨-, ⟨⟩⟩ := hspan
      have hpair (rest : List Char) : (cs.span (· != ':')).2 ≠ ':' :: ']' :: rest :=
        fun h => hread _ rest (Prod.ext rfl h)
      exact absurd (Prod.mk.inj hspan).2.symm (ht.append_ne_pair (by decide) (by decide) hpair rest)
    · exact hmore

theorem namedSet?_append (ht : Closing t) (cs : List Char) :
    namedSet? (cs ++ t) = (namedSet? cs).map (extend t) := by
  by_cases hcolon : ∃ rest, cs = ':' :: rest
  · obtain ⟨rest, rfl⟩ := hcolon
    rw [List.cons_append, namedSet?_colon, namedSet?_colon, setSign_append ht, ← bind_meant?_extend]
    dsimp only [extend]
    rw [colonName?_append ht]
    rfl
  · have hnone {cs : List Char} (h : ∀ rest, cs ≠ ':' :: rest) : namedSet? cs = none := by
      unfold namedSet?
      split
      · exact absurd rfl (h _)
      · rfl
    rw [hnone (not_exists.1 hcolon), hnone (ht.append_ne_cons (by decide) (not_exists.1 hcolon))]
    rfl

/-- Two marks that may not stand next to each other in a set. -/
def isPair (cs : List Char) : Prop :=
  ∃ c ∈ ['&', '-', '~'], ∃ rest, cs = c :: c :: rest

theorem setItems?_ranges {fuel : Nat} {found : CharSet} (hclose : ∀ rest, skip flags cs ≠ ']' :: rest)
    (hopen : ∀ rest, skip flags cs ≠ '[' :: rest) (hpair : ¬isPair (skip flags cs)) :
    setItems? flags (fuel + 1) found cs =
      (setRanges? flags (skip flags cs)).bind fun read => setItems? flags fuel (found ++ read.1) read.2 := by
  unfold isPair at hpair
  push Not at hpair
  rw [setItems?]
  split
  · next heq => exact absurd heq (hclose _)
  · next heq => exact absurd heq (hopen _)
  · next heq => exact absurd heq (hpair '&' (by decide) _)
  · next heq => exact absurd heq (hpair '-' (by decide) _)
  · next heq => exact absurd heq (hpair '~' (by decide) _)
  · rfl

theorem setItems?_pair {fuel : Nat} {found : CharSet} (hpair : isPair (skip flags cs)) :
    setItems? flags (fuel + 1) found cs = none := by
  obtain ⟨c, hc, rest, hrest⟩ := hpair
  rw [setItems?, hrest]
  simp only [List.mem_cons, List.not_mem_nil, or_false] at hc
  rcases hc with rfl | rfl | rfl <;> rfl

theorem bind_setItems?_eq_none {fuel : Nat} {found : CharSet} {o : Option (CharSet × List Char)}
    (h : Unclosed o) :
    (o.bind fun read => setItems? flags fuel (found ++ read.1) read.2) = none := by
  cases o with
  | none => rfl
  | some read => exact setItems?_eq_none (h read rfl)

/-- The items of a set are read alike. The counts of steps need not be equal if there are enough of both. -/
theorem setItems?_append (ht : Closing t) (fuel more : Nat) (found : CharSet) (cs : List Char)
    (hfuel : cs.length < fuel) (hmore : cs.length + t.length < more) :
    setItems? flags more found (cs ++ t) = (setItems? flags fuel found cs).map (extend t) := by
  induction fuel generalizing more found cs with
  | zero => exact absurd hfuel (Nat.not_lt_zero _)
  | succ fuel ih =>
    obtain ⟨more, rfl⟩ : ∃ n, more = n + 1 := Nat.exists_eq_add_one.2 (Nat.zero_lt_of_lt hmore)
    -- Behind an item of at least one character the induction goes on.
    have hgo (o : Option (CharSet × List Char)) (ho : ∀ read, o = some read → read.2.length < cs.length) :
        ((o.map (extend t)).bind fun read => setItems? flags more (found ++ read.1) read.2) =
          (o.bind fun read => setItems? flags fuel (found ++ read.1) read.2).map (extend t) := by
      cases o with
      | none => rfl
      | some read =>
        have hread := ho read rfl
        exact ih more (found ++ read.1) read.2 (by omega) (by omega)
    obtain hskip | ⟨hleft, hskip⟩ := (skip_append flags cs).eq_or ht
    · by_cases hclose : ∃ rest, skip flags cs = ']' :: rest
      · obtain ⟨rest, hrest⟩ := hclose
        rw [hrest] at hskip
        simp only [setItems?, hrest, hskip, List.cons_append]
        rfl
      by_cases hopen : ∃ rest, skip flags cs = '[' :: rest
      · obtain ⟨rest, hrest⟩ := hopen
        have hlength := (suffix_of_skip hrest).length_le
        rw [hrest] at hskip
        simp only [setItems?, hrest, hskip, List.cons_append]
        rw [namedSet?_append ht]
        exact hgo _ fun read h => Nat.lt_of_le_of_lt (namedSet?_suffix h).length_le hlength
      by_cases hpair : isPair (skip flags cs)
      · have hpair' : isPair (skip flags (cs ++ t)) := by
          obtain ⟨c, hc, rest, hrest⟩ := hpair
          exact ⟨c, hc, rest ++ t, by rw [hskip, hrest]; rfl⟩
        rw [setItems?_pair hpair, setItems?_pair hpair']
        rfl
      · rw [not_exists] at hclose hopen
        have hpair' : ¬isPair (skip flags (cs ++ t)) := by
          rintro ⟨c, hc, rest, hrest⟩
          have hmark : c ≠ ')' := by
            rintro rfl
            exact absurd hc (by decide)
          exact ht.append_ne_pair hmark hmark (fun rest h => hpair ⟨c, hc, rest, h⟩) rest (hskip ▸ hrest)
        rw [setItems?_ranges hclose hopen hpair, setItems?_ranges (hskip ▸ ht.append_ne_cons (by decide) hclose)
          (hskip ▸ ht.append_ne_cons (by decide) hopen) hpair', hskip]
        cases hbody : skip flags cs with
        | nil =>
          refine bind_setItems?_eq_none fun read h => ?_
          obtain ⟨tail, rfl⟩ := ht.eq_cons
          exact notMem_bracket ht List.not_mem_nil ((setRanges?_cons_suffix h).trans (List.suffix_cons _ _))
        | cons c rest =>
          have hlength := (suffix_of_skip hbody).length_le
          obtain hranges | ⟨halone, hranges⟩ := setRanges?_append flags c rest ht
          · rw [List.cons_append, hranges]
            exact hgo _ fun read h => Nat.lt_of_le_of_lt (setRanges?_cons_suffix h).length_le hlength
          · rw [List.cons_append, bind_setItems?_eq_none halone, bind_setItems?_eq_none hranges]
            rfl
    · have hnone {n : Nat} {cs : List Char} (h : skip flags cs = []) : setItems? flags (n + 1) found cs = none := by
        simp only [setItems?, h]
        rfl
      rw [hnone hleft, hnone hskip]
      rfl

theorem setLead_append (flags : Flags) (ht : Closing t) (cs : List Char) :
    setLead flags (cs ++ t) = extend t (setLead flags cs) ∨
      (setLead flags cs).2 = [] ∧ (setLead flags (cs ++ t)).2 = [] := by
  obtain ⟨rest, hread, hlead⟩ | ⟨dashes, rest, hread, hbracket, hlead⟩ := setLead_cases flags cs
  · obtain hgather | ⟨hleft, -⟩ := gatherAll_append ht rfl hread
    · refine .inl ?_
      rw [hlead, setLead, hgather]
      rfl
    · cases hleft
  · rw [hlead]
    obtain hgather | ⟨rfl, hgather⟩ := gatherAll_append ht rfl hread
    · refine .inl ?_
      obtain ⟨more, hread', -⟩ | ⟨_, _, hread', -, hlead'⟩ := setLead_cases flags (cs ++ t)
      · rw [hgather, Prod.mk.injEq] at hread'
        exact absurd hread'.2 (ht.append_ne_cons (by decide) (hbracket hread'.1) _)
      · rw [hgather] at hread'
        cases hread'
        exact hlead'
    · refine .inr ⟨rfl, ?_⟩
      obtain ⟨more, hread', -⟩ | ⟨_, _, hread', -, hlead'⟩ := setLead_cases flags (cs ++ t)
      · rw [hgather] at hread'
        cases hread'
      · rw [hgather] at hread'
        cases hread'
        rw [hlead']

/-- A set is read to its closing bracket, whatever stands behind it. -/
theorem set?_append (ht : Closing t) (cs : List Char) :
    set? flags (cs ++ t) = (set? flags cs).map (extend t) := by
  obtain hskip | ⟨hleft, hskip⟩ := (skip_append flags cs).eq_or ht
  · rw [set?_eq, set?_eq, hskip, setSign_append ht]
    dsimp only [extend]
    generalize setSign (skip flags cs) = front
    obtain ⟨negated, body⟩ := front
    dsimp only
    obtain hlead | ⟨hnil, hnil'⟩ := setLead_append flags ht body
    · rw [hlead]
      generalize setLead flags body = lead
      obtain ⟨found, items⟩ := lead
      dsimp only [extend]
      rw [setItems?_append ht (items.length + 1) _ found items (Nat.lt_succ_self _)
        (by rw [List.length_append]; exact Nat.lt_succ_self _), Option.map_map, Option.map_map]
      rfl
    · rw [hnil, hnil', setItems?_eq_none List.not_mem_nil, setItems?_eq_none List.not_mem_nil]
      rfl
  · have hnone {cs : List Char} (h : skip flags cs = []) : set? flags cs = none := by
      rw [set?_eq, h]
      exact Option.map_eq_none_iff.2 (setItems?_eq_none List.not_mem_nil)
    rw [hnone hleft, hnone hskip]
    rfl

end Inventory.Pattern
