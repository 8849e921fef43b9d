import Inventory.Proofs.Pattern.SetAhead

/-! # Reading ahead of repetitions and groups

The bounds of a repetition are read alike with the end of a group behind the text (`bounds?_append`). So is what a
parenthesis begins (`opening?_append`); only changes of flags that the text breaks off take the end of the group for
their own (`directive_of_opening?_append`).
-/

namespace Inventory.Pattern

variable {flags : Flags} {cs rest left t : List Char}

/-! ### Repetitions -/

theorem count?_eq {digits : List Char} (h : gatherAll flags Char.isDigit (cs.dropWhile Text.isBlank) = (digits, rest)) :
    count? flags cs = (Text.natural? UInt32.size digits).map (·, rest.dropWhile Text.isBlank) := by
  unfold count?
  rw [h]
  dsimp only
  cases Text.natural? UInt32.size digits <;> rfl

theorem count?_nil : count? flags [] = none := by
  rw [count?_eq rfl]
  rfl

/-- A number is read alike, or a comment is open behind it. -/
theorem count?_append (flags : Flags) (ht : Closing t) (cs : List Char) :
    count? flags (cs ++ t) = (count? flags cs).map (extend t) ∨
      count? flags (cs ++ t) = count? flags cs ∧ ∀ read, count? flags cs = some read → read.2 = [] := by
  cases hread : gatherAll flags Char.isDigit (cs.dropWhile Text.isBlank) with | _ digits left
  obtain hgather | ⟨rfl, hgather⟩ := gatherAll_append ht rfl hread
  · rw [← dropWhile_append ht rfl] at hgather
    rw [count?_eq hread, count?_eq hgather, dropWhile_append ht rfl, Option.map_map]
    exact .inl rfl
  · rw [← dropWhile_append ht rfl] at hgather
    rw [count?_eq hread, count?_eq hgather]
    refine .inr ⟨rfl, fun read h => ?_⟩
    obtain ⟨n, -, rfl⟩ := Option.map_eq_some_iff.1 h
    rfl

def most? (flags : Flags) (least : Nat) (cs : List Char) : Option ((Nat × Option Nat) × List Char) :=
  (count? flags cs).bind fun read => match read.2 with
    | '}' :: rest => if least ≤ read.1 then some ((least, some read.1), rest) else none
    | _ => none

def boundsFrom? (flags : Flags) (least : Nat) : List Char → Option ((Nat × Option Nat) × List Char)
  | '}' :: rest => some ((least, some least), rest)
  | ',' :: rest => match skip flags rest with
    | '}' :: rest => some ((least, none), rest)
    | rest => most? flags least rest
  | _ => none

theorem boundsFrom?_open {least : Nat} (h : skip flags cs = '}' :: rest) :
    boundsFrom? flags least (',' :: cs) = some ((least, none), rest) := by
  simp only [boundsFrom?, h]

theorem boundsFrom?_most {least : Nat} (h : ∀ rest, skip flags cs ≠ '}' :: rest) :
    boundsFrom? flags least (',' :: cs) = most? flags least (skip flags cs) := by
  simp only [boundsFrom?]

theorem boundsFrom?_eq_none {least : Nat} (hbrace : ∀ rest, cs ≠ '}' :: rest)
    (hcomma : ∀ rest, cs ≠ ',' :: rest) : boundsFrom? flags least cs = none := by
  unfold boundsFrom?
  split
  · exact absurd rfl (hbrace _)
  · exact absurd rfl (hcomma _)
  · rfl

theorem bounds?_eq (flags : Flags) (cs : List Char) :
    bounds? flags cs = (count? flags (skip flags cs)).bind fun read => boundsFrom? flags read.1 read.2 := by
  unfold bounds?
  refine congrArg ((count? flags _).bind ·) (funext fun ⟨least, left⟩ => ?_)
  dsimp only
  split
  · rfl
  · split
    · next h => exact (boundsFrom?_open h).symm
    · next h =>
      rw [boundsFrom?_most h, most?]
      refine congrArg ((count? flags _).bind ·) (funext fun ⟨most, rest⟩ => ?_)
      dsimp only
      split
      · next heq =>
        cases heq
        rfl
      · next hbrace =>
        split
        · exact absurd rfl (hbrace _ _)
        · rfl
  · next hbrace hcomma => exact (boundsFrom?_eq_none hbrace hcomma).symm

theorem most?_append (ht : Closing t) (least : Nat) (cs : List Char) :
    most? flags least (cs ++ t) = (most? flags least cs).map (extend t) := by
  unfold most?
  obtain hcount | ⟨hcount, hleft⟩ := count?_append flags ht cs
  · rw [hcount]
    cases count? flags cs with
    | none => rfl
    | some read =>
      obtain ⟨most, left⟩ := read
      simp only [Option.map_some, Option.bind_some, extend]
      by_cases hbrace : ∃ rest, left = '}' :: rest
      · obtain ⟨rest, rfl⟩ := hbrace
        simp only [List.cons_append]
        split <;> rfl
      · rw [not_exists] at hbrace
        split
        · next heq => exact absurd heq (ht.append_ne_cons (by decide) hbrace _)
        · rfl
  · rw [hcount]
    cases hread : count? flags cs with
    | none => rfl
    | some read =>
      obtain ⟨most, left⟩ := read
      obtain rfl : left = [] := hleft _ hread
      rfl

theorem boundsFrom?_append (ht : Closing t) (least : Nat) (cs : List Char) :
    boundsFrom? flags least (cs ++ t) = (boundsFrom? flags least cs).map (extend t) := by
  by_cases hbrace : ∃ rest, cs = '}' :: rest
  · obtain ⟨rest, rfl⟩ := hbrace
    rfl
  by_cases hcomma : ∃ rest, cs = ',' :: rest
  · obtain ⟨rest, rfl⟩ := hcomma
    rw [List.cons_append]
    obtain hskip | ⟨hleft, hskip⟩ := (skip_append flags rest).eq_or ht
    · by_cases hopen : ∃ more, skip flags rest = '}' :: more
      · obtain ⟨more, hmore⟩ := hopen
        rw [hmore] at hskip
        rw [boundsFrom?_open hskip, boundsFrom?_open hmore]
        rfl
      · rw [not_exists] at hopen
        rw [boundsFrom?_most (hskip ▸ ht.append_ne_cons (by decide) hopen), boundsFrom?_most hopen, hskip]
        exact most?_append ht least _
    · have hnone {cs : List Char} (h : skip flags cs = []) : boundsFrom? flags least (',' :: cs) = none := by
        rw [boundsFrom?_most (by rw [h]; nofun), h, most?, count?_nil]
        rfl
      rw [hnone hleft, hnone hskip]
      rfl
  · rw [not_exists] at hbrace hcomma
    rw [boundsFrom?_eq_none hbrace hcomma, boundsFrom?_eq_none (ht.append_ne_cons (by decide) hbrace)
      (ht.append_ne_cons (by decide) hcomma)]
    rfl

theorem bounds?_append (ht : Closing t) (cs : List Char) :
    bounds? flags (cs ++ t) = (bounds? flags cs).map (extend t) := by
  rw [bounds?_eq, bounds?_eq]
  obtain hskip | ⟨hleft, hskip⟩ := (skip_append flags cs).eq_or ht
  · rw [hskip]
    obtain hcount | ⟨hcount, hleft⟩ := count?_append flags ht (skip flags cs)
    · rw [hcount]
      cases count? flags (skip flags cs) with
      | none => rfl
      | some read => exact boundsFrom?_append ht read.1 read.2
    · rw [hcount]
      cases hread : count? flags (skip flags cs) with
      | none => rfl
      | some read =>
        rw [Option.bind_some, hleft read hread]
        rfl
  · rw [hleft, hskip, count?_nil]
    rfl

theorem dropLazy_append (ht : Closing t) (cs : List Char) : dropLazy (cs ++ t) = dropLazy cs ++ t := by
  by_cases hlazy : ∃ rest, cs = '?' :: rest
  · obtain ⟨rest, rfl⟩ := hlazy
    rfl
  · have hself {cs : List Char} (h : ∀ rest, cs ≠ '?' :: rest) : dropLazy cs = cs := by
      unfold dropLazy
      split
      · exact absurd rfl (h _)
      · rfl
    rw [hself (not_exists.1 hlazy), hself (ht.append_ne_cons (by decide) (not_exists.1 hlazy))]

/-! ### Groups -/

theorem namedGroup?_eq_none (h : ∀ name rest, cs.span (· != '>') ≠ (name, '>' :: rest)) :
    namedGroup? flags cs = none := by
  unfold namedGroup?
  split
  · next heq => exact absurd heq (h _ _)
  · rfl

theorem namedGroup?_append (ht : Closing t) (cs : List Char) :
    namedGroup? flags (cs ++ t) = (namedGroup? flags cs).map (extend t) := by
  have hspan := span_append (ht.bne (by decide) (by decide) : ∀ c ∈ t, (c != '>') = true) cs
  by_cases hread : ∃ name rest, cs.span (· != '>') = (name, '>' :: rest)
  · obtain ⟨name, rest, hread⟩ := hread
    rw [hread] at hspan
    obtain hspan | ⟨⟨⟩, -⟩ := hspan
    simp only [namedGroup?, hspan, hread, extend, List.cons_append]
    split <;> rfl
  · push Not at hread
    rw [namedGroup?_eq_none hread, namedGroup?_eq_none]
    · rfl
    · intro name rest hmore
      rw [hmore] at hspan
      obtain hspan | ⟨-, ⟨⟩⟩ := hspan
      have hmark (rest : List Char) : (cs.span (· != '>')).2 ≠ '>' :: rest :=
        fun h => hread _ rest (Prod.ext rfl h)
      exact absurd (Prod.mk.inj hspan).2.symm (ht.append_ne_cons (by decide) hmark rest)

theorem span_stop_append {test : Char → Bool} (ht : Closing t) (hstop : test ')' = false) (cs : List Char) :
    (cs ++ t).span test = extend t (cs.span test) := by
  rw [List.span_eq_takeWhile_dropWhile, List.span_eq_takeWhile_dropWhile, dropWhile_append ht hstop]
  refine congrArg (·, cs.dropWhile test ++ t) ?_
  induction cs with
  | nil =>
    obtain ⟨tail, rfl⟩ := ht.eq_cons
    exact List.takeWhile_cons_of_neg (by rw [hstop]; decide)
  | cons c cs ih =>
    by_cases hc : test c = true
    · rw [List.cons_append, List.takeWhile_cons_of_pos hc, List.takeWhile_cons_of_pos hc, ih]
    · rw [List.cons_append, List.takeWhile_cons_of_neg hc, List.takeWhile_cons_of_neg hc]

theorem flaggedGroup?_eq_none {changes : List Char}
    (hspan : cs.span (fun c => c != ':' && c != ')') = (changes, left))
    (hcolon : ∀ rest, left ≠ ':' :: rest) (hbracket : ∀ rest, left ≠ ')' :: rest) :
    flaggedGroup? flags cs = none := by
  unfold flaggedGroup?
  rw [hspan]
  split
  · next heq => exact absurd (Prod.mk.inj heq).2 (hcolon _)
  · next heq => exact absurd (Prod.mk.inj heq).2 (hbracket _)
  · rfl

/-- Changes of flags are read alike. If the text breaks them off, the end of the group is taken for theirs. -/
theorem flaggedGroup?_append (ht : Closing t) (cs : List Char) :
    flaggedGroup? flags (cs ++ t) = (flaggedGroup? flags cs).map (extend t) ∨
      flaggedGroup? flags cs = none ∧ ∀ read, flaggedGroup? flags (cs ++ t) = some read →
        (∃ changed, read.1 = .directive changed) ∧ t = ')' :: read.2 := by
  have hmore : (cs ++ t).span (fun c => c != ':' && c != ')') =
      extend t (cs.span fun c => c != ':' && c != ')') := span_stop_append ht rfl cs
  generalize hspan : cs.span (fun c => c != ':' && c != ')') = read at hmore
  obtain ⟨changes, left⟩ := read
  cases left with
  | nil =>
    refine .inr ⟨flaggedGroup?_eq_none hspan nofun nofun, fun read h => ?_⟩
    obtain ⟨tail, rfl⟩ := ht.eq_cons
    simp only [flaggedGroup?, hmore, extend, List.nil_append] at h
    split at h
    · cases h
    · obtain ⟨changed, -, rfl⟩ := Option.map_eq_some_iff.1 h
      exact ⟨⟨changed, rfl⟩, rfl⟩
  | cons c rest =>
    refine .inl ?_
    by_cases hcolon : c = ':'
    · subst hcolon
      simp only [flaggedGroup?, hmore, hspan, extend, List.cons_append, Option.map_map]
      rfl
    by_cases hbracket : c = ')'
    · subst hbracket
      simp only [flaggedGroup?, hmore, hspan, extend, List.cons_append]
      split
      · rfl
      · rw [Option.map_map]
        rfl
    · have hcolons (left : List Char) : ∀ rest, c :: left ≠ ':' :: rest :=
        fun _ h => hcolon (List.cons.inj h).1
      have hbrackets (left : List Char) : ∀ rest, c :: left ≠ ')' :: rest :=
        fun _ h => hbracket (List.cons.inj h).1
      rw [flaggedGroup?_eq_none hmore (hcolons _) (hbrackets _),
        flaggedGroup?_eq_none hspan (hcolons _) (hbrackets _)]
      rfl

def marked? (flags : Flags) : List Char → Option (Opening × List Char)
  | 'P' :: '<' :: rest => namedGroup? flags rest
  | '<' :: rest => namedGroup? flags rest
  | rest => flaggedGroup? flags rest

theorem marked?_flags (hnamed : ∀ rest, cs ≠ 'P' :: '<' :: rest) (hname : ∀ rest, cs ≠ '<' :: rest) :
    marked? flags cs = flaggedGroup? flags cs := by
  unfold marked?
  split
  · exact absurd rfl (hnamed _)
  · exact absurd rfl (hname _)
  · rfl

theorem opening?_marked (h : skip flags cs = '?' :: rest) : opening? flags cs = marked? flags rest := by
  unfold opening?
  split
  · next heq =>
    rw [h] at heq
    cases heq
    rfl
  · next heq =>
    rw [h] at heq
    cases heq
    rfl
  · next hnamed hname heq =>
    rw [h] at heq
    cases heq
    exact (marked?_flags hnamed hname).symm
  · next hmark => exact absurd h (hmark _)

theorem opening?_plain (h : ∀ rest, skip flags cs ≠ '?' :: rest) :
    opening? flags cs = some (.group true none flags, skip flags cs) := by
  unfold opening?
  split
  · next heq => exact absurd heq (h _)
  · next heq => exact absurd heq (h _)
  · next heq => exact absurd heq (h _)
  · rfl

theorem marked?_append (flags : Flags) (ht : Closing t) (cs : List Char) :
    marked? flags (cs ++ t) = (marked? flags cs).map (extend t) ∨
      marked? flags cs = none ∧ ∀ read, marked? flags (cs ++ t) = some read →
        (∃ changed, read.1 = .directive changed) ∧ t = ')' :: read.2 := by
  by_cases hnamed : ∃ rest, cs = 'P' :: '<' :: rest
  · obtain ⟨rest, rfl⟩ := hnamed
    exact .inl (namedGroup?_append ht rest)
  by_cases hname : ∃ rest, cs = '<' :: rest
  · obtain ⟨rest, rfl⟩ := hname
    exact .inl (namedGroup?_append ht rest)
  · rw [not_exists] at hnamed hname
    rw [marked?_flags hnamed hname, marked?_flags (ht.append_ne_pair (by decide) (by decide) hnamed)
      (ht.append_ne_cons (by decide) hname)]
    exact flaggedGroup?_append ht cs

/-- What a parenthesis begins it begins before any closing too. -/
theorem opening?_append {opening : Opening} (h : opening? flags cs = some (opening, left)) :
    ∃ found, Behind left found ∧ ∀ t, Closing t → opening? flags (cs ++ t) = some (opening, found t) := by
  by_cases hmark : ∃ rest, skip flags cs = '?' :: rest
  · obtain ⟨rest, hrest⟩ := hmark
    rw [opening?_marked hrest] at h
    refine ⟨(left ++ ·), .of_append left, fun t ht => ?_⟩
    obtain hskip | ⟨hnil, -⟩ := (skip_append flags cs).eq_or ht
    · rw [hrest] at hskip
      rw [opening?_marked hskip]
      obtain hmarked | ⟨hnone, -⟩ := marked?_append flags ht rest
      · rw [List.append_eq, hmarked, h]
        rfl
      · rw [h] at hnone
        cases hnone
    · rw [hrest] at hnil
      cases hnil
  · rw [not_exists] at hmark
    rw [opening?_plain hmark] at h
    cases h
    refine ⟨fun t => skip flags (cs ++ t), skip_append flags cs, fun t ht => opening?_plain ?_⟩
    obtain hskip | ⟨-, hskip⟩ := (skip_append flags cs).eq_or ht
    · exact hskip ▸ ht.append_ne_cons (by decide) hmark
    · rw [hskip]
      nofun

/-- Behind a parenthesis that begins nothing the end of a group can only be taken for that of a change of flags. -/
theorem directive_of_opening?_append {opening : Opening} (ht : Closing t) (hnone : opening? flags cs = none)
    (h : opening? flags (cs ++ t) = some (opening, left)) :
    (∃ changed, opening = .directive changed) ∧ t = ')' :: left := by
  by_cases hmark : ∃ rest, skip flags cs = '?' :: rest
  · obtain ⟨rest, hrest⟩ := hmark
    obtain hskip | ⟨hnil, -⟩ := (skip_append flags cs).eq_or ht
    · rw [hrest] at hskip
      rw [opening?_marked hrest] at hnone
      rw [opening?_marked hskip] at h
      obtain hmarked | ⟨-, hmarked⟩ := marked?_append flags ht rest
      · rw [List.append_eq, hmarked, hnone] at h
        cases h
      · exact hmarked _ h
    · rw [hrest] at hnil
      cases hnil
  · rw [opening?_plain (not_exists.1 hmark)] at hnone
    cases hnone

end Inventory.Pattern
