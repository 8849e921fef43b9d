import Inventory.Proofs.Pattern.Remainder

/-! # Reading ahead

How blanks, digits and escapes are read if the end of a group stands behind the text. They are read as without it, and
the end of the group is left. Only a comment at the end of the text runs over it (`skip_append`), and an escape that the
text breaks off takes a part of it (`escape?_append`).
-/

namespace Inventory.Pattern

variable {flags : Flags} {cs rest left t : List Char} {c : Char} {p : Pattern}

/-- What stands behind a text that is put into a group. -/
inductive Closing : List Char → Prop
  | bracket : Closing [')']
  | anchored : Closing [')', '$']

theorem Closing.eq_cons (ht : Closing t) : ∃ tail, t = ')' :: tail := by
  cases ht <;> exact ⟨_, rfl⟩

theorem Closing.notMem (ht : Closing t) (hbracket : c ≠ ')') (hanchor : c ≠ '$') : c ∉ t := by
  cases ht with
  | bracket => exact fun h => hbracket (List.mem_singleton.1 h)
  | anchored => exact fun h => (List.mem_cons.1 h).elim hbracket fun h => hanchor (List.mem_singleton.1 h)

theorem Closing.bne (ht : Closing t) (hbracket : c ≠ ')') (hanchor : c ≠ '$') : ∀ d ∈ t, (d != c) = true :=
  fun _ hd => bne_iff_ne.2 fun h => ht.notMem hbracket hanchor (h ▸ hd)

/-- What a reader has left of a text with a closing behind it, if it has `left` of the text alone. A comment that is
open at the end of the text runs over the closing. -/
def Behind (left : List Char) (found : List Char → List Char) : Prop :=
  (∀ t, Closing t → found t = left ++ t) ∨ left = [] ∧ ∀ t, Closing t → found t = []

theorem Behind.eq_or {found : List Char → List Char} (h : Behind left found) (ht : Closing t) :
    found t = left ++ t ∨ left = [] ∧ found t = [] :=
  h.imp (fun h => h t ht) fun h => ⟨h.1, h.2 t ht⟩

theorem Behind.of_append (left : List Char) : Behind left (left ++ ·) :=
  .inl fun _ _ => rfl

def extend {α : Type} (t : List Char) (read : α × List Char) : α × List Char :=
  (read.1, read.2 ++ t)

/-! ### Blanks and comments -/

theorem skipVerbose_append (inComment : Bool) (cs : List Char) :
    Behind (skipVerbose inComment cs) fun t => skipVerbose inComment (cs ++ t) := by
  fun_induction skipVerbose inComment cs with
  | case1 inComment =>
    cases inComment with
    | true => exact .inr ⟨rfl, fun t ht => by cases ht <;> rfl⟩
    | false => exact .inl fun t ht => by cases ht <;> rfl
  | case2 c rest ih => exact ih
  | case3 c rest hblank ih =>
    simp only [List.cons_append, skipVerbose, if_pos hblank]
    exact ih
  | case4 rest hblank ih =>
    simp only [List.cons_append, skipVerbose, if_neg hblank, if_true]
    exact ih
  | case5 c rest hblank hcomment =>
    simp only [List.cons_append, skipVerbose, if_neg hblank, if_neg hcomment]
    exact .of_append (c :: rest)

theorem skip_append (flags : Flags) (cs : List Char) : Behind (skip flags cs) fun t => skip flags (cs ++ t) := by
  unfold skip
  split
  · exact skipVerbose_append false cs
  · exact .of_append cs

/-- Characters are gathered alike, or a comment is open at the end of the text. Then fewer are gathered than may be. -/
theorem gather_append (verbose : Bool) (test : Char → Bool) (hstop : test ')' = false) (limit : Option Nat)
    (inComment : Bool) (hlimit : inComment = true → limit ≠ some 0) (cs : List Char) :
    (∀ t, Closing t →
      gather verbose test limit inComment (cs ++ t) = extend t (gather verbose test limit inComment cs)) ∨
      (gather verbose test limit inComment cs).2 = [] ∧
        limit ≠ some (gather verbose test limit inComment cs).1.length ∧ ∀ t, Closing t →
          gather verbose test limit inComment (cs ++ t) = gather verbose test limit inComment cs := by
  fun_induction gather verbose test limit inComment cs with
  | case1 limit inComment =>
    cases inComment with
    | true => exact .inr ⟨rfl, hlimit rfl, fun t ht => by cases ht <;> rfl⟩
    | false =>
      refine .inl fun t ht => ?_
      have hblank : Text.isBlank ')' = false := by decide
      obtain ⟨tail, rfl⟩ := ht.eq_cons
      simp [gather, extend, hstop, hblank]
  | case2 limit c rest ih => exact ih fun _ => hlimit rfl
  | case3 c rest => exact .inl fun t ht => rfl
  | case4 limit c rest hopen hblank ih =>
    simp only [List.cons_append, gather, if_neg hopen, if_pos hblank]
    exact ih nofun
  | case5 limit c rest hopen hblank hcomment ih =>
    simp only [List.cons_append, gather, if_neg hopen, if_neg hblank, if_pos hcomment]
    exact ih fun _ => hopen
  | case6 limit c rest hopen hblank hcomment htest taken left heq ih =>
    simp only [List.cons_append, gather, if_neg hopen, if_neg hblank, if_neg hcomment, if_pos htest]
    rw [heq] at ih
    obtain hih | ⟨hleft, htaken, hih⟩ := ih nofun
    · refine .inl fun t ht => ?_
      rw [hih t ht]
      rfl
    · refine .inr ⟨hleft, ?_, fun t ht => ?_⟩
      · rintro rfl
        exact htaken rfl
      · rw [hih t ht]
  | case7 limit c rest hopen hblank hcomment htest =>
    simp only [List.cons_append, gather, if_neg hopen, if_neg hblank, if_neg hcomment, if_neg htest]
    exact .inl fun t ht => rfl

theorem gatherAll_append {test : Char → Bool} {taken : List Char} (ht : Closing t) (hstop : test ')' = false)
    (h : gatherAll flags test cs = (taken, left)) :
    gatherAll flags test (cs ++ t) = (taken, left ++ t) ∨
      left = [] ∧ gatherAll flags test (cs ++ t) = (taken, []) := by
  unfold gatherAll at h ⊢
  obtain hgather | ⟨hleft, -, hgather⟩ := gather_append flags.verbose test hstop none false nofun cs
  · rw [hgather t ht, h]
    exact .inl rfl
  · rw [hgather t ht, h]
    rw [h] at hleft
    exact .inr ⟨hleft, congrArg (taken, ·) hleft⟩

/-! ### Escapes -/

def braced? (flags : Flags) (test : Char → Bool) (cs : List Char) : Option (List Char × List Char) :=
  match gatherAll flags test cs with
  | (taken, '}' :: rest) => some (taken, rest)
  | _ => none

theorem bind_meant?_extend {α β : Type} (meaning : α → Option β) (o : Option (α × List Char)) :
    (o.map (extend t)).bind (meant? meaning) = (o.bind (meant? meaning)).map (extend t) := by
  cases o with
  | none => rfl
  | some read =>
    obtain ⟨taken, rest⟩ := read
    change (meaning taken).map _ = ((meaning taken).map _).map _
    rw [Option.map_map]
    rfl

theorem braced?_append {test : Char → Bool} (ht : Closing t) (hstop : test ')' = false) :
    braced? flags test (cs ++ t) = (braced? flags test cs).map (extend t) := by
  unfold braced?
  cases hread : gatherAll flags test cs with | _ taken left
  obtain hgather | ⟨rfl, hgather⟩ := gatherAll_append ht hstop hread
  · rw [hgather]
    cases left with
    | nil =>
      obtain ⟨tail, rfl⟩ := ht.eq_cons
      rfl
    | cons c left =>
      rw [List.cons_append]
      split
      · next heq =>
        cases heq
        rfl
      · next hbrace =>
        split
        · next heq =>
          cases heq
          exact absurd rfl (hbrace _ _)
        · rfl
  · rw [hgather]
    rfl

theorem match_braced? {β : Type} (test : Char → Bool) (meaning : List Char → Option β) (cs : List Char) :
    (match gatherAll flags test cs with
      | (taken, '}' :: rest) => (meaning taken).map (·, rest)
      | _ => none) = (braced? flags test cs).bind (meant? meaning) := by
  unfold braced?
  split <;> rfl

theorem hexEscape?_brace {width : Nat} (hskip : skip flags cs = '{' :: rest) :
    hexEscape? flags width cs =
      (braced? flags (fun c => (Text.hexValue? c).isSome) rest).bind
        (meant? fun digits => (charOfHex? digits).map flags.char) := by
  unfold hexEscape?
  rw [hskip]
  rw [← match_braced?]
  simp only [Option.map_map]
  rfl

theorem hexEscape?_digits {width : Nat} (hskip : ∀ rest, skip flags cs ≠ '{' :: rest) :
    hexEscape? flags width cs =
      let (digits, rest) := gather flags.verbose (fun c => (Text.hexValue? c).isSome) (some width) false (skip flags cs)
      if digits.length = width then (charOfHex? digits).map fun c => (flags.char c, rest) else none := by
  unfold hexEscape?
  split
  · next h => exact absurd h (hskip _)
  · rfl

theorem edgeEscape?_brace {more : List Char} (hskip : skip flags rest = c :: more) :
    edgeEscape? flags ('{' :: rest) =
      if isEdgeNameChar c then (braced? flags isEdgeNameChar (c :: more)).bind
        (meant? fun name => (namedEdge? (String.ofList name)).map .look)
      else some (.look .wordEdge, '{' :: rest) := by
  unfold edgeEscape?
  rw [← match_braced?]
  simp only [hskip, Option.map_map]
  rfl

theorem Closing.append_ne_cons (ht : Closing t) (hc : c ≠ ')') (h : ∀ rest, cs ≠ c :: rest) (rest : List Char) :
    cs ++ t ≠ c :: rest := by
  cases cs with
  | nil =>
    obtain ⟨tail, rfl⟩ := ht.eq_cons
    exact fun heq => hc (List.cons.inj heq).1.symm
  | cons d cs => exact fun heq => h cs (by rw [(List.cons.inj heq).1])

theorem hexEscape?_append {width : Nat} (hwidth : width ≠ 0) (ht : Closing t) :
    hexEscape? flags width (cs ++ t) = (hexEscape? flags width cs).map (extend t) := by
  obtain hskip | ⟨hleft, hskip⟩ := (skip_append flags cs).eq_or ht
  · by_cases hbrace : ∃ rest, skip flags cs = '{' :: rest
    · obtain ⟨rest, hrest⟩ := hbrace
      rw [hrest] at hskip
      rw [hexEscape?_brace hskip, hexEscape?_brace hrest, ← bind_meant?_extend, ← braced?_append ht rfl]
      rfl
    · rw [not_exists] at hbrace
      have hbrace' : ∀ rest, skip flags (cs ++ t) ≠ '{' :: rest := hskip ▸ ht.append_ne_cons (by decide) hbrace
      rw [hexEscape?_digits hbrace', hexEscape?_digits hbrace, hskip]
      obtain hgather | ⟨-, htaken, hgather⟩ := gather_append flags.verbose (fun c => (Text.hexValue? c).isSome) rfl
        (some width) false nofun (skip flags cs)
      · rw [hgather t ht]
        dsimp only [extend]
        split
        · rw [Option.map_map]
          rfl
        · rfl
      · rw [hgather t ht]
        dsimp only
        rw [if_neg fun h => htaken (congrArg some h.symm)]
        rfl
  · have hnone {cs : List Char} (h : skip flags cs = []) : hexEscape? flags width cs = none := by
      rw [hexEscape?_digits (by rw [h]; nofun), h]
      exact if_neg hwidth.symm
    rw [hnone hleft, hnone hskip]
    rfl

/-- An edge of a word whose name the text breaks off is an edge without a name if something stands behind the text. -/
theorem edgeEscape?_append (ht : Closing t) :
    edgeEscape? flags (cs ++ t) = (edgeEscape? flags cs).map (extend t) ∨
      ∃ rest, cs = '{' :: rest ∧ skip flags rest = [] ∧ edgeEscape? flags cs = none ∧
        ∀ read, edgeEscape? flags (cs ++ t) = some read → read = (.look .wordEdge, cs ++ t) := by
  by_cases hbrace : ∃ rest, cs = '{' :: rest
  · obtain ⟨rest, rfl⟩ := hbrace
    rw [List.cons_append]
    have hnone {cs : List Char} (h : skip flags cs = []) : edgeEscape? flags ('{' :: cs) = none := by
      unfold edgeEscape?
      simp only [h]
    obtain hskip | ⟨hleft, hskip⟩ := (skip_append flags rest).eq_or ht
    · cases hrest : skip flags rest with
      | nil =>
        obtain ⟨tail, rfl⟩ := ht.eq_cons
        rw [hrest] at hskip
        refine .inr ⟨rest, rfl, hrest, hnone hrest, fun read h => ?_⟩
        rw [edgeEscape?_brace hskip] at h
        exact (Option.some.inj h).symm
      | cons c more =>
        rw [hrest] at hskip
        refine .inl ?_
        rw [edgeEscape?_brace hskip, edgeEscape?_brace hrest]
        split
        · rw [← bind_meant?_extend, ← braced?_append ht rfl]
          rfl
        · rfl
    · refine .inr ⟨rest, rfl, hleft, hnone hleft, fun read h => ?_⟩
      rw [hnone hskip] at h
      cases h
  · rw [not_exists] at hbrace
    refine .inl ?_
    have hplain {cs : List Char} (h : ∀ rest, cs ≠ '{' :: rest) :
        edgeEscape? flags cs = some (.look .wordEdge, cs) := by
      unfold edgeEscape?
      split
      · exact absurd rfl (h _)
      · rfl
    rw [hplain hbrace, hplain (ht.append_ne_cons (by decide) hbrace)]
    rfl

theorem escape?_single (flags : Flags) (hx : c ≠ 'x') (hu : c ≠ 'u') (hU : c ≠ 'U') (hb : c ≠ 'b') :
    ∃ item : Option Pattern, ∀ rest, escape? flags (c :: rest) = item.map (·, rest) := by
  refine ⟨if isEscapable c then some (flags.char c) else ((perlSet? c).map .oneOf).or
    (((controlEscape? c).map flags.char).or ((lookEscape? c).map .look)), fun rest => ?_⟩
  rw [escape?.eq_def]
  split
  · next heq => cases heq
  · next heq => exact absurd (List.cons.inj heq).1 hx
  · next heq => exact absurd (List.cons.inj heq).1 hu
  · next heq => exact absurd (List.cons.inj heq).1 hU
  · next heq => exact absurd (List.cons.inj heq).1 hb
  · next heq =>
    cases heq
    split
    · rfl
    · cases perlSet? c <;> cases controlEscape? c <;> cases lookEscape? c <;> rfl

theorem escape?_append (flags : Flags) (c : Char) (cs : List Char) (ht : Closing t) :
    escape? flags (c :: (cs ++ t)) = (escape? flags (c :: cs)).map (extend t) ∨
      ∃ rest, cs = '{' :: rest ∧ skip flags rest = [] ∧ escape? flags (c :: cs) = none ∧
        ∀ read, escape? flags (c :: (cs ++ t)) = some read → read = (.look .wordEdge, cs ++ t) := by
  by_cases hx : c = 'x'
  · subst hx
    exact .inl (hexEscape?_append (by decide) ht)
  by_cases hu : c = 'u'
  · subst hu
    exact .inl (hexEscape?_append (by decide) ht)
  by_cases hU : c = 'U'
  · subst hU
    exact .inl (hexEscape?_append (by decide) ht)
  by_cases hb : c = 'b'
  · subst hb
    exact edgeEscape?_append ht
  · obtain ⟨item, hitem⟩ := escape?_single flags hx hu hU hb
    refine .inl ?_
    rw [hitem, hitem, Option.map_map]
    rfl

end Inventory.Pattern
