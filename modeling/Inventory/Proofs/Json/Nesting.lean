import Inventory.Proofs.Datum.Depth
import Inventory.Proofs.Json.RoundTrip

/-! # Nesting in texts

How deep a text nests can be counted on its brackets alone. However a datum is spelled, the count for the
text that it is read from is the depth of the datum (`nesting_of_read?`), so a limit on one is a limit on the
other.
-/

namespace Inventory.Json

def levelAfter (level : Nat) : Token → Nat
  | .openList | .openMap => level + 1
  | .closeList | .closeMap => level - 1
  | _ => level

def nestingFrom (level : Nat) : List Token → Nat
  | [] => level
  | t :: rest => max level (nestingFrom (levelAfter level t) rest)

/-- The most arrays and objects that are open at once in a text. -/
def nesting (text : String) : Nat :=
  nestingFrom 0 ((tokens? text.toList).getD [])

theorem le_nestingFrom (level : Nat) (ts : List Token) : level ≤ nestingFrom level ts := by
  cases ts with
  | nil => exact Nat.le_refl level
  | cons t rest => exact Nat.le_max_left level _

def Token.IsFlat : Token → Prop
  | .scalar d => d.depth = 0
  | _ => True

namespace LexState

def tokens : LexState → List Token
  | between tokens | text tokens _ | numeral tokens _ | word tokens _ => tokens

theorem depth_of_word? {cs : List Char} {d : Datum} (h : word? cs = some d) : d.depth = 0 := by
  unfold word? at h
  split at h <;> cases h <;> rfl

theorem depth_of_numeral? {cs : List Char} {d : Datum} (h : numeral? cs = some d) : d.depth = 0 := by
  obtain ⟨n, -, rfl⟩ := Option.map_eq_some_iff.1 h
  unfold Datum.ofNumeral
  split <;> rfl

theorem isFlat_of_close? {s : LexState} {ts : List Token} (hflat : ∀ t ∈ s.tokens, t.IsFlat)
    (h : s.close? = some ts) : ∀ t ∈ ts, t.IsFlat := by
  cases s with
  | between tokens => cases h; exact hflat
  | text tokens t => cases h
  | numeral tokens reversed =>
    obtain ⟨d, hd, rfl⟩ := Option.map_eq_some_iff.1 h
    exact List.forall_mem_cons.2 ⟨depth_of_numeral? hd, hflat⟩
  | word tokens reversed =>
    obtain ⟨d, hd, rfl⟩ := Option.map_eq_some_iff.1 h
    exact List.forall_mem_cons.2 ⟨depth_of_word? hd, hflat⟩

theorem isFlat_of_punctuation? {c : Char} {t : Token} (h : punctuation? c = some t) : t.IsFlat := by
  unfold punctuation? at h
  split at h <;> cases h <;> trivial

theorem isFlat_of_begin? {tokens : List Token} {c : Char} {s : LexState} (hflat : ∀ t ∈ tokens, t.IsFlat)
    (h : begin? tokens c = some s) : ∀ t ∈ s.tokens, t.IsFlat := by
  unfold begin? at h
  split at h
  · cases h; exact hflat
  split at h
  · cases h; exact hflat
  split at h
  · cases h; exact hflat
  split at h
  · cases h; exact hflat
  · obtain ⟨t, ht, rfl⟩ := Option.map_eq_some_iff.1 h
    exact List.forall_mem_cons.2 ⟨isFlat_of_punctuation? ht, hflat⟩

theorem isFlat_of_stepText? {tokens : List Token} {t : OpenText} {c : Char} {s : LexState}
    (hflat : ∀ t ∈ tokens, t.IsFlat) (h : stepText? tokens t c = some s) : ∀ t ∈ s.tokens, t.IsFlat := by
  unfold stepText? at h
  split at h
  · split at h
    · cases h; exact List.forall_mem_cons.2 ⟨trivial, hflat⟩
    split at h
    · cases h; exact hflat
    split at h
    · cases h
    · cases h; exact hflat
  · split at h
    · cases h; exact hflat
    · obtain ⟨d, -, rfl⟩ := Option.map_eq_some_iff.1 h
      exact hflat
  · obtain ⟨d, -, rfl⟩ := Option.map_eq_some_iff.1 h
    dsimp only
    split <;> exact hflat

theorem isFlat_of_step? {s s' : LexState} {c : Char} (hflat : ∀ t ∈ s.tokens, t.IsFlat)
    (h : s.step? c = some s') : ∀ t ∈ s'.tokens, t.IsFlat := by
  have hclosed : ∀ {s : LexState}, (∀ t ∈ s.tokens, t.IsFlat) → s.close?.bind (begin? · c) = some s' →
      ∀ t ∈ s'.tokens, t.IsFlat := by
    intro s hflat h
    obtain ⟨tokens, hclose, hbegin⟩ := Option.bind_eq_some_iff.1 h
    exact isFlat_of_begin? (isFlat_of_close? hflat hclose) hbegin
  cases s with
  | between tokens => exact isFlat_of_begin? hflat h
  | text tokens t => exact isFlat_of_stepText? hflat h
  | numeral tokens reversed =>
    rw [step?] at h
    split at h
    · cases h; exact hflat
    · exact hclosed hflat h
  | word tokens reversed =>
    rw [step?] at h
    split at h
    · cases h; exact hflat
    · exact hclosed hflat h

theorem isFlat_of_foldlM {cs : List Char} {s s' : LexState} (hflat : ∀ t ∈ s.tokens, t.IsFlat)
    (h : cs.foldlM step? s = some s') : ∀ t ∈ s'.tokens, t.IsFlat := by
  induction cs generalizing s with
  | nil => cases h; exact hflat
  | cons c rest ih =>
    rw [List.foldlM_cons] at h
    obtain ⟨next, hnext, hrest⟩ := Option.bind_eq_some_iff.1 h
    exact ih (isFlat_of_step? hflat hnext) hrest

end LexState

theorem isFlat_of_tokens? {cs : List Char} {ts : List Token} (h : tokens? cs = some ts) :
    ∀ t ∈ ts, t.IsFlat := by
  obtain ⟨s, hs, h⟩ := Option.bind_eq_some_iff.1 h
  obtain ⟨reversed, hclose, h⟩ := Option.bind_eq_some_iff.1 h
  cases h
  have hflat := LexState.isFlat_of_foldlM (s := .between []) (List.forall_mem_nil _) hs
  exact fun t ht => LexState.isFlat_of_close? hflat hclose t (List.mem_reverse.1 ht)

def Frame.depth : Frame → Nat
  | .items reversed => Datum.depthItems reversed
  | .entries reversed | .entry reversed _ => Datum.depthEntries reversed

/-- The most containers one inside the other on a stack and in the parts that stand on it. -/
def reachOf : List Frame → Nat
  | [] => 0
  | frame :: below => max (below.length + 1 + frame.depth) (reachOf below)

theorem length_le_reachOf (stack : List Frame) : stack.length ≤ reachOf stack := by
  cases stack with
  | nil => exact Nat.le_refl 0
  | cons frame below =>
    rw [reachOf, List.length_cons]
    omega

def Expectation.depth : Expectation → Nat
  | .more d => d.depth
  | _ => 0

namespace Reader

def reach (r : Reader) : Nat :=
  max (r.stack.length + r.expectation.depth) (reachOf r.stack)

theorem reach_of_depth_eq_zero {expectation : Expectation} (h : expectation.depth = 0) (stack : List Frame) :
    reach ⟨stack, expectation⟩ = reachOf stack := by
  rw [reach, h]
  exact Nat.max_eq_right (length_le_reachOf stack)

/-- A token opens or closes what its bracket says, and what has been met changes by no more than that. -/
structure Counts (r : Reader) (t : Token) (r' : Reader) : Prop where
  level : r'.stack.length = levelAfter r.stack.length t
  reach : r'.reach = max r.reach r'.stack.length

theorem counts_stepValue? {stack : List Frame} {expectation : Expectation} {t : Token} {r : Reader}
    (hexpectation : expectation.depth = 0) (hflat : t.IsFlat) (h : stepValue? stack t = some r) :
    Counts ⟨stack, expectation⟩ t r := by
  have hlength := length_le_reachOf stack
  unfold stepValue? at h
  split at h <;> cases h <;> refine ⟨rfl, ?_⟩ <;> rw [reach_of_depth_eq_zero hexpectation]
  case h_1 | h_2 =>
    rw [reach_of_depth_eq_zero rfl, reachOf, List.length_cons, Frame.depth]
    exact Nat.max_comm _ _
  case h_3 s =>
    have hdepth : (Expectation.more ((s.map Datum.text).getD .undefined)).depth = 0 := by cases s <;> rfl
    rw [reach_of_depth_eq_zero hdepth, Nat.max_eq_left hlength]
  case h_4 d =>
    have hdepth : (Expectation.more d).depth = 0 := hflat
    rw [reach_of_depth_eq_zero hdepth, Nat.max_eq_left hlength]

theorem counts_stepKey? {stack : List Frame} {expectation : Expectation} {t : Token} {r : Reader}
    (hexpectation : expectation.depth = 0) (h : stepKey? stack t = some r) :
    Counts ⟨stack, expectation⟩ t r := by
  unfold stepKey? at h
  split at h <;> cases h
  refine ⟨rfl, ?_⟩
  rw [reach_of_depth_eq_zero hexpectation, reach_of_depth_eq_zero rfl]
  exact (Nat.max_eq_left (length_le_reachOf (.entries _ :: _))).symm

theorem counts_stepMore? {stack : List Frame} {d : Datum} {t : Token} {r : Reader}
    (h : stepMore? stack d t = some r) : Counts ⟨stack, .more d⟩ t r := by
  unfold stepMore? at h
  -- A container that is closed goes one level deeper than its frame, which stood one level further in.
  split at h <;> cases h <;> refine ⟨rfl, ?_⟩ <;>
  · simp only [reach, Expectation.depth, reachOf, Frame.depth, List.length_cons, Datum.depth,
      Datum.depthItems_reverse, Datum.depthEntries_reverse, Datum.depthItems, Datum.depthEntries]
    omega

theorem counts_step? {r r' : Reader} {t : Token} (hflat : t.IsFlat) (h : r.step? t = some r') :
    r.Counts t r' := by
  obtain ⟨stack, expectation⟩ := r
  cases expectation with
  | value => exact counts_stepValue? rfl hflat h
  | itemOrEnd =>
    unfold step? at h
    dsimp only at h
    split at h
    · cases h
      refine ⟨rfl, ?_⟩
      simp only [reach, Expectation.depth, reachOf, Frame.depth, List.length_cons, Datum.depth,
        Datum.depthItems]
      omega
    · exact counts_stepValue? rfl hflat h
  | keyOrEnd =>
    unfold step? at h
    dsimp only at h
    split at h
    · cases h
      refine ⟨rfl, ?_⟩
      simp only [reach, Expectation.depth, reachOf, Frame.depth, List.length_cons, Datum.depth,
        Datum.depthEntries]
      omega
    · exact counts_stepKey? rfl h
  | key => exact counts_stepKey? rfl h
  | colon =>
    unfold step? at h
    dsimp only at h
    split at h <;> cases h
    exact ⟨rfl, (Nat.max_eq_left (Nat.le_max_left _ _)).symm⟩
  | more d => exact counts_stepMore? h

/-- Over a row of tokens the reader meets what is counted on the tokens. -/
theorem reach_of_foldlM {ts : List Token} {r r' : Reader} (hflat : ∀ t ∈ ts, t.IsFlat)
    (h : ts.foldlM step? r = some r') : r'.reach = max r.reach (nestingFrom r.stack.length ts) := by
  induction ts generalizing r with
  | nil =>
    cases h
    rw [nestingFrom, reach]
    omega
  | cons t rest ih =>
    rw [List.foldlM_cons] at h
    obtain ⟨next, hnext, hrest⟩ := Option.bind_eq_some_iff.1 h
    rw [List.forall_mem_cons] at hflat
    have hcounts := counts_step? hflat.1 hnext
    have hlevel := le_nestingFrom next.stack.length rest
    have hlength : r.stack.length ≤ r.reach := by
      rw [reach]
      omega
    rw [ih hflat.2 hrest, hcounts.reach, nestingFrom, ← hcounts.level]
    omega

theorem eq_of_result? {r : Reader} {d : Datum} (h : r.result? = some d) : r = ⟨[], .more d⟩ := by
  obtain ⟨stack, expectation⟩ := r
  cases stack <;> cases expectation <;> cases h
  rfl

end Reader

/-- A text nests as deeply as the datum that it is read as, however that is spelled. -/
theorem nesting_of_read? {text : String} {d : Datum} (h : read? text = some d) :
    nesting text = d.depth := by
  obtain ⟨ts, hts, h⟩ := Option.bind_eq_some_iff.1 h
  obtain ⟨r, hr, hresult⟩ := Option.bind_eq_some_iff.1 h
  have hreach := Reader.reach_of_foldlM (isFlat_of_tokens? hts) hr
  rw [Reader.eq_of_result? hresult, Reader.reach, reachOf, Nat.max_zero] at hreach
  rw [nesting, hts, Option.getD_some]
  simpa [Expectation.depth, Reader.reach, reachOf, Reader.start] using hreach.symm

theorem nesting_print {d : Datum} (h : d.isPlain = true) : nesting (print d) = d.depth :=
  nesting_of_read? (read?_print h)

end Inventory.Json
