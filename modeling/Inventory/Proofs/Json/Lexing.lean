import Inventory.Json.Printer
import Inventory.Json.Reader
import Inventory.Proofs.Decimal.Integer

/-! # Tokens of printed text

`tokensOf` are the tokens that the text of a datum ought to be made of. `Lexes` says that a text is read
as some tokens wherever it stands between others; printed strings, numerals and words do so, and marks
put texts together (`Lexes.mark`), so printed data do (`lexes_printChars`).
-/

namespace Inventory

def Key.isText : Key → Bool
  | .text _ => true
  | _ => false

namespace Datum

mutual

/-- Whether the datum has a written form that is its own: no floating point, bytes or undefined parts,
numbers that 64 bits hold, and texts as keys. -/
def isPlain : Datum → Bool
  | .null => true
  | .bool _ => true
  | .unsigned n => n < UInt64.size
  | .signed i => -0x8000000000000000 ≤ i && i < 0
  | .text _ => true
  | .list items => arePlain items
  | .map entries => entriesPlain entries
  | _ => false

def arePlain : List Datum → Bool
  | [] => true
  | d :: rest => isPlain d && arePlain rest

def entriesPlain : List (Key × Datum) → Bool
  | [] => true
  | (key, d) :: rest => key.isText && isPlain d && entriesPlain rest

end

end Datum

namespace Json

mutual

def tokensOf : Datum → List Token
  | .text s => [.text (some s)]
  | .list items => .openList :: (itemTokens items ++ [.closeList])
  | .map entries => .openMap :: (entryTokens entries ++ [.closeMap])
  | d => [.scalar d]

def itemTokens : List Datum → List Token
  | [] => []
  | [d] => tokensOf d
  | d :: next :: rest => tokensOf d ++ .comma :: itemTokens (next :: rest)

def entryTokens : List (Key × Datum) → List Token
  | [] => []
  | [(key, d)] => keyToken key :: .colon :: tokensOf d
  | (key, d) :: next :: rest =>
    keyToken key :: .colon :: (tokensOf d ++ .comma :: entryTokens (next :: rest))

def keyToken : Key → Token
  | .text s => .text (some s)
  | _ => .text none

end

def marks : List Char := [',', ':', ']', '}']

/-- Where some tokens have ended: nothing more has to come, and a mark is read by itself. -/
structure Settled (state : LexState) (tokens : List Token) : Prop where
  close : state.close? = some tokens
  mark : ∀ c ∈ marks, state.step? c = LexState.begin? tokens c

theorem settled_between (tokens : List Token) : Settled (.between tokens) tokens :=
  ⟨rfl, fun _ _ => rfl⟩

/-- The text is read as the tokens, whatever was read before. -/
def Lexes (cs : List Char) (ts : List Token) : Prop :=
  ∀ tokens, ∃ state, cs.foldlM LexState.step? (.between tokens) = some state ∧
    Settled state (ts.reverse ++ tokens)

theorem lexes_nil : Lexes [] [] :=
  fun tokens => ⟨.between tokens, rfl, settled_between tokens⟩

/-- A mark ends one text and begins another. -/
theorem Lexes.mark {xs ys : List Char} {ts us : List Token} {c : Char} {token : Token}
    (hc : c ∈ marks) (htoken : ∀ tokens, LexState.begin? tokens c = some (.between (token :: tokens)))
    (hxs : Lexes xs ts) (hys : Lexes ys us) : Lexes (xs ++ c :: ys) (ts ++ token :: us) := by
  intro tokens
  obtain ⟨before, hbefore, hsettled⟩ := hxs tokens
  obtain ⟨after, hafter, hsettled'⟩ := hys (token :: (ts.reverse ++ tokens))
  refine ⟨after, ?_, by simpa using hsettled'⟩
  rw [List.foldlM_append, hbefore, Option.bind_eq_bind, Option.bind_some, List.foldlM_cons,
    hsettled.mark c hc, htoken, Option.bind_eq_bind, Option.bind_some]
  exact hafter

/-- The character that opens a container stands by itself. -/
theorem Lexes.opened {ys : List Char} {us : List Token} {c : Char} {token : Token}
    (htoken : ∀ tokens, LexState.begin? tokens c = some (.between (token :: tokens)))
    (hys : Lexes ys us) : Lexes (c :: ys) (token :: us) := by
  intro tokens
  obtain ⟨after, hafter, hsettled⟩ := hys (token :: tokens)
  refine ⟨after, ?_, by simpa using hsettled⟩
  rw [List.foldlM_cons, LexState.step?, htoken, Option.bind_eq_bind, Option.bind_some]
  exact hafter

theorem lexes_null : Lexes ['n', 'u', 'l', 'l'] [.scalar .null] := by
  intro tokens
  refine ⟨.word tokens ['l', 'l', 'u', 'n'], rfl, rfl, ?_⟩
  simp only [marks, List.forall_mem_cons]
  exact ⟨rfl, rfl, rfl, rfl, by simp⟩

theorem lexes_bool (b : Bool) : Lexes (printChars (.bool b)) [.scalar (.bool b)] := by
  intro tokens
  cases b with
  | true =>
    refine ⟨.word tokens ['e', 'u', 'r', 't'], rfl, rfl, ?_⟩
    simp only [marks, List.forall_mem_cons]
    exact ⟨rfl, rfl, rfl, rfl, by simp⟩
  | false =>
    refine ⟨.word tokens ['e', 's', 'l', 'a', 'f'], rfl, rfl, ?_⟩
    simp only [marks, List.forall_mem_cons]
    exact ⟨rfl, rfl, rfl, rfl, by simp⟩

section Numerals

theorem begin?_of_isDigit (tokens : List Token) {c : Char} (h : c.isDigit = true) :
    LexState.begin? tokens c = some (.numeral tokens [c]) := by
  have hne : ∀ d, d.isDigit = false → (c == d) = false := by
    intro d hd
    refine beq_eq_false_iff_ne.2 fun heq => ?_
    rw [heq, hd] at h
    cases h
  have hspace : LexState.isSpace c = false := by
    simp only [LexState.isSpace, hne ' ' rfl, hne '\t' rfl, hne '\n' rfl, hne '\r' rfl, Bool.or_self]
  rw [LexState.begin?, hspace, hne '"' rfl, h]
  rfl

theorem foldlM_numeral (tokens : List Token) (reversed : List Char) {digits : List Char}
    (h : ∀ c ∈ digits, c.isDigit = true) :
    digits.foldlM LexState.step? (.numeral tokens reversed) =
      some (.numeral tokens (digits.reverse ++ reversed)) := by
  induction digits generalizing reversed with
  | nil => rfl
  | cons c rest ih =>
    have hc : LexState.isNumeralChar c = true := by
      simp [LexState.isNumeralChar, h c List.mem_cons_self]
    rw [List.foldlM_cons, LexState.step?, if_pos hc, Option.bind_eq_bind, Option.bind_some,
      ih _ fun d hd => h d (List.mem_cons_of_mem _ hd)]
    simp

theorem settled_numeral {tokens : List Token} {cs : List Char} {d : Datum}
    (h : LexState.numeral? cs = some d) : Settled (.numeral tokens cs.reverse) (.scalar d :: tokens) := by
  have hclose : LexState.close? (.numeral tokens cs.reverse) = some (.scalar d :: tokens) := by
    rw [LexState.close?, List.reverse_reverse, h]
    rfl
  refine ⟨hclose, fun c hc => ?_⟩
  have hmark : LexState.isNumeralChar c = false := by
    simp only [marks, List.mem_cons, List.not_mem_nil, or_false] at hc
    rcases hc with rfl | rfl | rfl | rfl <;> rfl
  rw [LexState.step?, hmark, hclose]
  rfl

theorem lexes_unsigned {n : Nat} (h : n < UInt64.size) :
    Lexes (Text.decimal n) [.scalar (.unsigned n)] := by
  intro tokens
  have hread : LexState.numeral? (Text.decimal n) = some (.unsigned n) := by
    rw [LexState.numeral?, Numeral.read?_decimal, Option.map_some, Numeral.value_whole h]
    rfl
  refine ⟨_, ?_, settled_numeral hread⟩
  cases hdigits : Text.decimal n with
  | nil => exact absurd hdigits (Text.decimal_ne_nil n)
  | cons c rest =>
    have hall : ∀ d ∈ c :: rest, d.isDigit = true := fun d hd => Text.isDigit_of_mem_decimal (hdigits ▸ hd)
    rw [List.foldlM_cons, LexState.step?, begin?_of_isDigit tokens (hall c List.mem_cons_self),
      Option.bind_eq_bind, Option.bind_some,
      foldlM_numeral tokens [c] fun d hd => hall d (List.mem_cons_of_mem _ hd), List.reverse_cons]
    rfl

theorem lexes_signed {i : Int} (hlow : -0x8000000000000000 ≤ i) (hneg : i < 0) :
    Lexes (integerChars i) [.scalar (.signed i)] := by
  intro tokens
  have hsize : i.natAbs < UInt64.size := by
    rw [show UInt64.size = 0x10000000000000000 from rfl]
    omega
  have hread : LexState.numeral? ('-' :: Text.decimal i.natAbs) = some (.signed i) := by
    have hfits : 0 < i.natAbs ∧ i.natAbs ≤ 0x8000000000000000 := by omega
    have hback : -(i.natAbs : Int) = i := by omega
    rw [LexState.numeral?, Numeral.read?_minus_decimal, Option.map_some, Numeral.value_whole hsize,
      Numeral.integer, if_neg (by simp), if_pos hfits, hback]
    rfl
  refine ⟨_, ?_, settled_numeral hread⟩
  rw [integerChars, if_pos hneg, List.foldlM_cons, LexState.step?, List.reverse_cons]
  exact foldlM_numeral tokens ['-'] fun d hd => Text.isDigit_of_mem_decimal hd

end Numerals

section Strings

def OpenText.settled (reversed : List Char) : OpenText := ⟨reversed, true, none, .plain⟩

/-- A digit of an escape by number, and what the last one of them completes. -/
theorem step?_hexDigit (tokens : List Token) (reversed : List Char) (left value n : Nat) :
    LexState.step? (.text tokens ⟨reversed, true, none, .hex left value⟩) (Text.hexDigit n) =
      some (if left ≤ 1 then
        .text tokens (OpenText.pushUnit ⟨reversed, true, none, .hex left value⟩ (value * 16 + n % 16))
      else .text tokens ⟨reversed, true, none, .hex (left - 1) (value * 16 + n % 16)⟩) := by
  rw [LexState.step?, LexState.stepText?, Text.hexValue?_hexDigit]
  rfl

theorem pushUnit_of_lt (reversed : List Char) {n : Nat} (h : n < 0xD800) (e : Escape) :
    OpenText.pushUnit ⟨reversed, true, none, e⟩ n = .settled (Char.ofNat n :: reversed) := by
  have hlead : OpenText.isLeadSurrogate n = false := by
    rw [OpenText.isLeadSurrogate, decide_eq_false (by omega), Bool.false_and]
  have htrail : OpenText.isTrailSurrogate n = false := by
    rw [OpenText.isTrailSurrogate, decide_eq_false (by omega), Bool.false_and]
  rw [OpenText.pushUnit, hlead, htrail]
  rfl

theorem foldlM_hexFixed (tokens : List Token) (reversed : List Char) {n : Nat} (h : n < 0x20) :
    ('\\' :: 'u' :: Text.hexFixed 4 n).foldlM LexState.step? (.text tokens (.settled reversed)) =
      some (.text tokens (.settled (Char.ofNat n :: reversed))) := by
  have hdigits : Text.hexFixed 4 n = [Text.hexDigit (n / 16 / 16 / 16), Text.hexDigit (n / 16 / 16),
      Text.hexDigit (n / 16), Text.hexDigit n] := rfl
  have hslash : LexState.step? (.text tokens (.settled reversed)) '\\' =
      some (.text tokens ⟨reversed, true, none, .letter⟩) := rfl
  have hletter : LexState.step? (.text tokens ⟨reversed, true, none, .letter⟩) 'u' =
      some (.text tokens ⟨reversed, true, none, .hex 4 0⟩) := rfl
  have hvalue : (((0 * 16 + n / 16 / 16 / 16 % 16) * 16 + n / 16 / 16 % 16) * 16 + n / 16 % 16) * 16 +
      n % 16 = n := by omega
  rw [hdigits]
  simp only [List.foldlM_cons, List.foldlM_nil, Option.bind_eq_bind, Option.bind_some, hslash, hletter,
    step?_hexDigit, Nat.reduceLeDiff, Nat.reduceSub, if_false, if_true, hvalue, Option.pure_def,
    pushUnit_of_lt reversed (show n < 0xD800 by omega)]

theorem foldlM_escapeChar (tokens : List Token) (reversed : List Char) (c : Char) :
    (escapeChar c).foldlM LexState.step? (.text tokens (.settled reversed)) =
      some (.text tokens (.settled (c :: reversed))) := by
  unfold escapeChar
  split
  case h_8 hquote hslash _ _ _ _ _ =>
    split
    · next hcontrol =>
      rw [foldlM_hexFixed tokens reversed hcontrol, Char.ofNat_toNat]
    · next hcontrol =>
      have hne : (c == '"') = false := beq_eq_false_iff_ne.2 hquote
      have hne' : (c == '\\') = false := beq_eq_false_iff_ne.2 hslash
      rw [List.foldlM_cons, LexState.step?, LexState.stepText?]
      simp only [OpenText.settled, hne, hne', hcontrol, Bool.false_eq_true, if_false]
      rfl
  all_goals rfl

theorem foldlM_escapeChars (tokens : List Token) (reversed cs : List Char) :
    (cs.flatMap escapeChar).foldlM LexState.step? (.text tokens (.settled reversed)) =
      some (.text tokens (.settled (cs.reverse ++ reversed))) := by
  induction cs generalizing reversed with
  | nil => rfl
  | cons c rest ih =>
    rw [List.flatMap_cons, List.foldlM_append, foldlM_escapeChar, Option.bind_eq_bind, Option.bind_some, ih]
    simp

theorem lexes_stringChars (s : String) : Lexes (stringChars s) [.text (some s)] := by
  intro tokens
  have hopen : LexState.step? (.between tokens) '"' = some (.text tokens (.settled [])) := rfl
  have hclose : LexState.step? (.text tokens (.settled s.toList.reverse)) '"' =
      some (.between (.text (some s) :: tokens)) := by
    have hfinish : OpenText.finish (.settled s.toList.reverse) = some s := by
      have hback : some (String.ofList s.toList.reverse.reverse) = some s := by
        rw [List.reverse_reverse, String.ofList_toList]
      exact hback
    rw [← hfinish]
    rfl
  refine ⟨_, ?_, settled_between _⟩
  rw [stringChars, List.foldlM_cons, hopen, Option.bind_eq_bind, Option.bind_some, List.foldlM_append,
    foldlM_escapeChars, List.append_nil, Option.bind_eq_bind, Option.bind_some, List.foldlM_cons, hclose]
  rfl

end Strings

theorem begin?_comma (tokens : List Token) :
    LexState.begin? tokens ',' = some (.between (.comma :: tokens)) :=
  rfl

theorem begin?_colon (tokens : List Token) :
    LexState.begin? tokens ':' = some (.between (.colon :: tokens)) :=
  rfl

theorem begin?_openList (tokens : List Token) :
    LexState.begin? tokens '[' = some (.between (.openList :: tokens)) :=
  rfl

theorem begin?_closeList (tokens : List Token) :
    LexState.begin? tokens ']' = some (.between (.closeList :: tokens)) :=
  rfl

theorem begin?_openMap (tokens : List Token) :
    LexState.begin? tokens '\x7b' = some (.between (.openMap :: tokens)) :=
  rfl

theorem begin?_closeMap (tokens : List Token) :
    LexState.begin? tokens '\x7d' = some (.between (.closeMap :: tokens)) :=
  rfl

theorem lexes_keyChars {key : Key} (h : key.isText = true) : Lexes (keyChars key) [keyToken key] := by
  cases key with
  | text s => exact lexes_stringChars s
  | _ => cases h

mutual

theorem lexes_printChars : ∀ d : Datum, d.isPlain = true → Lexes (printChars d) (tokensOf d)
  | .null, _ => lexes_null
  | .bool b, _ => lexes_bool b
  | .unsigned _, h => lexes_unsigned (of_decide_eq_true h)
  | .signed _, h => by
    simp only [Datum.isPlain, Bool.and_eq_true, decide_eq_true_eq] at h
    exact lexes_signed h.1 h.2
  | .text s, _ => lexes_stringChars s
  | .list items, h => .opened begin?_openList
    (.mark (by decide) begin?_closeList (lexes_printItems items h) lexes_nil)
  | .map entries, h => .opened begin?_openMap
    (.mark (by decide) begin?_closeMap (lexes_printEntries entries h) lexes_nil)

theorem lexes_printItems : ∀ items : List Datum, Datum.arePlain items = true →
    Lexes (printItems items) (itemTokens items)
  | [], _ => lexes_nil
  | [d], h => by
    simp only [Datum.arePlain, Bool.and_true] at h
    exact lexes_printChars d h
  | d :: next :: rest, h => by
    rw [Datum.arePlain, Bool.and_eq_true] at h
    exact .mark (by decide) begin?_comma (lexes_printChars d h.1) (lexes_printItems (next :: rest) h.2)

theorem lexes_printEntries : ∀ entries : List (Key × Datum), Datum.entriesPlain entries = true →
    Lexes (printEntries entries) (entryTokens entries)
  | [], _ => lexes_nil
  | [(key, d)], h => by
    rw [Datum.entriesPlain, Datum.entriesPlain, Bool.and_true, Bool.and_eq_true] at h
    exact .mark (by decide) begin?_colon (lexes_keyChars h.1) (lexes_printChars d h.2)
  | (key, d) :: next :: rest, h => by
    rw [Datum.entriesPlain, Bool.and_eq_true, Bool.and_eq_true] at h
    exact .mark (by decide) begin?_colon (lexes_keyChars h.1.1)
      (.mark (by decide) begin?_comma (lexes_printChars d h.1.2) (lexes_printEntries (next :: rest) h.2))

end

theorem tokens?_printChars {d : Datum} (h : d.isPlain = true) :
    tokens? (printChars d) = some (tokensOf d) := by
  obtain ⟨state, hstate, hsettled⟩ := lexes_printChars d h []
  rw [tokens?, hstate, Option.bind_eq_bind, Option.bind_some, hsettled.close]
  simp

end Json

end Inventory
