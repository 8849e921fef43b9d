import Inventory.Text.Cut

/-! # Segments of a path

A path is a list of segments `code;id` with `/` between them. A backslash in a path stands before a
character that is meant as it is, so an id may hold `/` and `\`. Writing an id and reading it again gives
the id (`unescapeChars_escapeChars`), and a written id is never split (`splitPath_escapeChars`).
-/

namespace Inventory.Path

structure Segment where
  code : String
  id : String
deriving DecidableEq, Repr

def escapeChars (cs : List Char) : List Char :=
  cs.flatMap fun c => if c = '/' ∨ c = '\\' then ['\\', c] else [c]

def escape (id : String) : String :=
  String.ofList (escapeChars id.toList)

/-- Every escaped character as itself; a backslash at the very end stands for itself. -/
def unescapeChars : List Char → List Char
  | '\\' :: c :: rest => c :: unescapeChars rest
  | c :: rest => c :: unescapeChars rest
  | [] => []

def startWith (cs : List Char) : List (List Char) → List (List Char)
  | [] => []
  | part :: more => (cs ++ part) :: more

/-- The parts of a path, still escaped; there is always at least one. -/
def splitPath : List Char → List (List Char)
  | '\\' :: c :: rest => startWith ['\\', c] (splitPath rest)
  | '/' :: rest => [] :: splitPath rest
  | c :: rest => startWith [c] (splitPath rest)
  | [] => [[]]

/-- Code and id of a part, neither of them empty; the code ends at the first semicolon. -/
def Segment.ofPart? (part : List Char) : Option Segment :=
  match Text.cut? ';' part with
  | some (c :: code, d :: id) =>
    some ⟨String.ofList (c :: code), String.ofList (unescapeChars (d :: id))⟩
  | _ => none

def Segment.render (segment : Segment) : String :=
  segment.code ++ ";" ++ escape segment.id

/-- The id of the last part that is not empty; a part without semicolon is all id. -/
def lastId? (path : String) : Option String := do
  let last ← (splitPath path.toList).reverse.find? (!·.isEmpty)
  let id := match Text.cut? ';' last with
    | some (_, id) => id
    | none => last
  if id.isEmpty then none else some (String.ofList (unescapeChars id))

theorem unescapeChars_escapeChars (cs : List Char) : unescapeChars (escapeChars cs) = cs := by
  induction cs with
  | nil => rfl
  | cons c rest ih =>
    have step : escapeChars (c :: rest) =
        (if c = '/' ∨ c = '\\' then ['\\', c] else [c]) ++ escapeChars rest := rfl
    rw [step]
    by_cases h : c = '/' ∨ c = '\\'
    · simp [h, unescapeChars, ih]
    · have hc : c ≠ '\\' := fun e => h (.inr e)
      rw [if_neg h]
      simp only [List.cons_append, List.nil_append]
      rw [unescapeChars.eq_def]
      split
      · next heq => simp only [List.cons.injEq] at heq; exact absurd heq.1 hc
      · next heq => simp only [List.cons.injEq] at heq; rw [← heq.1, ← heq.2, ih]
      · next heq => simp at heq

theorem splitPath_escapeChars (cs : List Char) : splitPath (escapeChars cs) = [escapeChars cs] := by
  induction cs with
  | nil => rfl
  | cons c rest ih =>
    have step : escapeChars (c :: rest) =
        (if c = '/' ∨ c = '\\' then ['\\', c] else [c]) ++ escapeChars rest := rfl
    rw [step]
    by_cases h : c = '/' ∨ c = '\\'
    · simp [h, splitPath, ih, startWith]
    · have hc : c ≠ '\\' := fun e => h (.inr e)
      have hs : c ≠ '/' := fun e => h (.inl e)
      rw [if_neg h]
      simp only [List.cons_append, List.nil_append]
      rw [splitPath.eq_def]
      split
      · next heq => simp only [List.cons.injEq] at heq; exact absurd heq.1 hc
      · next heq => simp only [List.cons.injEq] at heq; exact absurd heq.1 hs
      · next heq =>
        simp only [List.cons.injEq] at heq
        rw [← heq.1, ← heq.2, ih]
        rfl
      · next heq => simp at heq

end Inventory.Path
