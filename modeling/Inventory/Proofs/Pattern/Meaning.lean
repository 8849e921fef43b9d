import Inventory.Pattern.Basic
import Mathlib.Logic.Relation

/-! # What a pattern describes

A pattern describes pieces of text with regard to what stands before and behind them. `Pattern.Describes` says which,
construct by construct. Pieces that follow one another make a way between two places of a text (`Meaning.Spans`).
-/

namespace Inventory

open Relation

/-- Which pieces are meant: what stands before the piece, the piece, and what stands behind it. -/
abbrev Meaning := List Char → List Char → List Char → Prop

namespace Meaning

def nothing : Meaning :=
  fun _ piece _ => piece = []

def followedBy (m n : Meaning) : Meaning :=
  fun before piece after => ∃ front back, piece = front ++ back ∧
    m before front (back ++ after) ∧ n (before ++ front) back after

def times (m : Meaning) : Nat → Meaning
  | 0 => nothing
  | k + 1 => m.followedBy (m.times k)

/-- Pieces in any number of parts between two bounds, the second of which counts if it is not below the first. -/
def repeatedly (m : Meaning) (least : Nat) (most : Option Nat) : Meaning :=
  fun before piece after => ∃ k, least ≤ k ∧ (∀ bound, most = some bound → k ≤ max least bound) ∧
    m.times k before piece after

/-- Between two places of a text, counted from its end, there is a piece that is meant. -/
def Spans (m : Meaning) (text : List Char) (s e : Nat) : Prop :=
  ∃ before piece after, text = before ++ (piece ++ after) ∧ piece.length + after.length = s ∧
    after.length = e ∧ m before piece after

variable {m n : Meaning} {text : List Char} {s e k : Nat}

theorem Spans.le (h : m.Spans text s e) : e ≤ s := by
  obtain ⟨before, piece, after, -, rfl, rfl, -⟩ := h
  exact Nat.le_add_left _ _

theorem Spans.le_length (h : m.Spans text s e) : s ≤ text.length := by
  obtain ⟨before, piece, after, rfl, rfl, rfl, -⟩ := h
  rw [List.length_append, List.length_append]
  exact Nat.le_add_left _ _

theorem spans_nothing : nothing.Spans text s e ↔ s = e ∧ s ≤ text.length := by
  constructor
  · intro h
    refine ⟨?_, h.le_length⟩
    obtain ⟨before, piece, after, -, rfl, rfl, rfl⟩ := h
    exact Nat.zero_add _
  · rintro ⟨rfl, hs⟩
    have hlength : (text.drop (text.length - s)).length = s := by
      rw [List.length_drop]
      omega
    refine ⟨text.take (text.length - s), [], text.drop (text.length - s), ?_, ?_, hlength, rfl⟩
    · rw [List.nil_append, List.take_append_drop]
    · rw [List.length_nil, Nat.zero_add, hlength]

theorem spans_followedBy :
    (m.followedBy n).Spans text s e ↔ ∃ q, m.Spans text s q ∧ n.Spans text q e := by
  constructor
  · rintro ⟨before, _, after, rfl, rfl, rfl, front, back, rfl, hm, hn⟩
    refine ⟨(back ++ after).length, ⟨before, front, back ++ after, ?_, ?_, rfl, hm⟩,
      before ++ front, back, after, ?_, List.length_append.symm, rfl, hn⟩
    · rw [List.append_assoc]
    · rw [List.length_append, List.length_append, Nat.add_assoc]
    · simp only [List.append_assoc]
  · rintro ⟨q, ⟨before, front, behind, rfl, rfl, rfl, hm⟩, before', back, after, htext, hq, rfl, hn⟩
    rw [← List.append_assoc, ← List.length_append] at *
    obtain ⟨rfl, rfl⟩ := List.append_inj' htext hq.symm
    refine ⟨before, front ++ back, after, ?_, ?_, rfl, front, back, rfl, hm, hn⟩
    · simp only [List.append_assoc]
    · simp only [List.length_append, Nat.add_assoc]

theorem spans_times_add {j : Nat} :
    (m.times (j + k)).Spans text s e ↔ ∃ q, (m.times j).Spans text s q ∧ (m.times k).Spans text q e := by
  induction j generalizing s with
  | zero =>
    rw [Nat.zero_add]
    constructor
    · intro h
      exact ⟨s, spans_nothing.2 ⟨rfl, h.le_length⟩, h⟩
    · rintro ⟨q, hq, h⟩
      obtain ⟨rfl, -⟩ := spans_nothing.1 hq
      exact h
  | succ j ih =>
    rw [Nat.succ_add, times, spans_followedBy, times]
    constructor
    · rintro ⟨q, hfirst, hrest⟩
      obtain ⟨r, hmiddle, hlast⟩ := ih.1 hrest
      exact ⟨r, spans_followedBy.2 ⟨q, hfirst, hmiddle⟩, hlast⟩
    · rintro ⟨r, hfront, hlast⟩
      obtain ⟨q, hfirst, hmiddle⟩ := spans_followedBy.1 hfront
      exact ⟨q, hfirst, ih.2 ⟨r, hmiddle, hlast⟩⟩

theorem spans_repeatedly {least : Nat} {most : Option Nat} :
    (m.repeatedly least most).Spans text s e ↔
      ∃ k, least ≤ k ∧ (∀ bound, most = some bound → k ≤ max least bound) ∧ (m.times k).Spans text s e := by
  constructor
  · rintro ⟨before, piece, after, htext, hs, he, k, hleast, hmost, hpiece⟩
    exact ⟨k, hleast, hmost, before, piece, after, htext, hs, he, hpiece⟩
  · rintro ⟨k, hleast, hmost, before, piece, after, htext, hs, he, hpiece⟩
    exact ⟨before, piece, after, htext, hs, he, k, hleast, hmost, hpiece⟩

theorem exists_spans_times : (∃ k, (m.times k).Spans text s e) ↔
    s ≤ text.length ∧ ReflTransGen (m.Spans text) s e := by
  constructor
  · rintro ⟨k, h⟩
    refine ⟨h.le_length, ?_⟩
    induction k generalizing s with
    | zero =>
      obtain ⟨rfl, -⟩ := spans_nothing.1 h
      exact .refl
    | succ k ih =>
      obtain ⟨q, hfirst, hrest⟩ := spans_followedBy.1 h
      exact .head hfirst (ih hrest)
  · rintro ⟨hs, h⟩
    induction h using ReflTransGen.head_induction_on with
    | refl => exact ⟨0, spans_nothing.2 ⟨rfl, hs⟩⟩
    | head hfirst _ ih =>
      obtain ⟨k, hrest⟩ := ih (Nat.le_trans hfirst.le hs)
      exact ⟨k + 1, spans_followedBy.2 ⟨_, hfirst, hrest⟩⟩

end Meaning

namespace Pattern

open Meaning

mutual

def Describes : Pattern → Meaning
  | .empty => nothing
  | .char c => fun _ piece _ => piece = [c]
  | .oneOf set => fun _ piece _ => ∃ c, piece = [c] ∧ set.contains c = true
  | .look condition => fun before piece after =>
    piece = [] ∧ condition.holds before.getLast? after.head? = true
  | .repeated least most sub => (Describes sub).repeatedly least most
  | .group _ sub => Describes sub
  | .sequence subs => DescribeInTurn subs
  | .choice subs => OneDescribes subs

def DescribeInTurn : List Pattern → Meaning
  | [] => nothing
  | p :: rest => (Describes p).followedBy (DescribeInTurn rest)

def OneDescribes : List Pattern → Meaning
  | [] => fun _ _ _ => False
  | p :: rest => fun before piece after => Describes p before piece after ∨ OneDescribes rest before piece after

end

end Pattern

end Inventory
