import Inventory.Pattern.Basic
import Inventory.Pattern.Places
import Std.Data.TreeMap.Lemmas

/-! # Finding patterns

Laid over a text, each leaf of a pattern becomes the set of places where it holds, and a pattern becomes a
function from the places where it may begin to the places where it may end. No pattern goes back, so its
ends are never higher than its begin.
-/

namespace Inventory

structure Ground where
  /-- The characters before and after each place. -/
  neighbours : List (Option Char × Option Char)
  /-- The places before each character of the text. -/
  byChar : Std.TreeMap Char Places

namespace Ground

def neighboursIn (text : List Char) : List (Option Char × Option Char) :=
  (none :: text.map some).zip (text.map some ++ [none])

/-- The length of a text and the places before each of its characters. -/
def scan (text : List Char) : Nat × Std.TreeMap Char Places :=
  text.foldr (fun c (place, byChar) =>
    (place + 1, byChar.alter c fun places => some (places.getD 0 + .single (place + 1)))) (0, ∅)

def ofText (text : String) : Ground :=
  ⟨neighboursIn text.toList, (scan text.toList).2⟩

def size (ground : Ground) : Nat :=
  ground.neighbours.length

def placesWhere (ground : Ground) (test : Option Char → Option Char → Bool) : Places :=
  .ofBits (ground.neighbours.map fun (before, after) => test before after)

def placesBefore (ground : Ground) (c : Char) : Places :=
  ground.byChar.getD c 0

def placesBeforeAny (ground : Ground) (set : CharSet) : Places :=
  ground.byChar.foldl (fun found c places =>
    if set.contains c then found ||| places else found) 0

theorem fst_scan (text : List Char) : (scan text).1 = text.length := by
  induction text with
  | nil => rfl
  | cons c rest ih => rw [scan, List.foldr_cons, List.length_cons, ← ih, scan]

theorem placesBefore_ofText (text : String) (c : Char) :
    (ofText text).placesBefore c = (ofText text).placesWhere fun _ after => after == some c := by
  have h : ∀ (before : Option Char) (text : List Char), (scan text).2.getD c 0 =
      Places.ofBits (((before :: text.map some).zip (text.map some ++ [none])).map
        fun (_, after) => after == some c) := by
    intro before text
    induction text generalizing before with
    | nil => simp [scan, Places.ofBits]
    | cons head rest ih =>
      simp only [List.map_cons, List.cons_append, List.zip_cons_cons, Places.ofBits_cons, ← ih]
      have hsize := fst_scan rest
      simp only [scan, List.foldr_cons, Std.TreeMap.getD_alter, Std.compare_eq_iff_eq] at hsize ⊢
      by_cases heq : head = c
      · subst heq
        simp [hsize, Std.TreeMap.getD_eq_getD_getElem?]
      · simp [heq]
  exact h none text.toList

end Ground

/-- A pattern laid over a text. -/
inductive Overlay where
  /-- Stays at a place of the set. -/
  | stay (places : Places)
  /-- Goes from a place of the set to the next one. -/
  | advance (places : Places)
  /-- Goes on any number of times to the next place, where the sets tell where 1, 2, 4 and so on steps end. -/
  | glide (landings : List Places)
  /-- Repeats at least `least` times and at most `more` times more. -/
  | repeated (least more : Nat) (sub : Overlay)
  /-- Goes from each place to the places that are given for it. -/
  | along (ends : Array Places)
  | sequence (subs : List Overlay)
  | choice (subs : List Overlay)

namespace Overlay

/-- What is reached in exactly `count` steps; once a step changes nothing, no further one does. -/
def exactly (step : Places → Places) : (count : Nat) → Places → Places
  | 0, starts => starts
  | count + 1, starts =>
    let next := step starts
    if next = starts then starts else exactly step count next

def atMost (step : Places → Places) : (count : Nat) → Places → Places
  | 0, starts => starts
  | count + 1, starts =>
    let next := starts ||| step starts
    if next = starts then starts else atMost step count next

mutual

def reach : Overlay → Places → Places
  | .stay places, starts => starts &&& places
  | .advance places, starts => (starts &&& places) >>> 1
  | .glide landings, starts => Places.glide 0 landings starts
  | .repeated least more sub, starts =>
    atMost (reach sub) more (exactly (reach sub) least starts)
  | .along ends, starts => Places.follow ends starts 0
  | .sequence subs, starts => reachInTurn subs starts
  | .choice subs, starts => reachByAny subs starts

def reachInTurn : List Overlay → Places → Places
  | [], starts => starts
  | o :: rest, starts => reachInTurn rest (reach o starts)

def reachByAny : List Overlay → Places → Places
  | [], _ => 0
  | o :: rest, starts => reach o starts ||| reachByAny rest starts

end

/-- Any number of repetitions over a text with `size` places. What they reach is found once for each place, so
that the work does not grow with each repetition inside of another. -/
def endless (size : Nat) : Overlay → Overlay
  | .advance places => .glide (Places.landings 0 (places >>> 1))
  | sub => .along (Places.closure ((List.range size).map fun place => reach sub (Places.single place)))

mutual

def ofPattern (ground : Ground) : Pattern → Overlay
  | .empty => .sequence []
  | .char c => .advance (ground.placesBefore c)
  | .oneOf set => .advance (ground.placesBeforeAny set)
  | .look look => .stay (ground.placesWhere look.holds)
  | .repeated least (some most) sub => .repeated least (most - least) (ofPattern ground sub)
  | .repeated least none sub =>
    let o := ofPattern ground sub
    .sequence [.repeated least 0 o, endless ground.size o]
  | .group _ sub => ofPattern ground sub
  | .sequence subs => .sequence (ofPatterns ground subs)
  | .choice subs => .choice (ofPatterns ground subs)

def ofPatterns (ground : Ground) : List Pattern → List Overlay
  | [] => []
  | p :: rest => ofPattern ground p :: ofPatterns ground rest

end

end Overlay

namespace Pattern

def occursIn (p : Pattern) (text : String) : Bool :=
  let ground := Ground.ofText text
  (Overlay.ofPattern ground p).reach (.lowest ground.size) != 0

end Pattern

end Inventory
