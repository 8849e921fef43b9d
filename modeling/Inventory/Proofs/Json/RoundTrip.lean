import Inventory.Proofs.Json.Lexing

/-! # Printed data are read back

The tokens of a datum take the reader from where a value must come to where that value has come, on any
stack of open containers. With the tokens of printed text this gives `read?_print`; `decode?_print` adds
what the limit of nesting does to a datum.
-/

namespace Inventory.Json

open Reader

theorem step?_itemOrEnd (d : Datum) (stack : List Frame) :
    (tokensOf d).foldlM step? ⟨.items [] :: stack, .itemOrEnd⟩ =
      (tokensOf d).foldlM step? ⟨.items [] :: stack, .value⟩ := by
  cases d <;> rfl

theorem itemOrEnd_itemTokens {d : Datum} {rest : List Datum} {stack : List Frame} {last : List Token} :
    (itemTokens (d :: rest) ++ last).foldlM step? ⟨.items [] :: stack, .itemOrEnd⟩ =
      (itemTokens (d :: rest) ++ last).foldlM step? ⟨.items [] :: stack, .value⟩ := by
  cases rest with
  | nil => simp only [itemTokens, List.foldlM_append, step?_itemOrEnd]
  | cons next rest =>
    rw [itemTokens, List.append_assoc, List.foldlM_append, List.foldlM_append, step?_itemOrEnd]

theorem keyOrEnd_entryTokens {e : Key × Datum} {rest : List (Key × Datum)} {stack : List Frame}
    {last : List Token} :
    (entryTokens (e :: rest) ++ last).foldlM step? ⟨.entries [] :: stack, .keyOrEnd⟩ =
      (entryTokens (e :: rest) ++ last).foldlM step? ⟨.entries [] :: stack, .key⟩ := by
  obtain ⟨key, d⟩ := e
  cases rest <;> cases key <;> rfl

theorem step?_keyToken {key : Key} (h : key.isText = true) (reversed : List (Key × Datum))
    (stack : List Frame) :
    step? ⟨.entries reversed :: stack, .key⟩ (keyToken key) =
      some ⟨.entry reversed key :: stack, .colon⟩ := by
  cases key with
  | text s => rfl
  | _ => cases h

mutual

/-- A value has come when its tokens have come. -/
theorem read_tokensOf : ∀ (d : Datum) (stack : List Frame), d.isPlain = true →
    (tokensOf d).foldlM step? ⟨stack, .value⟩ = some ⟨stack, .more d⟩
  | .null, _, _ | .bool _, _, _ | .unsigned _, _, _ | .signed _, _, _ | .text _, _, _ => rfl
  | .list [], _, _ => rfl
  | .list (d :: rest), stack, h => by
    have hopen : step? ⟨stack, .value⟩ .openList = some ⟨.items [] :: stack, .itemOrEnd⟩ := rfl
    rw [tokensOf, List.foldlM_cons, hopen, Option.bind_eq_bind, Option.bind_some, itemOrEnd_itemTokens,
      read_itemTokens (d :: rest) [] stack (List.cons_ne_nil d rest) h]
    rfl
  | .map [], _, _ => rfl
  | .map (e :: rest), stack, h => by
    have hopen : step? ⟨stack, .value⟩ .openMap = some ⟨.entries [] :: stack, .keyOrEnd⟩ := rfl
    rw [tokensOf, List.foldlM_cons, hopen, Option.bind_eq_bind, Option.bind_some, keyOrEnd_entryTokens,
      read_entryTokens (e :: rest) [] stack (List.cons_ne_nil e rest) h]
    rfl

theorem read_itemTokens : ∀ (items reversed : List Datum) (stack : List Frame), items ≠ [] →
    Datum.arePlain items = true →
    (itemTokens items ++ [Token.closeList]).foldlM step? ⟨.items reversed :: stack, .value⟩ =
      some ⟨stack, .more (.list (reversed.reverse ++ items))⟩
  | [], _, _, hne, _ => absurd rfl hne
  | [d], reversed, stack, _, h => by
    simp only [Datum.arePlain, Bool.and_true] at h
    rw [itemTokens, List.foldlM_append, read_tokensOf d _ h, ← List.reverse_reverse [d],
      ← List.reverse_append]
    rfl
  | d :: next :: rest, reversed, stack, _, h => by
    rw [Datum.arePlain, Bool.and_eq_true] at h
    have hcomma : step? ⟨.items reversed :: stack, .more d⟩ .comma =
        some ⟨.items (d :: reversed) :: stack, .value⟩ := rfl
    rw [itemTokens, List.append_assoc, List.foldlM_append, read_tokensOf d _ h.1, Option.bind_eq_bind,
      Option.bind_some, List.cons_append, List.foldlM_cons, hcomma, Option.bind_eq_bind, Option.bind_some,
      read_itemTokens (next :: rest) (d :: reversed) stack (List.cons_ne_nil next rest) h.2]
    simp

theorem read_entryTokens : ∀ (entries reversed : List (Key × Datum)) (stack : List Frame), entries ≠ [] →
    Datum.entriesPlain entries = true →
    (entryTokens entries ++ [Token.closeMap]).foldlM step? ⟨.entries reversed :: stack, .key⟩ =
      some ⟨stack, .more (.map (reversed.reverse ++ entries))⟩
  | [], _, _, hne, _ => absurd rfl hne
  | [(key, d)], reversed, stack, _, h => by
    rw [Datum.entriesPlain, Datum.entriesPlain, Bool.and_true, Bool.and_eq_true] at h
    have hcolon : step? ⟨.entry reversed key :: stack, .colon⟩ .colon =
        some ⟨.entry reversed key :: stack, .value⟩ := rfl
    rw [entryTokens, List.cons_append, List.foldlM_cons, step?_keyToken h.1, Option.bind_eq_bind,
      Option.bind_some, List.cons_append, List.foldlM_cons, hcolon, Option.bind_eq_bind, Option.bind_some,
      List.foldlM_append, read_tokensOf d _ h.2, ← List.reverse_reverse [(key, d)], ← List.reverse_append]
    rfl
  | (key, d) :: next :: rest, reversed, stack, _, h => by
    rw [Datum.entriesPlain, Bool.and_eq_true, Bool.and_eq_true] at h
    have hcolon : step? ⟨.entry reversed key :: stack, .colon⟩ .colon =
        some ⟨.entry reversed key :: stack, .value⟩ := rfl
    have hcomma : step? ⟨.entry reversed key :: stack, .more d⟩ .comma =
        some ⟨.entries ((key, d) :: reversed) :: stack, .key⟩ := rfl
    rw [entryTokens, List.cons_append, List.foldlM_cons, step?_keyToken h.1.1, Option.bind_eq_bind,
      Option.bind_some, List.cons_append, List.foldlM_cons, hcolon, Option.bind_eq_bind, Option.bind_some,
      List.append_assoc, List.foldlM_append, read_tokensOf d _ h.1.2, Option.bind_eq_bind, Option.bind_some,
      List.cons_append, List.foldlM_cons, hcomma, Option.bind_eq_bind, Option.bind_some,
      read_entryTokens (next :: rest) ((key, d) :: reversed) stack (List.cons_ne_nil next rest) h.2]
    simp

end

theorem read?_print {d : Datum} (h : d.isPlain = true) : read? (print d) = some d := by
  rw [read?, print, String.toList_ofList, tokens?_printChars h, Option.bind_eq_bind, Option.bind_some,
    start, read_tokensOf d [] h]
  rfl

/-- The limit of nesting is all that decoding takes away. -/
theorem decode?_print {d : Datum} (h : d.isPlain = true) :
    decode? (print d) = some (d.cut depthLimit) := by
  rw [decode?, read?_print h, Option.map_some]

end Inventory.Json
