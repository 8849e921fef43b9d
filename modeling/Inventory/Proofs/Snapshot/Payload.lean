import Inventory.Chunk.Snapshot
import Inventory.Proofs.Gzip.Stored
import Inventory.Proofs.Json.Nesting
import Inventory.Proofs.Snapshot.ReadBack
import Inventory.Proofs.Traversal

/-! # What one payload holds

A payload is read as compressed text, and the text as a document; it fails at one of these stages
(`ofPayload_eq_error_iff`). Whatever compression `Gzip.expand?` undoes, a compressed document is read back unless it
nests too deeply (`ofPayload_gzip`).
-/

namespace Inventory.Document

variable {gzip : Bytes → Bytes} {payload : Bytes} {doc : Document} {e : Error}

theorem ofPayload_eq_ok_iff :
    ofPayload payload = .ok doc ↔ ∃ text, expandText payload = .ok text ∧ parse? text = some doc := by
  rw [ofPayload, bind_eq_ok_iff]
  refine exists_congr fun text => and_congr_right fun _ => ?_
  cases parse? text with
  | none => exact iff_of_false (by rintro ⟨⟩) (by rintro ⟨⟩)
  | some read => exact (iff_of_eq (Except.ok.injEq read doc)).trans Option.some_inj.symm

theorem ofPayload_eq_error_iff :
    ofPayload payload = .error e ↔
      ((Gzip.expand? payload).bind Text.ofUtf8? = none ∧ e = .malformedSnapshot .gzip) ∨
      ∃ text, (Gzip.expand? payload).bind Text.ofUtf8? = some text ∧ parse? text = none ∧
        e = .malformedSnapshot .json := by
  rw [ofPayload, bind_eq_error_iff, expandText]
  cases (Gzip.expand? payload).bind Text.ofUtf8? with
  | none => simp [eq_comm]
  | some text =>
    cases hdoc : parse? text with
    | none => simp [hdoc, eq_comm, throw, throwThe, MonadExceptOf.throw]
    | some doc => simp [hdoc, pure, Except.pure]

theorem gzip_ne_nil (hgzip : ∀ bytes, Gzip.expand? (gzip bytes) = some bytes) (bytes : Bytes) :
    gzip bytes ≠ [] := by
  intro hnil
  have hexpand := hgzip bytes
  rw [hnil, Gzip.expand?_nil] at hexpand
  cases hexpand

theorem expandText_gzip (hgzip : ∀ bytes, Gzip.expand? (gzip bytes) = some bytes) (text : String) :
    expandText (gzip (Text.utf8 text)) = .ok text := by
  rw [expandText, hgzip, Option.bind_some, Text.ofUtf8?_utf8]

theorem nesting_render (h : doc.noReals = true) : Json.nesting doc.render = doc.toDatum.depth :=
  Json.nesting_print (isPlain_toDatum h)

theorem ofPayload_gzip (hgzip : ∀ bytes, Gzip.expand? (gzip bytes) = some bytes) (hreals : doc.noReals = true) :
    ofPayload (gzip (Text.utf8 doc.render)) =
      if Json.nesting doc.render ≤ 127 then .ok doc else .error (.malformedSnapshot .json) := by
  have htext := expandText_gzip hgzip doc.render
  have hparse : parse? doc.render = if Json.nesting doc.render ≤ 127 then some doc else none := by
    rw [nesting_render hreals]
    exact parse?_render hreals
  by_cases hnesting : Json.nesting doc.render ≤ 127
  · rw [if_pos hnesting] at hparse ⊢
    exact ofPayload_eq_ok_iff.2 ⟨doc.render, htext, hparse⟩
  · rw [if_neg hnesting] at hparse ⊢
    rw [ofPayload, htext, ok_bind, hparse]
    rfl

/-- A resource by itself, in a text of some hundred bytes. -/
def lone (id : String) : Document :=
  .bare (.node (.resource id "" none .empty) [])

theorem ofPayload_compress_lone (id : String) : ofPayload (lone id).compress = .ok (lone id) := by
  have hreals : (lone id).noReals = true := rfl
  have hdepth : (lone id).toDatum.depth ≤ 127 := by
    have h : (lone id).toDatum.depth = 4 := rfl
    omega
  rw [compress, ofPayload_gzip Gzip.expand?_pack hreals, if_pos (by rwa [nesting_render hreals])]

theorem compress_ne_nil (doc : Document) : doc.compress ≠ [] :=
  gzip_ne_nil Gzip.expand?_pack _

end Inventory.Document
