import Inventory.Proofs.Graph.Derived
import Inventory.Proofs.Service.Rejection
import Inventory.Service.Preload

/-! # What a request leaves behind

A request carries out one whole batch, or it leaves the graph as it is (`Graph.answer_cases`). Either way the
graph is settled afterwards: nothing is pending, and one more `reindex` would change nothing.
-/

namespace Inventory

def Request.isWrite : Request → Bool
  | .addResources _ | .addResourceTypes _ | .addMetrics _ | .reindex | .ingest _ => true
  | _ => false

def Response.isVoid : Response → Bool
  | .failed _ | .invalidRequest | .ingested none => true
  | _ => false

inductive Writes : Request → List Write → Response → Prop
  | resources (rs : List Resource) :
    Writes (.addResources rs) (rs.map fun r => .record (.resource r)) (.count rs.length)
  | resourceTypes (ts : List ResourceType) :
    Writes (.addResourceTypes ts) (ts.map fun t => .record (.resourceType t)) (.count ts.length)
  | metrics (ms : List Metric) :
    Writes (.addMetrics ms) (ms.map fun m => .record (.metric m)) (.count ms.length)
  | reindex : Writes .reindex [] .done
  | snapshot {chunks : List WireChunk} {doc : Document} (h : Graph.snapshotOf chunks = .ok (some doc)) :
    Writes (.ingest chunks) [.snapshot doc] (.ingested (some (.ofRecords doc.graphRecords)))

namespace Writes

variable {request : Request} {writes : List Write} {response : Response}

theorem isWrite (h : Writes request writes response) : request.isWrite = true := by
  cases h <;> rfl

theorem isVoid (h : Writes request writes response) : response.isVoid = false := by
  cases h <;> rfl

end Writes

namespace Graph

variable {g : Graph}

theorem run_get_bind {α : Type} (f : Graph → ExceptT Error (StateM Graph) α) (g : Graph) :
    ((get >>= f).run.run g).run = ((f g).run.run g).run :=
  rfl

theorem run_lift_bind {α β : Type} (x : Except Error α) (f : α → ExceptT Error (StateM Graph) β) (g : Graph) :
    ((liftM x >>= f).run.run g).run =
      match x with
      | .ok a => ((f a).run.run g).run
      | .error e => (.error e, g) := by
  cases x <;> rfl

theorem answer_ingest (g : Graph) (chunks : List WireChunk) :
    g.answer (.ingest chunks) =
      match snapshotOf chunks with
      | .ok (some doc) => (g.batch [.snapshot doc], .ingested (some (.ofRecords doc.graphRecords)))
      | .ok none => (g, .ingested none)
      | .error e => (g, .failed e) := by
  rw [answer, perform, run_lift_bind]
  cases snapshotOf chunks with
  | error e => rfl
  | ok newest => cases newest <;> rfl

/-- What a request does: a whole batch, or nothing. -/
theorem answer_cases (g : Graph) (request : Request) :
    (∃ writes response, Writes request writes response ∧
      g.answer request = (g.batch writes, response)) ∨
    ∃ response, g.answer request = (g, response) ∧
      (request.isWrite = false ∨ response.isVoid = true) := by
  cases request with
  | addResources rs => exact .inl ⟨_, _, .resources rs, rfl⟩
  | addResourceTypes ts => exact .inl ⟨_, _, .resourceTypes ts, rfl⟩
  | addMetrics ms => exact .inl ⟨_, _, .metrics ms, rfl⟩
  | reindex => exact .inl ⟨_, _, .reindex, rfl⟩
  | ingest chunks =>
    rw [answer_ingest]
    cases h : snapshotOf chunks with
    | error e => exact .inr ⟨_, rfl, .inr rfl⟩
    | ok newest =>
      cases newest with
      | none => exact .inr ⟨_, rfl, .inr rfl⟩
      | some doc => exact .inl ⟨_, _, .snapshot h, rfl⟩
  | getTree id =>
    cases h : g.tree? .wire id with
    | error e =>
      refine .inr ⟨.failed e, ?_, .inl rfl⟩
      rw [answer, perform, run_get_bind, run_lift_bind, h]
    | ok root =>
      refine .inr ⟨.tree root, ?_, .inl rfl⟩
      rw [answer, perform, run_get_bind, run_lift_bind, h]
      rfl
  | metricsOfType chunks typeId =>
    cases h : snapshotOf chunks with
    | error e =>
      refine .inr ⟨.failed e, ?_, .inl rfl⟩
      rw [answer, perform, run_lift_bind, h]
    | ok newest =>
      refine .inr ⟨.entities ((newest.map (·.metricsOfType typeId)).getD []), ?_, .inl rfl⟩
      rw [answer, perform, run_lift_bind, h]
      rfl
  | getResource id => exact .inr ⟨_, rfl, .inl rfl⟩
  | getTopResources => exact .inr ⟨_, rfl, .inl rfl⟩
  | getResourcesOfType typeId => exact .inr ⟨_, rfl, .inl rfl⟩
  | getResourceTypes => exact .inr ⟨_, rfl, .inl rfl⟩
  | getResourceType id => exact .inr ⟨_, rfl, .inl rfl⟩
  | getMetricsOf id => exact .inr ⟨_, rfl, .inl rfl⟩
  | stats => exact .inr ⟨_, rfl, .inl rfl⟩
  | ping => exact .inr ⟨_, rfl, .inl rfl⟩
  | shutdown => exact .inr ⟨_, rfl, .inl rfl⟩

theorem answer_ingest_eq_failed_iff {chunks : List WireChunk} {e : Error} :
    g.answer (.ingest chunks) = (g, .failed e) ↔ Rejected chunks e := by
  rw [← snapshotOf_eq_error_iff, answer_ingest]
  cases snapshotOf chunks with
  | error fault => simp
  | ok newest => cases newest <;> simp

structure Settled (g : Graph) : Prop where
  clean : g.pendingWrites = 0
  fresh : g.Fresh

theorem Settled.reindex_eq (h : g.Settled) : g.reindex = g := by
  rw [reindex, ← h.fresh, ← h.clean]

theorem settled_empty : empty.Settled :=
  ⟨rfl, rfl⟩

theorem settled_reindex (g : Graph) : g.reindex.Settled :=
  ⟨rfl, g.fresh_reindex⟩

theorem Settled.answer (h : g.Settled) (request : Request) : (g.answer request).1.Settled := by
  rcases g.answer_cases request with ⟨writes, response, -, hanswer⟩ | ⟨response, hanswer, -⟩
  · rw [hanswer]
    exact settled_reindex _
  · rw [hanswer]
    exact h

theorem Settled.answerFrame (h : g.Settled) (frame : Bytes) : (g.answerFrame frame).1.Settled := by
  rw [Graph.answerFrame]
  cases (MessagePack.read? frame).bind Request.ofDatum? with
  | none => exact h
  | some request => exact h.answer request

theorem settled_preload {text : String} (h : preload text = .ok g) : g.Settled := by
  rw [preload] at h
  cases hchunks : WireChunk.parseAll? text with
  | none =>
    rw [hchunks] at h
    cases h
  | some chunks =>
    have hloaded :
        (snapshotOf chunks).map (fun newest => newest.elim empty fun doc => (empty.ingest doc).1) = .ok g := by
      rw [← h, hchunks]
      change _ = (snapshotOf chunks).bind _
      cases snapshotOf chunks with
      | error e => rfl
      | ok newest => cases newest <;> rfl
    obtain ⟨newest, -, rfl⟩ := map_eq_ok_iff.1 hloaded
    cases newest with
    | none => exact settled_empty
    | some doc => exact settled_reindex _

def answerAll (g : Graph) (requests : List Request) : Graph :=
  requests.foldl (fun g request => (g.answer request).1) g

theorem Settled.answerAll (h : g.Settled) (requests : List Request) : (g.answerAll requests).Settled := by
  induction requests generalizing g with
  | nil => exact h
  | cons request rest ih => exact ih (h.answer request)

def served (requests : List Request) : Graph :=
  empty.answerAll requests

/-- After any requests nothing is pending, a `reindex` changes nothing, a request that does not write or says
that it did not leaves all as it is, and so does every fault in the chunks of a snapshot. -/
theorem served_atomic (requests : List Request) :
    (served requests).pendingWrites = 0 ∧ (served requests).reindex = served requests ∧
    (∀ request, request.isWrite = false ∨ ((served requests).answer request).2.isVoid = true →
      ((served requests).answer request).1 = served requests) ∧
    ∀ chunks e, Rejected chunks e ↔
      (served requests).answer (.ingest chunks) = (served requests, .failed e) := by
  have hsettled : (served requests).Settled := settled_empty.answerAll requests
  refine ⟨hsettled.clean, hsettled.reindex_eq, fun request hquiet => ?_, fun chunks e =>
    answer_ingest_eq_failed_iff.symm⟩
  rcases (served requests).answer_cases request with
    ⟨writes, response, hwrites, hanswer⟩ | ⟨response, hanswer, -⟩
  · rw [hanswer, hwrites.isWrite, hwrites.isVoid] at hquiet
    rcases hquiet with h | h <;> cases h
  · rw [hanswer]

def addPump : Request :=
  .addResources [Resource.plain "pump" "Pump" "machine"]

/-- Two chunks of which the second one is not base64. -/
def tornChunks : List WireChunk :=
  [⟨8, " AAAA", .ofList [(chunksTag, "2"), (sizeTag, "6")]⟩, ⟨7, "AA?=", .empty⟩]

theorem served_atomic_torn :
    (served [addPump]).answer (.ingest tornChunks) =
      (served [addPump], .failed (.malformedSnapshot (.base64 7))) ∧
    ((served [addPump]).answer (.ingest tornChunks)).1.topResources =
      [Resource.plain "pump" "Pump" "machine"] := by
  have hsplit : tornChunks = tornChunks.take 1 ++ ⟨7, "AA?=", .empty⟩ :: [] := rfl
  have hrejected : Rejected tornChunks (.malformedSnapshot (.base64 7)) :=
    .base64 hsplit (by decide) (by decide)
  obtain ⟨-, -, hquiet, hrejects⟩ := served_atomic [addPump]
  have hanswer := (hrejects _ _).1 hrejected
  refine ⟨hanswer, ?_⟩
  rw [hquiet _ (.inr (by rw [hanswer]; rfl))]
  decide +kernel

end Graph

end Inventory
