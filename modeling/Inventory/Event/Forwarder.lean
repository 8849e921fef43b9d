import Inventory.Event.Sink

/-! # Sending events

A forwarder turns drafts into events of one tenant and hands them to its sink. What it has sent stays sent when a
later step fails.
-/

namespace Inventory

structure Forwarder (σ : Type) where
  sink : σ
  tenantId : String
  /-- How many ids have been made up. -/
  sequence : UInt64

namespace Forwarder

variable {σ : Type}

def standardTenant : String := "hawkular"

def ofSink (sink : σ) (tenantId : String) : Forwarder σ :=
  ⟨sink, tenantId, 0⟩

/-- A step that may fail, and changes the forwarder even then. -/
abbrev Action (σ α : Type) := ExceptT Error (StateM (Forwarder σ)) α

def onSink {α : Type} (step : StateM σ (Except Error α)) : Action σ α := do
  let forwarder ← get
  let (result, sink) := step.run forwarder.sink
  set { forwarder with sink }
  ofExcept result
where
  ofExcept : Except Error α → Action σ α
    | .ok a => pure a
    | .error e => throw e

def takeId [EventDigest] (now : Int64) (draft : EventDraft) : Action σ String := do
  match draft.givenId? with
  | some id => return id
  | none =>
    let forwarder ← get
    set { forwarder with sequence := forwarder.sequence + 1 }
    return draft.madeUpId forwarder.tenantId now forwarder.sequence

/-- Whether a draft with this id is to be left out: the sink is asked only with `once`. -/
def isSent [AlertSink σ] (tenantId id : String) (once : Bool) : Action σ Bool :=
  if once then onSink (AlertSink.hasEvent tenantId id) else pure false

/-- Sends one event, and tells whether it was sent; with `once` an event whose id the sink has is not. -/
def send [EventDigest] [AlertSink σ] (now : Int64) (draft : EventDraft) (once : Bool) : Action σ Bool := do
  let id ← takeId now draft
  let tenantId := (← get).tenantId
  if ← isSent tenantId id once then return false
  else
    onSink (AlertSink.addEvents [draft.toEvent tenantId id now])
    return true

end Forwarder

end Inventory
