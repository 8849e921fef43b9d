import Inventory.Event.Basic

/-! # Where events go

A sink takes events and tells whether it has one. Either may fail. `MemorySink` keeps every event and never
fails.
-/

namespace Inventory

class AlertSink (σ : Type) where
  /-- Whether the sink has an event of a tenant with an id. -/
  hasEvent : String → String → StateM σ (Except Error Bool)
  addEvents : List Event → StateM σ (Except Error Unit)

/-- Events in the order in which they came. -/
structure MemorySink where
  events : List Event
deriving DecidableEq

namespace MemorySink

def empty : MemorySink := ⟨[]⟩

def has (s : MemorySink) (tenantId id : String) : Bool :=
  s.events.any fun e => e.tenantId == tenantId && e.id == id

def add (s : MemorySink) (events : List Event) : MemorySink :=
  ⟨s.events ++ events⟩

instance : AlertSink MemorySink where
  hasEvent tenantId id := return .ok ((← get).has tenantId id)
  addEvents events := do
    modify (·.add events)
    return .ok ()

end MemorySink

end Inventory
