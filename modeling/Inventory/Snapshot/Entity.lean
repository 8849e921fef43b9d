import Inventory.Path.Segment
import Inventory.Value

/-! # Entities

What an inventory speaks of: types of resources and of metrics, resources, and metrics. An entity has an id
that is its own among its siblings of the same kind.
-/

namespace Inventory

inductive MetricUnit where
  | none
  | percentage
  | bytes
  | kilobytes
  | megabytes
  | gigabytes
  | nanoseconds
  | microseconds
  | milliseconds
  | seconds
  | minutes
  | hours
  | days
  | perSecond
  | perMinute
deriving DecidableEq, Repr

namespace MetricUnit

def all : List MetricUnit :=
  [.none, .percentage, .bytes, .kilobytes, .megabytes, .gigabytes, .nanoseconds, .microseconds,
   .milliseconds, .seconds, .minutes, .hours, .days, .perSecond, .perMinute]

def name : MetricUnit → String
  | .none => "NONE"
  | .percentage => "PERCENTAGE"
  | .bytes => "BYTES"
  | .kilobytes => "KILOBYTES"
  | .megabytes => "MEGABYTES"
  | .gigabytes => "GIGABYTES"
  | .nanoseconds => "NANOSECONDS"
  | .microseconds => "MICROSECONDS"
  | .milliseconds => "MILLISECONDS"
  | .seconds => "SECONDS"
  | .minutes => "MINUTES"
  | .hours => "HOURS"
  | .days => "DAYS"
  | .perSecond => "PER_SECOND"
  | .perMinute => "PER_MINUTE"

def ofName? (name : String) : Option MetricUnit :=
  all.find? (·.name == name)

theorem ofName?_name (unit : MetricUnit) : ofName? unit.name = some unit := by
  cases unit <;> decide

end MetricUnit

inductive DataKind where
  | gauge
  | counter
  | availability
  | string
  | gaugeRate
  | counterRate
deriving DecidableEq, Repr

namespace DataKind

def all : List DataKind :=
  [.gauge, .counter, .availability, .string, .gaugeRate, .counterRate]

def name : DataKind → String
  | .gauge => "GAUGE"
  | .counter => "COUNTER"
  | .availability => "AVAILABILITY"
  | .string => "STRING"
  | .gaugeRate => "GAUGE_RATE"
  | .counterRate => "COUNTER_RATE"

def ofName? (name : String) : Option DataKind :=
  all.find? (·.name == name)

theorem ofName?_name (kind : DataKind) : ofName? kind.name = some kind := by
  cases kind <;> decide

end DataKind

structure Operation where
  name : String
  parameters : Properties
deriving DecidableEq

inductive Entity where
  | resourceType (id name : String) (operations : List Operation) (properties : Properties)
  | metricType (id name : String) (dataKind : DataKind) (unit : MetricUnit)
      (collectionInterval : UInt64) (properties : Properties)
  /-- The type of a resource is named by a path, if it is known. -/
  | resource (id name : String) (typePath : Option String) (properties : Properties)
  | metric (id name : String) (typePath : String) (properties : Properties)
deriving DecidableEq

inductive EntityKind where
  | resourceType
  | metricType
  | resource
  | metric
deriving DecidableEq, Repr

namespace EntityKind

def code : EntityKind → String
  | .resourceType => "rt"
  | .metricType => "mt"
  | .resource => "r"
  | .metric => "m"

def ofCode? : String → Option EntityKind
  | "rt" => some .resourceType
  | "mt" => some .metricType
  | "r" => some .resource
  | "m" => some .metric
  | _ => none

theorem ofCode?_code (kind : EntityKind) : ofCode? kind.code = some kind := by
  cases kind <;> rfl

def segment (kind : EntityKind) (id : String) : Path.Segment :=
  ⟨kind.code, id⟩

end EntityKind

namespace Entity

def id : Entity → String
  | .resourceType id .. => id
  | .metricType id .. => id
  | .resource id .. => id
  | .metric id .. => id

def name : Entity → String
  | .resourceType _ name .. => name
  | .metricType _ name .. => name
  | .resource _ name .. => name
  | .metric _ name .. => name

def kind : Entity → EntityKind
  | .resourceType .. => .resourceType
  | .metricType .. => .metricType
  | .resource .. => .resource
  | .metric .. => .metric

def segment (entity : Entity) : Path.Segment :=
  entity.kind.segment entity.id

def typeId? : Entity → Option String
  | .resource _ _ (some path) _ => Path.lastId? path
  | .metric _ _ path _ => Path.lastId? path
  | _ => none

end Entity

end Inventory
