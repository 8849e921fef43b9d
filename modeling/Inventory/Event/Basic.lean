import Inventory.ByteOrder
import Inventory.Error
import Inventory.SortedMap
import Inventory.Text.Utf8

/-! # Events

An event is announced to somebody who keeps it. It is drafted first; id and time are given when it is sent. An id
that is made up is half of a digest of what is sent, in 32 hexadecimal digits (`length_madeUpId`,
`mem_hexDigits_of_mem_madeUpId`). Which digest is used is left open; `FourLanes` is one.
-/

namespace Inventory

structure Event where
  tenantId : String
  id : String
  /-- In milliseconds. -/
  createdAt : Int64
  category : String
  text : String
  context : SortedMap String
  tags : SortedMap String
deriving DecidableEq

structure EventDraft where
  /-- An id is made up if this is none or empty. -/
  id : Option String
  feedId : Option String
  resourceId : Option String
  category : String
  text : String
  eventType : String
  resourceType : String
  message : String
deriving DecidableEq

class EventDigest where
  digest : Bytes → Bytes
  length_digest (bytes : Bytes) : (digest bytes).length = 32

namespace FourLanes

def digestByte (state : UInt64) (byte : UInt8) : UInt64 :=
  (state ^^^ byte.toUInt64) * 0x100000001B3

/-- A lane is a digest of eight bytes that begins in a state of its own. -/
def lane (start : UInt64) (bytes : Bytes) : Bytes :=
  littleEndian 8 (bytes.foldl digestByte start).toNat

/-- The digest for those who need no better one. -/
instance : EventDigest where
  digest bytes :=
    lane 0xCBF29CE484222325 bytes ++ lane 0x9E3779B97F4A7C15 bytes ++
      (lane 0xC2B2AE3D27D4EB4F bytes ++ lane 0x165667B19E3779F9 bytes)
  length_digest bytes := by simp [lane]

end FourLanes

namespace EventDraft

def context (d : EventDraft) : SortedMap String :=
  .ofList <|
    (d.feedId.toList.map fun id => ("feed_id", id)) ++
    (d.resourceId.toList.map fun id => ("resource_id", id)) ++ [("message", d.message)]

def tags (d : EventDraft) : SortedMap String :=
  .ofList [("miq.event_type", d.eventType), ("miq.resource_type", d.resourceType)]

/-- The id made up for a draft, the `sequence`-th of its sender. -/
def madeUpId [EventDigest] (d : EventDraft) (tenantId : String) (now : Int64) (sequence : UInt64) : String :=
  let parts := [tenantId, d.category, d.text, d.resourceId.getD ""]
  let bytes := parts.flatMap (fun part => Text.utf8 part ++ [0]) ++
    littleEndian 8 now.toUInt64.toNat ++ littleEndian 8 sequence.toNat
  String.ofList ((Text.hexOfBytes (EventDigest.digest bytes)).toList.take 32)

def givenId? (d : EventDraft) : Option String :=
  d.id.filter (· != "")

def toEvent (d : EventDraft) (tenantId id : String) (now : Int64) : Event :=
  ⟨tenantId, id, now, d.category, d.text, d.context, d.tags⟩

variable [EventDigest]

theorem length_madeUpId (d : EventDraft) (tenantId : String) (now : Int64) (sequence : UInt64) :
    (d.madeUpId tenantId now sequence).length = 32 := by
  rw [madeUpId, String.length_ofList, List.length_take, String.length_toList, Text.length_hexOfBytes,
    EventDigest.length_digest]
  rfl

theorem mem_hexDigits_of_mem_madeUpId {d : EventDraft} {tenantId : String} {now : Int64} {sequence : UInt64} {c : Char}
    (h : c ∈ (d.madeUpId tenantId now sequence).toList) : c ∈ Text.hexDigits := by
  rw [madeUpId, String.toList_ofList] at h
  exact Text.mem_hexDigits_of_mem_hexOfBytes (List.mem_of_mem_take h)

end EventDraft

end Inventory
