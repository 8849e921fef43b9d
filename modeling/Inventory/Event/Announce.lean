import Inventory.Event.Forwarder
import Inventory.Path.Canonical
import Inventory.Snapshot.Document

/-! # Announcing servers

Servers are announced once for each path, and every change of their availability. Other resources and other kinds of
availability are not announced, but their paths have to be paths all the same.
-/

namespace Inventory

def serverTypes : List String :=
  ["Domain Host", "Domain WildFly Server", "Domain WildFly Server Controller", "Host Controller",
   "WildFly Server"]

def isServerType (typeId : String) : Bool :=
  serverTypes.contains typeId

def serverAvailability : String := "Server Availability"

def serverDraft (path : CanonicalPath) (id : Option String) (message : String) : EventDraft where
  id := id
  feedId := path.feedId?
  resourceId := path.resourceId?
  category := "Inventory Change"
  text := message
  eventType := "hawkular_event"
  resourceType := "MiddlewareServer"
  message := message

def addedId (path : CanonicalPath) : String :=
  "RESOURCE_ADDED_" ++ path.render

namespace Forwarder

variable {σ : Type} [AlertSink σ] [EventDigest]

def parsePath (path : String) : Action σ CanonicalPath :=
  match CanonicalPath.parse path with
  | .ok path => pure path
  | .error e => throw e

def announceAdded (now : Int64) (typeId path : String) : Action σ Bool := do
  let path ← parsePath path
  if isServerType typeId then
    send now (serverDraft path (some (addedId path)) ("Added: " ++ typeId)) true
  else return false

def announceAvailability (now : Int64) (path kind availability : String) : Action σ Bool := do
  let path ← parsePath path
  if kind = serverAvailability then
    let message := "Avail change [" ++ availability ++ "]: " ++ kind
    send now (serverDraft path none message) false
  else return false

/-- Where the resources of a document stand, for a feed at a path. -/
def documentPath (feed : CanonicalPath) (doc : Document) : CanonicalPath :=
  if doc.root.kind = .resource then feed.child doc.root.segment else feed

def serverEntries (doc : Document) : List (String × String) :=
  (doc.resourceTypes.entries.filter (isServerType ·.1)).flatMap fun (typeId, paths) =>
    paths.map fun path => (typeId, path)

def announceEntry (now : Int64) (doc : Document) (base : CanonicalPath) (typeId path : String) :
    Action σ Bool := do
  if (doc.getOfKind? .resource path).isNone then return false
  else
    match base.join path with
    | .ok whole => announceAdded now typeId whole.render
    | .error e => throw e

/-- Announces the resource at a numbered entry, and counts it if it is new. -/
def countEntry (times : Nat → Int64) (doc : Document) (base : CanonicalPath) (sent : Nat)
    (entry : (String × String) × Nat) : Action σ Nat := do
  let ((typeId, path), i) := entry
  return if ← announceEntry (times i) doc base typeId path then sent + 1 else sent

/-- Announces the servers of a document, each entry at a time of its own, and tells how many of them were new. -/
def announceServers (times : Nat → Int64) (doc : Document) (feedPath : String) : Action σ Nat := do
  let feed ← parsePath feedPath
  (serverEntries doc).zipIdx.foldlM (countEntry times doc (documentPath feed doc)) 0

/-- Announces the servers of a document, all of them at one time. -/
def announceSnapshot (now : Int64) (doc : Document) (feedPath : String) : Action σ Nat :=
  announceServers (fun _ => now) doc feedPath

end Forwarder

end Inventory
