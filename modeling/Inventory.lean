import Inventory.Error.Description
import Inventory.Event.Announce
import Inventory.Main
import Inventory.Path.Canonical
import Inventory.Proofs.Graph.Derived
import Inventory.Proofs.Graph.Walk
import Inventory.Proofs.Snapshot.Lossless
import Inventory.Source.Query
import Inventory.Text.Natural
import Inventory.Text.Quoted
import Inventory.Proofs.Graph.Trees
import Inventory.Proofs.Graph.Hierarchy
import Inventory.Proofs.Path.Parts
import Inventory.Proofs.Snapshot.Trails
import Inventory.Proofs.Snapshot.Indices
import Inventory.Proofs.Path.Spelling
import Inventory.Proofs.Traversal
import Inventory.Proofs.Snapshot.ByType
import Inventory.Proofs.Source.Contents
import Inventory.Proofs.Source.Newest
import Inventory.Proofs.Service.Atomicity
import Inventory.Graph.Shared
import Inventory.Proofs.Chunk.Disturbance
import Inventory.Proofs.Graph.Recovery
import Inventory.Proofs.Event.Announcement
import Inventory.Proofs.Pattern.Meaning
import Inventory.Proofs.Pattern.Machine
import Inventory.Proofs.Pattern.Quoted
import Inventory.Proofs.Source.Conditions
import Inventory.Proofs.Source.Shortcut
import Inventory.Proofs.Service.Framing
import Inventory.Proofs.Graph.Effort
import Inventory.Proofs.Graph.Limits
import Inventory.Proofs.Graph.Staleness
import Inventory.Proofs.Graph.Independence
import Inventory.Proofs.Graph.Metrics
import Inventory.Proofs.Chunk.Pieces
import Inventory.Proofs.Event.Servers
import Inventory.Proofs.Event.Nameless
import Inventory.Proofs.Source.Values
import Inventory.Proofs.Source.WholeValues
import Inventory.Proofs.Path.LastId
import Inventory.Proofs.Path.Splitting
import Inventory.Proofs.Chunk.Wire
import Inventory.Proofs.Json.Forms
import Inventory.Proofs.Snapshot.Republication
