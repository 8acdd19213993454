import Mathlib.Data.List.Basic

/-!
# The Domain Model of the Coordinator

The records that `internal/application/orchestrator` reads and writes: the submitted `Graph`
with its nodes and edges, the persisted `GraphState` with one `NodeState` per node, and the
envelopes that travel on the message bus.

The Go types live in the `dago-libs` module `pkg/domain`, which is not part of the
repository. Their fields here are exactly the fields the coordinator's code reads or writes.
The two helpers of `domain.Graph` that the coordinator calls, `GetNode` and
`GetOutgoingEdges`, are missing with it and are modelled from the spec.

Go maps are association lists. A decoded `map[string]interface{}` is a `JsonMap`, read with
`JsonMap.get`, which answers `Json.null` for a missing key as a Go map answers `nil`. The
node map of a graph carries the uniqueness of its keys as a field, so a `Graph` with two
nodes of one id cannot be built.
-/

namespace Dago

/-- Execution ids (`graphID` in the manager): the UUIDs minted at submission. -/
abbrev ExecId := String

/-- Node ids: the keys of `Graph.Nodes`. -/
abbrev NodeId := String

/-- A value as `encoding/json` decodes it into an `interface{}`: `nil`, a `bool`, a number, a
`string`, a `[]interface{}` or a `map[string]interface{}`. No code path reads a number, so
numbers are kept as integers. -/
inductive Json where
  | null
  | bool (b : Bool)
  | num (n : Int)
  | str (s : String)
  | arr (elems : List Json)
  | obj (fields : List (String × Json))
  deriving Repr, Inhabited

/-- The comma-ok assertion `v.(string)`: the string when `v` holds one. -/
def Json.asString : Json → Option String
  | .str s => some s
  | _ => none

/-- A decoded `map[string]interface{}`. -/
abbrev JsonMap := List (String × Json)

/-- The Go map read `m[key]`: `nil` when the key is absent. -/
def JsonMap.get (m : JsonMap) (key : String) : Json :=
  (m.lookup key).getD .null

/-- `domain.ExecutionStatus`, shared by graph records, node states and tracker entries. -/
inductive ExecutionStatus
  | pending
  | submitted
  | running
  | completed
  | failed
  | cancelled
  deriving DecidableEq, Repr

/-- The three statuses that `CancelExecution` treats as terminal. -/
def ExecutionStatus.isTerminal : ExecutionStatus → Bool
  | .completed | .failed | .cancelled => true
  | _ => false

/-- Modelled from the spec: the string values of `domain.ExecutionStatus`, which live in the
missing `dago-libs`; the API documentation shows them in lower case. -/
def ExecutionStatus.toString : ExecutionStatus → String
  | .pending => "pending"
  | .submitted => "submitted"
  | .running => "running"
  | .completed => "completed"
  | .failed => "failed"
  | .cancelled => "cancelled"

/-- `graph.NodeType`: the variant of a node, which alone chooses its dispatch topic. -/
inductive NodeType
  | start
  | executor
  | router
  | «end»
  deriving DecidableEq, Repr

/-- A node as the coordinator sees it through the `graph.Node` interface: what `GetType()`
returns, and what its own `Validate()` hook returns (`none` for a nil error). The per-variant
configuration behind the interface is opaque to the coordinator. -/
structure Node where
  getType : NodeType
  validate : Option String
  deriving DecidableEq, Repr

/-- A directed edge `From → To` of `domain.Graph.Edges`. -/
structure Edge where
  «from» : NodeId
  «to» : NodeId
  deriving DecidableEq, Repr

/-- `domain.Graph`. A `none` in `nodes` is a nil `graph.Node` stored under its id; the keys
of `nodes` are distinct, as the keys of a Go map are. -/
structure Graph where
  id : String
  version : String
  nodes : List (NodeId × Option Node)
  nodes_nodup : (nodes.map Prod.fst).Nodup
  edges : List Edge
  entryNode : NodeId

/-- Modelled from the spec: `Graph.GetNode(id)` of the missing `dago-libs`, the lookup
`Graph.Nodes[id]`, which is nil for a missing key and for a nil node. -/
def Graph.getNode (g : Graph) (nodeID : NodeId) : Option Node :=
  match g.nodes.lookup nodeID with
  | some (some node) => some node
  | _ => none

/-- Modelled from the spec: `Graph.GetOutgoingEdges(id)` of the missing `dago-libs`, the
edges whose `From` is `id`, in `Edges` order. -/
def Graph.getOutgoingEdges (g : Graph) (nodeID : NodeId) : List Edge :=
  g.edges.filter (·.«from» = nodeID)

/-- `domain.NodeState`: the per-node part of an execution record. -/
structure NodeState where
  nodeID : NodeId
  status : ExecutionStatus
  startedAt : Option ℕ
  completedAt : Option ℕ
  output : Json
  error : String

/-- The node state that `SubmitGraph` creates for every node: `Pending`, nothing else set. -/
def NodeState.pending (nodeID : NodeId) : NodeState :=
  { nodeID, status := .pending, startedAt := none, completedAt := none, output := .null,
    error := "" }

/-- `domain.GraphState`: the execution record the store holds under its `GraphID`. -/
structure GraphState where
  graphID : ExecId
  graph : Graph
  status : ExecutionStatus
  inputs : JsonMap
  nodeStates : List (NodeId × NodeState)
  submittedAt : ℕ
  completedAt : Option ℕ
  error : String

/-- The in-place update `state.NodeStates[nodeID].Field = …` of the node state stored under
`nodeID`. -/
def GraphState.updateNode (s : GraphState) (nodeID : NodeId) (f : NodeState → NodeState) :
    GraphState :=
  { s with nodeStates := s.nodeStates.map fun p => if p.1 = nodeID then (p.1, f p.2) else p }

/-- `nodeState.Status = Running; nodeState.StartedAt = &now` on the node state of `nodeID`. -/
def GraphState.markRunning (s : GraphState) (nodeID : NodeId) (now : ℕ) : GraphState :=
  s.updateNode nodeID fun ns => { ns with status := .running, startedAt := some now }

/-- The event types of `domain.EventType`, and the literal `"node.work"` of work envelopes. -/
inductive EventType
  | graphSubmitted
  | graphCompleted
  | graphFailed
  | graphCancelled
  | nodeStarted
  | nodeCompleted
  | nodeFailed
  | nodeWork
  deriving DecidableEq, Repr

/-- The `data` of an outgoing envelope: the work payload of `publishNodeWork`, or a plain map
of fields for the informational events. -/
inductive EventData where
  | work (nodeID : NodeId) (nodeType : NodeType) (graphID : ExecId) (state : JsonMap)
      (nodeState : List (NodeId × NodeState))
  | fields (data : JsonMap)

/-- An outgoing `ports.Event`. Its `ID` and `Timestamp` are fresh values no reader compares. -/
structure Event where
  eventType : EventType
  executionID : ExecId
  data : EventData

/-- One `Publish(topic, event)` on the bus. -/
structure Publication where
  topic : String
  event : Event

/-- An incoming envelope as a subscriber receives it after decoding: its `ExecutionID` and
its `Data`. -/
structure Envelope where
  executionID : ExecId
  data : JsonMap

/-- `TopicExecutorWork`. -/
def topicExecutorWork : String := "executor.work"

/-- `TopicRouterWork`. -/
def topicRouterWork : String := "router.work"

/-- `TopicNodeCompleted`. -/
def topicNodeCompleted : String := "node.completed"

/-- `TopicGraphEvents`. -/
def topicGraphEvents : String := "graph.events"

/-- Whether a publication is a work envelope, on `executor.work` or `router.work`. -/
def Publication.isWork (p : Publication) : Bool :=
  p.topic = topicExecutorWork || p.topic = topicRouterWork

/-- Whether a publication announces a terminal transition on `graph.events`. -/
def Publication.isTerminal (p : Publication) : Bool :=
  p.topic = topicGraphEvents &&
    (p.event.eventType = .graphCompleted || p.event.eventType = .graphFailed ||
      p.event.eventType = .graphCancelled)

/-! ### The nodes of a graph -/

/-- A key is bound in an association list exactly when it is among its keys. -/
theorem lookup_isSome_iff_mem_keys {β : Type} (l : List (String × β)) (k : String) :
    (l.lookup k).isSome ↔ k ∈ l.map Prod.fst := by
  induction l with
  | nil => simp
  | cons p l ih =>
    obtain ⟨a, b⟩ := p
    by_cases h : k = a
    · subst h; simp
    · have hb : (k == a) = false := by simpa using h
      simp [List.lookup_cons, hb, ih, h]

theorem lookup_isNone_iff_not_mem_keys {β : Type} (l : List (String × β)) (k : String) :
    (l.lookup k).isNone ↔ k ∉ l.map Prod.fst := by
  rw [← lookup_isSome_iff_mem_keys, Option.isNone_iff_eq_none, Option.not_isSome_iff_eq_none]

/-- A key bound in `Nodes` is bound to a member of it. -/
theorem Graph.mem_nodes_of_lookup {g : Graph} {nodeID : NodeId} {node : Option Node}
    (h : g.nodes.lookup nodeID = some node) : (nodeID, node) ∈ g.nodes := by
  obtain ⟨l₁, l₂, hl, -⟩ := List.lookup_eq_some_iff.mp h
  simp [hl]

theorem Graph.mem_nodes_of_getNode {g : Graph} {nodeID : NodeId} {node : Node}
    (h : g.getNode nodeID = some node) : (nodeID, some node) ∈ g.nodes := by
  unfold Graph.getNode at h
  split at h
  · cases h
    exact Graph.mem_nodes_of_lookup ‹_›
  · cases h

/-! ### Node-state updates -/

section updateNode

variable (s : GraphState) (nodeID : NodeId) (f : NodeState → NodeState)

@[simp] theorem GraphState.updateNode_graphID : (s.updateNode nodeID f).graphID = s.graphID :=
  rfl

@[simp] theorem GraphState.updateNode_graph : (s.updateNode nodeID f).graph = s.graph := rfl

@[simp] theorem GraphState.updateNode_status : (s.updateNode nodeID f).status = s.status := rfl

@[simp] theorem GraphState.updateNode_inputs : (s.updateNode nodeID f).inputs = s.inputs := rfl

@[simp] theorem GraphState.updateNode_completedAt :
    (s.updateNode nodeID f).completedAt = s.completedAt := rfl

@[simp] theorem GraphState.updateNode_error : (s.updateNode nodeID f).error = s.error := rfl

/-- An update keeps the keys of the node states, in order. -/
@[simp] theorem GraphState.updateNode_keys :
    (s.updateNode nodeID f).nodeStates.map Prod.fst = s.nodeStates.map Prod.fst := by
  simp only [GraphState.updateNode, List.map_map]
  congr 1
  funext p
  by_cases h : p.1 = nodeID <;> simp [h]

/-- The updated node reads back as `f` of what it held. -/
theorem GraphState.lookup_updateNode_self :
    (s.updateNode nodeID f).nodeStates.lookup nodeID = (s.nodeStates.lookup nodeID).map f := by
  simp only [GraphState.updateNode]
  induction s.nodeStates with
  | nil => rfl
  | cons p ps ih =>
    obtain ⟨k, v⟩ := p
    by_cases h : k = nodeID
    · subst h; simp
    · have hb : (nodeID == k) = false := by simpa using Ne.symm h
      simp [h, List.lookup_cons, hb, ih]

/-- Every other node reads back unchanged. -/
theorem GraphState.lookup_updateNode_ne {other : NodeId} (h : other ≠ nodeID) :
    (s.updateNode nodeID f).nodeStates.lookup other = s.nodeStates.lookup other := by
  simp only [GraphState.updateNode]
  induction s.nodeStates with
  | nil => rfl
  | cons p ps ih =>
    obtain ⟨k, v⟩ := p
    by_cases hk : k = nodeID
    · subst hk
      have hb : (other == k) = false := by simpa using h
      simp [List.lookup_cons, hb, ih]
    · by_cases ho : other = k
      · subst ho; simp [hk]
      · have hb : (other == k) = false := by simpa using ho
        simp [hk, List.lookup_cons, hb, ih]

end updateNode

end Dago
