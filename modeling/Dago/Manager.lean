import Dago.Program
import Dago.Validator

/-!
# The Execution Manager

`Manager` of `internal/application/orchestrator/manager.go`, one definition per method, each
a `Prog` that makes the method's store, bus and tracker calls in the order the Go code makes
them. Logging and metrics have no effect on the world and are left out; an error that the
code only logs is bound to `_`.

Two things of the Go code need a representation:

* `publishNodeWork` calls itself through start nodes with no bound. It takes a fuel argument
  that only that recursive call spends; `Halt.outOfFuel` is a recursion that has not
  returned within the fuel, and a recursion that returns for no fuel is one that diverges.
* The `*GraphState` that the handlers pass down is a pointer to a local copy (the Redis store
  returns a fresh copy on every load): its mutations reach the store only through
  `SaveState`, so the model passes the record by value.

`SubmitGraph` takes the id it mints as an argument; the system steps of `Dago.System` only
let it mint an id that no record and no tracker entry uses.
-/

namespace Dago

namespace Manager

/-- `findNextNode`: the `To` of the first outgoing edge of the node in `Edges` order, or the
empty id when it has none. -/
def findNextNode (g : Graph) (currentNodeID : NodeId) : NodeId :=
  match g.getOutgoingEdges currentNodeID with
  | [] => ""
  | e :: _ => e.«to»

/-- `publishGraphEvent`: an informational event on `graph.events`, whose bus error is
returned. -/
def publishGraphEvent (graphID : ExecId) (eventType : EventType) (data : JsonMap) :
    Prog (Option String) :=
  EventBus.publish topicGraphEvents ⟨eventType, graphID, .fields data⟩

/-- `completeGraph`: the record takes the terminal `status`, its completion time and, when
`errorMsg` is non-empty, that error; it is saved, the tracker entry (if any) is cancelled and
removed, and `GraphFailed` or `GraphCompleted` is published. -/
def completeGraph (graphID : ExecId) (state : GraphState) (status : ExecutionStatus)
    (errorMsg : String) : Prog Unit := do
  let now ← Time.now
  let state := { state with status, completedAt := some now,
                            error := if errorMsg ≠ "" then errorMsg else state.error }
  let _ ← Storage.saveState state
  match ← Executions.load graphID with
  | some _ =>
    Executions.update graphID fun e => { e with ctx := e.ctx.cancel }
    Executions.delete graphID
  | none => pure ()
  let eventType := if status = .failed then EventType.graphFailed else EventType.graphCompleted
  let data : JsonMap := if errorMsg ≠ "" then [("error", .str errorMsg)] else []
  let _ ← publishGraphEvent graphID eventType data

/-- The tail of `publishNodeWork` that executors and routers share: the work envelope on
`topic`, then, once it is out, the informational `NodeStarted`. -/
def publishWorkEvent (topic : String) (graphID : ExecId) (nodeID : NodeId) (node : Node)
    (state : GraphState) : Prog (Option String) := do
  let event : Event :=
    ⟨.nodeWork, graphID, .work nodeID node.getType graphID state.inputs state.nodeStates⟩
  match ← EventBus.publish topic event with
  | some err => pure (some ("failed to publish work event: " ++ err))
  | none =>
    let _ ← publishGraphEvent graphID .nodeStarted [("node_id", .str nodeID)]
    pure none

/-- `publishNodeWork`: the node is marked `Running` and saved; an executor or a router gets
a work envelope on its topic, an end node completes the graph, and a start node passes on
to the first-edge successor chosen by `findNextNode`, if it has one. -/
def publishNodeWork : ℕ → ExecId → NodeId → GraphState → Prog (Option String)
  | 0, _, _, _ => .halt .outOfFuel
  | fuel + 1, graphID, nodeID, state =>
    match state.graph.getNode nodeID with
    | none => pure (some ("node not found: " ++ nodeID))
    | some node =>
      match state.nodeStates.lookup nodeID with
      | none => .halt .nilDereference
      | some _ => do
        let now ← Time.now
        let state := state.markRunning nodeID now
        let _ ← Storage.saveState state
        match node.getType with
        | .executor => publishWorkEvent topicExecutorWork graphID nodeID node state
        | .router => publishWorkEvent topicRouterWork graphID nodeID node state
        | .«end» =>
          completeGraph graphID state .completed ""
          pure none
        | .start =>
          let nextNode := findNextNode state.graph nodeID
          if nextNode ≠ "" then publishNodeWork fuel graphID nextNode state else pure none

/-- The initial record of a submission: `Running`, every node `Pending`. -/
def initialState (graphID : ExecId) (g : Graph) (inputs : JsonMap) (now : ℕ) : GraphState :=
  { graphID, graph := g, status := .running, inputs,
    nodeStates := g.nodes.map fun p => (p.1, NodeState.pending p.1), submittedAt := now,
    completedAt := none, error := "" }

/-- `SubmitGraph(g, inputs)`, minting `graphID`: validate, save the initial record, publish
`GraphSubmitted`, register the tracker entry with its deadline, and dispatch the entry node.
A failed dispatch is only logged: the id is returned all the same. -/
def submitGraph (fuel : ℕ) (graphID : ExecId) (g : Graph) (inputs : JsonMap) :
    Prog (ExecId × Option String) := do
  match Validator.validate (some g) with
  | some err => pure ("", some ("validation failed: " ++ err))
  | none =>
    let now ← Time.now
    let state := initialState graphID g inputs now
    match ← Storage.saveState state with
    | some err => pure ("", some ("failed to save state: " ++ err))
    | none =>
      match ← publishGraphEvent graphID .graphSubmitted [("original_graph_id", .str g.id)] with
      | some err => pure ("", some err)
      | none =>
        let startedAt ← Time.now
        Executions.store graphID ⟨graphID, .running, startedAt, .active⟩
        let _ ← publishNodeWork fuel graphID g.entryNode state
        pure (graphID, none)

/-- The reads `handleNodeCompleted` makes of a completion envelope's `data`: `node_id`,
`output`, `error` (present only when it holds a string) and `next_node`. -/
structure Completion where
  nodeID : NodeId
  output : Json
  errorMsg : Option String
  nextNodeID : NodeId

/-- The type assertions at the top of `handleNodeCompleted`. -/
def Completion.ofEnvelope (event : Envelope) : Completion :=
  { nodeID := (event.data.get "node_id").asString.getD "",
    output := event.data.get "output",
    errorMsg := (event.data.get "error").asString,
    nextNodeID := (event.data.get "next_node").asString.getD "" }

/-- The node-state update of a completion: completion time, then `Failed` with the error or
`Completed` with the output. -/
def Completion.apply (c : Completion) (now : ℕ) (ns : NodeState) : NodeState :=
  match c.errorMsg with
  | some msg => { ns with completedAt := some now, status := .failed, error := msg }
  | none => { ns with completedAt := some now, status := .completed, output := c.output }

/-- The successor of a successful completion: the router's `next_node` when it is non-empty,
otherwise the first-edge successor. -/
def Completion.nextNode (c : Completion) (g : Graph) : NodeId :=
  if c.nextNodeID ≠ "" then c.nextNodeID else findNextNode g c.nodeID

/-- `handleNodeCompleted`: load the record, update the completed node and save, then fail
the graph on an error, complete it when there is no successor, or dispatch the successor.
Every failure is logged and dropped, so the handler always returns a nil error. -/
def handleNodeCompleted (fuel : ℕ) (event : Envelope) : Prog (Option String) := do
  let graphID := event.executionID
  let c := Completion.ofEnvelope event
  match ← Storage.getState graphID with
  | .error _ => pure none
  | .ok state =>
    match state.nodeStates.lookup c.nodeID with
    | none => pure none
    | some _ =>
      let now ← Time.now
      let state := state.updateNode c.nodeID (c.apply now)
      let _ ← Storage.saveState state
      match c.errorMsg with
      | some msg =>
        completeGraph graphID state .failed msg
        pure none
      | none =>
        let nextNode := c.nextNode state.graph
        if nextNode = "" then
          completeGraph graphID state .completed ""
          pure none
        else
          let _ ← publishNodeWork fuel graphID nextNode state
          pure none

/-- `GetStatus`: a read-through to the store. -/
def getStatus (graphID : ExecId) : Prog (Except String GraphState) := do
  match ← Storage.getState graphID with
  | .error err => pure (.error ("failed to get state: " ++ err))
  | .ok state => pure (.ok state)

/-- `CancelExecution`: refused for an id with no tracker entry or a terminal tracker status;
otherwise the entry's context is cancelled and its status set to `Cancelled` first, and then
the record is loaded, marked `Cancelled` and saved, `GraphCancelled` is published and the
entry is removed. -/
def cancelExecution (graphID : ExecId) : Prog (Option String) := do
  match ← Executions.load graphID with
  | none => pure (some ("execution not found: " ++ graphID))
  | some execCtx =>
    if execCtx.status.isTerminal then
      pure (some ("execution already in terminal state: " ++ execCtx.status.toString))
    else
      Executions.update graphID fun e => { e with ctx := e.ctx.cancel, status := .cancelled }
      match ← Storage.getState graphID with
      | .error err => pure (some ("failed to get state: " ++ err))
      | .ok state =>
        let now ← Time.now
        let state := { state with status := .cancelled, completedAt := some now }
        match ← Storage.saveState state with
        | some err => pure (some ("failed to save state: " ++ err))
        | none =>
          let _ ← publishGraphEvent graphID .graphCancelled []
          Executions.delete graphID
          pure none

/-- `handleTimeout`: load the record and drive it to `Failed` with `execution timeout`. -/
def handleTimeout (graphID : ExecId) : Prog Unit := do
  match ← Storage.getState graphID with
  | .error _ => pure ()
  | .ok state => completeGraph graphID state .failed "execution timeout"

/-- `monitorExecution` at the moment the deadline of `graphID` passes. While the context is
still active it becomes `DeadlineExceeded` and `handleTimeout` runs; a context cancelled
before has already let the monitor return without effect. -/
def monitorExecution (graphID : ExecId) : Prog Unit := do
  match ← Executions.load graphID with
  | some e =>
    if e.ctx = .active then
      Executions.update graphID fun e => { e with ctx := .deadlineExceeded }
      handleTimeout graphID
    else pure ()
  | none => pure ()

/-- `Shutdown`: every tracker entry's context is cancelled; no record is touched. -/
def shutdown : Prog Unit :=
  .modifyExecutions (fun t k => (t k).map fun e => { e with ctx := e.ctx.cancel }) (.pure ())

end Manager

end Dago
