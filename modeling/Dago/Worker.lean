import Dago.Program

/-!
# The Worker Pool

`worker.handleNodeExecution` of `internal/application/workers/pool.go`, the handler each
worker runs for an event of `node.events`. It shares the store with the manager: it loads
the execution record, marks the node `Running` and saves, runs the node, and saves the node's
outcome. The outcome of `executeGenericNode` (the LLM call) is an argument, since nothing in
the repository decides it.

The worker publishes its own events on `node.events` through `publishEvent`, which drops the
node id when it converts the `domain.Event` to a `ports.Event`; a bus error is only logged.
-/

namespace Dago

namespace Worker

/-- The topic the workers subscribe and publish to. -/
def topicNodeEvents : String := "node.events"

/-- `worker.publishEvent`. -/
def publishEvent (graphID : ExecId) (eventType : EventType) (data : JsonMap) : Prog Unit := do
  let _ ← EventBus.publish topicNodeEvents ⟨eventType, graphID, .fields data⟩

/-- `worker.handleNodeExecution`, where `result` is what `executeGenericNode` returns. -/
def handleNodeExecution (event : Envelope) (result : Except String Json) : Prog Unit := do
  let graphID := event.executionID
  match (event.data.get "node_id").asString with
  | none => pure ()
  | some nodeID =>
    match ← Storage.getState graphID with
    | .error _ => pure ()
    | .ok state =>
      match state.graph.nodes.lookup nodeID with
      | none => pure ()
      | some _ =>
        match state.nodeStates.lookup nodeID with
        | none => .halt .nilDereference
        | some _ =>
          let now ← Time.now
          let state := state.markRunning nodeID now
          match ← Storage.saveState state with
          | some _ => pure ()
          | none =>
            publishEvent graphID .nodeStarted []
            let completedAt ← Time.now
            let state := state.updateNode nodeID fun ns =>
              match result with
              | .error err =>
                { ns with status := .failed, error := err, completedAt := some completedAt }
              | .ok out =>
                { ns with status := .completed, output := out, completedAt := some completedAt }
            match result with
            | .error err => publishEvent graphID .nodeFailed [("error", .str err)]
            | .ok out => publishEvent graphID .nodeCompleted [("output", out)]
            let _ ← Storage.saveState state

end Worker

end Dago
