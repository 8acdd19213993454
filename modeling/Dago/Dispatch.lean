import Dago.Coverage

/-!
# Dispatch

What `completeGraph` and `publishNodeWork` do when the store and the bus succeed.
`completeGraph_run` and `publishWorkEvent_run` give the world each leaves. The recursion of
`publishNodeWork` is described by `Dispatches`, the dispatch table of the specification as a
relation, whose derivations are finite: an executor or a router is marked `Running` and gets
its work envelope, an end node completes the graph, a start node passes on to its
first-edge successor, and an id that names no node does nothing.

The fuel of the model is scaffolding: `publishNodeWork_sound` and `publishNodeWork_complete`
show that the fuelled recursion returns exactly the worlds that `Dispatches` relates, so a
dispatch returns if and only if it has a derivation.

That is where the start nodes bite. The validator admits every cycle, and on a start node
whose first edge leads back to itself no derivation exists: `publishNodeWork` runs out of
every fuel (`publishNodeWork_start_self_loop`), whatever the store and the bus answer, and
`SubmitGraph` of such a graph never returns (`submitGraph_start_self_loop`).

## Main results

* `publishNodeWork_sound`, `publishNodeWork_complete`: fuelled dispatch and `Dispatches`
  agree.
* `submitGraph_start_self_loop`: an admissible graph whose entry is a start node with a
  self-loop makes `SubmitGraph` recurse forever.
-/

namespace Dago

namespace Sys

/-- The tracker entry of `graphID` removed. -/
def dropExecution (w : Sys) (graphID : ExecId) : Sys :=
  { w with executions := fun k => if k = graphID then none else w.executions k }

@[simp] theorem dropExecution_store (w : Sys) (id : ExecId) :
    (w.dropExecution id).store = w.store :=
  rfl
@[simp] theorem dropExecution_bus (w : Sys) (id : ExecId) : (w.dropExecution id).bus = w.bus := rfl
@[simp] theorem dropExecution_clock (w : Sys) (id : ExecId) :
    (w.dropExecution id).clock = w.clock :=
  rfl
@[simp] theorem dropExecution_faults (w : Sys) (id : ExecId) :
    (w.dropExecution id).faults = w.faults := rfl

/-- Removing an entry that is not there changes nothing. -/
theorem dropExecution_of_none {w : Sys} {id : ExecId} (h : w.executions id = none) :
    w.dropExecution id = w := by
  cases w
  simp only [dropExecution, mk.injEq, and_true, true_and]
  funext k
  by_cases hk : k = id <;> simp_all

end Sys

namespace Manager

/-- The terminal record that `completeGraph` saves at time `now`. -/
def completedState (state : GraphState) (status : ExecutionStatus) (errorMsg : String)
    (now : ℕ) : GraphState :=
  { state with status, completedAt := some now,
               error := if errorMsg ≠ "" then errorMsg else state.error }

/-- The event that `completeGraph` publishes on `graph.events`. -/
def completionEvent (graphID : ExecId) (status : ExecutionStatus) (errorMsg : String) : Event :=
  ⟨if status = .failed then .graphFailed else .graphCompleted, graphID,
    .fields (if errorMsg ≠ "" then [("error", .str errorMsg)] else [])⟩

/-- The world that `completeGraph` leaves when the store and the bus succeed. -/
def completeEffect (w : Sys) (graphID : ExecId) (state : GraphState) (status : ExecutionStatus)
    (errorMsg : String) : Sys :=
  ((w.save (completedState state status errorMsg w.clock)).dropExecution graphID).emit
    topicGraphEvents (completionEvent graphID status errorMsg)

@[simp] theorem completeEffect_clock (w : Sys) (graphID : ExecId) (state : GraphState)
    (status : ExecutionStatus) (errorMsg : String) :
    (completeEffect w graphID state status errorMsg).clock = w.clock := rfl

@[simp] theorem completeEffect_faults (w : Sys) (graphID : ExecId) (state : GraphState)
    (status : ExecutionStatus) (errorMsg : String) :
    (completeEffect w graphID state status errorMsg).faults = w.faults := rfl

theorem completeGraph_run {w : Sys} (hw : w.faults = []) (graphID : ExecId) (state : GraphState)
    (status : ExecutionStatus) (errorMsg : String) :
    (completeGraph graphID state status errorMsg).run w =
      .ok ((), completeEffect w graphID state status errorMsg) := by
  simp only [completeGraph, publishGraphEvent, Prog.bind_assoc, Time.now_bind,
    Storage.saveState_bind, Executions.load_bind, Executions.update_bind, Executions.delete_bind,
    Prog.pure_bind, Prog.pure_eq, EventBus.publish_bind, Prog.run, Sys.saveState_of_faults_nil hw,
    Prog.bind]
  rw [completeEffect, ← completedState, ← completionEvent]
  cases h : w.executions graphID
  · simp [Sys.dropExecution_of_none (w := w.save _) h, h, Prog.run, Sys.publish_of_faults_nil, hw]
  · simp only [Sys.save_executions, h, Prog.run]
    rw [Sys.publish_of_faults_nil (by simpa using hw)]
    simp only [Sys.dropExecution, Except.ok.injEq, Prod.mk.injEq, true_and]
    congr 2
    funext k
    by_cases hk : k = graphID <;> simp [hk]

/-- The work envelope of a node. -/
def workEvent (graphID : ExecId) (nodeID : NodeId) (node : Node) (state : GraphState) : Event :=
  ⟨.nodeWork, graphID, .work nodeID node.getType graphID state.inputs state.nodeStates⟩

/-- The informational event that follows a work envelope. -/
def nodeStartedEvent (graphID : ExecId) (nodeID : NodeId) : Event :=
  ⟨.nodeStarted, graphID, .fields [("node_id", .str nodeID)]⟩

theorem publishWorkEvent_run {w : Sys} (hw : w.faults = []) (topic : String) (graphID : ExecId)
    (nodeID : NodeId) (node : Node) (state : GraphState) :
    (publishWorkEvent topic graphID nodeID node state).run w =
      .ok (none, ((w.emit topic (workEvent graphID nodeID node state)).emit topicGraphEvents
        (nodeStartedEvent graphID nodeID))) := by
  simp [publishWorkEvent, publishGraphEvent, Prog.run, Sys.publish_of_faults_nil, hw, workEvent,
    nodeStartedEvent]

/-! ### The dispatch table -/

/-- The topic of a node type's work envelopes: executors and routers only. -/
def workTopic : NodeType → Option String
  | .executor => some topicExecutorWork
  | .router => some topicRouterWork
  | _ => none

/-- The dispatch table of the specification, as a relation: `Dispatches graphID nodeID s w w'`
when dispatching `nodeID` from the local record `s` takes the world `w` to `w'`, the store and
the bus succeeding. A dispatched node is first marked `Running` (at the clock's time) and
saved. -/
inductive Dispatches (graphID : ExecId) : NodeId → GraphState → Sys → Sys → Prop
  /-- An id that names no node: nothing happens. -/
  | notFound {nodeID : NodeId} {s : GraphState} {w : Sys} :
      s.graph.getNode nodeID = none → Dispatches graphID nodeID s w w
  /-- An executor or a router: its work envelope goes out on its topic, then `NodeStarted`. -/
  | work {nodeID : NodeId} {s : GraphState} {w : Sys} {node : Node} {topic : String} :
      s.graph.getNode nodeID = some node → (s.nodeStates.lookup nodeID).isSome →
      workTopic node.getType = some topic →
      Dispatches graphID nodeID s w
        (((w.save (s.markRunning nodeID w.clock)).emit topic
          (workEvent graphID nodeID node (s.markRunning nodeID w.clock))).emit topicGraphEvents
          (nodeStartedEvent graphID nodeID))
  /-- An end node: the graph completes. -/
  | finish {nodeID : NodeId} {s : GraphState} {w : Sys} {node : Node} :
      s.graph.getNode nodeID = some node → (s.nodeStates.lookup nodeID).isSome →
      node.getType = .«end» →
      Dispatches graphID nodeID s w
        (completeEffect (w.save (s.markRunning nodeID w.clock)) graphID
          (s.markRunning nodeID w.clock) .completed "")
  /-- A start node with no outgoing edge: nothing more. -/
  | stop {nodeID : NodeId} {s : GraphState} {w : Sys} {node : Node} :
      s.graph.getNode nodeID = some node → (s.nodeStates.lookup nodeID).isSome →
      node.getType = .start → findNextNode s.graph nodeID = "" →
      Dispatches graphID nodeID s w (w.save (s.markRunning nodeID w.clock))
  /-- A start node with a first-edge successor: the successor is dispatched. -/
  | next {nodeID : NodeId} {s : GraphState} {w w' : Sys} {node : Node} :
      s.graph.getNode nodeID = some node → (s.nodeStates.lookup nodeID).isSome →
      node.getType = .start → findNextNode s.graph nodeID ≠ "" →
      Dispatches graphID (findNextNode s.graph nodeID) (s.markRunning nodeID w.clock)
        (w.save (s.markRunning nodeID w.clock)) w' →
      Dispatches graphID nodeID s w w'

@[simp] theorem markRunning_graph (s : GraphState) (nodeID : NodeId) (now : ℕ) :
    (s.markRunning nodeID now).graph = s.graph := rfl

/-- **Soundness.** A dispatch that returns, the store and the bus succeeding, is a
derivation of the dispatch table. -/
theorem publishNodeWork_sound {graphID : ExecId} :
    ∀ {fuel : ℕ} {nodeID : NodeId} {s : GraphState} {w w' : Sys} {r : Option String},
      w.faults = [] → (publishNodeWork fuel graphID nodeID s).run w = .ok (r, w') →
      Dispatches graphID nodeID s w w'
  | 0, _, _, _, _, _, _, h => by cases h
  | fuel + 1, nodeID, s, w, w', r, hw, h => by
    cases hn : s.graph.getNode nodeID with
    | none =>
      simp only [publishNodeWork, hn, Prog.pure_eq, Prog.run, Except.ok.injEq,
        Prod.mk.injEq] at h
      exact h.2 ▸ .notFound hn
    | some node =>
      cases hns : s.nodeStates.lookup nodeID with
      | none => simp [publishNodeWork, hn, hns, Prog.run] at h
      | some ns =>
        have hsome : (s.nodeStates.lookup nodeID).isSome := by simp [hns]
        have hw' : (w.save (s.markRunning nodeID w.clock)).faults = [] := hw
        simp only [publishNodeWork, hn, hns, Time.now_bind, Storage.saveState_bind, Prog.run,
          Sys.saveState_of_faults_nil hw] at h
        split at h
        -- an executor and a router: the work goes out
        iterate 2
          rw [publishWorkEvent_run hw'] at h
          simp only [Except.ok.injEq, Prod.mk.injEq] at h
          exact h.2 ▸ .work hn hsome (by simp [*, workTopic])
        · rw [Prog.run_bind, completeGraph_run hw'] at h
          simp only [Except.bind, Prog.pure_eq, Prog.run, Except.ok.injEq, Prod.mk.injEq] at h
          exact h.2 ▸ .finish hn hsome ‹_›
        · split at h
          · exact .next hn hsome ‹_› ‹_› (publishNodeWork_sound hw' h)
          · rename_i hnext
            simp only [Prog.pure_eq, Prog.run, Except.ok.injEq, Prod.mk.injEq] at h
            exact h.2 ▸ .stop hn hsome ‹_› (by simpa using hnext)

/-- **Completeness.** Every derivation of the dispatch table is a run of `publishNodeWork`
for enough fuel. -/
theorem publishNodeWork_complete {graphID : ExecId} {nodeID : NodeId} {s : GraphState}
    {w w' : Sys} (hd : Dispatches graphID nodeID s w w') (hw : w.faults = []) :
    ∃ fuel r, (publishNodeWork fuel graphID nodeID s).run w = .ok (r, w') := by
  induction hd with
  | @notFound nodeID s w hn =>
    exact ⟨1, some ("node not found: " ++ nodeID), by simp [publishNodeWork, hn, Prog.run]⟩
  | @work nodeID s w node topic hn hsome htopic =>
    obtain ⟨ns, hns⟩ := Option.isSome_iff_exists.mp hsome
    refine ⟨1, none, ?_⟩
    simp only [publishNodeWork, hn, hns, Time.now_bind, Storage.saveState_bind, Prog.run,
      Sys.saveState_of_faults_nil hw]
    cases hty : node.getType <;>
      simp only [hty, workTopic, reduceCtorEq, Option.some.injEq] at htopic
    all_goals subst htopic; exact publishWorkEvent_run (w := w.save _) hw ..
  | @finish nodeID s w node hn hsome hty =>
    obtain ⟨ns, hns⟩ := Option.isSome_iff_exists.mp hsome
    refine ⟨1, none, ?_⟩
    simp only [publishNodeWork, hn, hns, Time.now_bind, Storage.saveState_bind, Prog.run,
      Sys.saveState_of_faults_nil hw]
    simp only [hty]
    rw [Prog.run_bind, completeGraph_run (w := w.save _) hw]
    rfl
  | @stop nodeID s w node hn hsome hty hnext =>
    obtain ⟨ns, hns⟩ := Option.isSome_iff_exists.mp hsome
    exact ⟨1, none, by simp [publishNodeWork, hn, hns, hty, hnext, Prog.run,
      Sys.saveState_of_faults_nil hw]⟩
  | @next nodeID s w w' node hn hsome hty hnext _ ih =>
    obtain ⟨ns, hns⟩ := Option.isSome_iff_exists.mp hsome
    obtain ⟨fuel, r, hrun⟩ := ih hw
    exact ⟨fuel + 1, r, by simpa [publishNodeWork, hn, hns, hty, hnext, Prog.run,
      Sys.saveState_of_faults_nil hw] using hrun⟩

/-! ### A start node that is its own first successor -/

/-- The failing input: one start node whose only edge leads back to it. -/
def startSelfLoop : Graph :=
  { id := "g", version := "1", nodes := [("A", some ⟨.start, none⟩)], nodes_nodup := by decide,
    edges := [⟨"A", "A"⟩], entryNode := "A" }

/-- On a record of that graph in which `A` has a node state, dispatching `A` runs out of every
fuel, whatever the store and the bus answer: the start node hands the dispatch back to
itself. -/
theorem publishNodeWork_start_self_loop (graphID : ExecId) :
    ∀ (fuel : ℕ) (s : GraphState) (w : Sys), s.graph = startSelfLoop →
      (s.nodeStates.lookup "A").isSome →
      (publishNodeWork fuel graphID "A" s).run w = .error .outOfFuel
  | 0, _, _, _, _ => rfl
  | fuel + 1, s, w, hg, hA => by
    obtain ⟨ns, hns⟩ := Option.isSome_iff_exists.mp hA
    have hn : s.graph.getNode "A" = some ⟨.start, none⟩ := by rw [hg]; rfl
    have hnext : findNextNode s.graph "A" = "A" := by rw [hg]; rfl
    simp only [publishNodeWork, hn, hns, Time.now_bind, Storage.saveState_bind, Prog.run,
      markRunning_graph, hnext]
    exact publishNodeWork_start_self_loop graphID fuel _ _ hg
      (by simpa [GraphState.markRunning, GraphState.lookup_updateNode_self] using hA)

/-- **A start node with a self-loop makes `SubmitGraph` diverge.** The validator admits the
graph, and with the store and the bus succeeding, `SubmitGraph` does not return for any fuel:
its dispatch of the entry node recurses without end. -/
theorem submitGraph_start_self_loop (fuel : ℕ) (graphID : ExecId) (inputs : JsonMap) (w : Sys) :
    Validator.validate (some startSelfLoop) = none ∧
    (submitGraph fuel graphID startSelfLoop inputs).run { w with faults := [] } =
      .error .outOfFuel := by
  refine ⟨by decide, ?_⟩
  have hv : Validator.validate (some startSelfLoop) = none := by decide
  simp only [submitGraph, hv, publishGraphEvent, Time.now_bind, Storage.saveState_bind,
    EventBus.publish_bind, Executions.store_bind, Prog.bind_assoc, Prog.bind, Prog.run,
    Sys.saveState_of_faults_nil, Sys.publish_of_faults_nil, Sys.save_faults, Sys.emit_faults]
  rw [Prog.run_bind, show startSelfLoop.entryNode = "A" from rfl,
    publishNodeWork_start_self_loop graphID fuel _ _ rfl (by rfl)]
  rfl

end Manager

end Dago
