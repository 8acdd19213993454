import Dago.System

/-!
# Every Node Has a Node State

`SubmitGraph` gives the initial record one `NodeState` per key of `Graph.Nodes`, and no code
path adds or removes a key of `NodeStates` afterwards: the handlers only write fields of a
node state they have found, and of the record. So the two key sets agree in every stored
record, whatever the store and the bus answer (`Covered`).

Two places dereference a node state without checking it: `publishNodeWork` once
`GetNode(nodeID)` has found the node, and `worker.handleNodeExecution` once
`Graph.Nodes[nodeID]` has found the key. A nil node state there panics the handler goroutine
and with it the process. Coverage makes both lookups succeed, for any `node_id` and any
`next_node` a worker sends.

## Main results

* `Prog.Keeps` lemmas for every function of the manager and of the worker, for any `Stable`
  property of records, `Covered` first among them.
* `nodeStates_cover_nodes`: in every reachable world each stored record's node states have
  exactly the keys of its graph's nodes, and no operation dereferences a missing node
  state.
-/

namespace Dago

/-- The node states of a record are keyed by the nodes of its graph, in the same order. -/
def Covered (s : GraphState) : Prop :=
  s.nodeStates.map Prod.fst = s.graph.nodes.map Prod.fst

namespace Covered

variable {s : GraphState}

theorem updateNode (h : Covered s) (nodeID : NodeId) (f : NodeState → NodeState) :
    Covered (s.updateNode nodeID f) := by
  simpa [Covered] using h

/-- Under coverage the two key sets agree. -/
theorem lookup_isSome_iff (h : Covered s) (k : NodeId) :
    (s.nodeStates.lookup k).isSome ↔ (s.graph.nodes.lookup k).isSome := by
  rw [lookup_isSome_iff_mem_keys, lookup_isSome_iff_mem_keys, h]

/-- Under coverage a key of the graph's nodes has a node state. -/
theorem exists_nodeState (h : Covered s) {k : NodeId} (hk : (s.graph.nodes.lookup k).isSome) :
    ∃ ns, s.nodeStates.lookup k = some ns :=
  Option.isSome_iff_exists.mp ((h.lookup_isSome_iff k).mpr hk)

/-- Under coverage a node that `GetNode` finds has a node state. -/
theorem exists_nodeState_of_getNode (h : Covered s) {k : NodeId} {node : Node}
    (hk : s.graph.getNode k = some node) : ∃ ns, s.nodeStates.lookup k = some ns := by
  refine h.exists_nodeState ?_
  unfold Graph.getNode at hk
  split at hk <;> simp_all

theorem lookup_isSome_of_getNode (h : Covered s) {k : NodeId} {node : Node}
    (hk : s.graph.getNode k = some node) : (s.nodeStates.lookup k).isSome :=
  Option.isSome_iff_exists.mpr (h.exists_nodeState_of_getNode hk)

end Covered

/-- The initial record of a submission covers its graph. -/
theorem covered_initialState (graphID : ExecId) (g : Graph) (inputs : JsonMap) (now : ℕ) :
    Covered (Manager.initialState graphID g inputs now) := by
  simp [Covered, Manager.initialState]

/-! ### Every function saves records of a stable property only -/

/-- A property of records that implies coverage and survives every write of the handlers
other than a submission's: a node-state update, and the move to a terminal status with a
completion time and an error. -/
structure Stable (P : GraphState → Prop) : Prop where
  covered {s : GraphState} : P s → Covered s
  updateNode {s : GraphState} (nodeID : NodeId) (f : NodeState → NodeState) :
    P s → P (s.updateNode nodeID f)
  ended {s : GraphState} {status : ExecutionStatus} (completedAt : Option ℕ) (error : String) :
    status.isTerminal → P s → P { s with status, completedAt, error }

theorem Covered.stable : Stable Covered :=
  ⟨id, fun _ _ h => h.updateNode _ _, fun _ _ _ h => h⟩

namespace Manager

open Prog

variable {P : GraphState → Prop}

theorem publishWorkEvent_keeps (topic : String) (graphID : ExecId) (nodeID : NodeId)
    (node : Node) (state : GraphState) :
    (publishWorkEvent topic graphID nodeID node state).Keeps P fun _ => True := by
  simp only [publishWorkEvent, publishGraphEvent, EventBus.publish_bind, bind_assoc]
  refine .publish fun r => ?_
  split <;> repeat' (first | intro _ | constructor)

variable (hP : Stable P)
include hP

theorem completeGraph_keeps {graphID : ExecId} {state : GraphState} {status : ExecutionStatus}
    {errorMsg : String} (hs : P state) (ht : status.isTerminal) :
    (completeGraph graphID state status errorMsg).Keeps P fun _ => True := by
  simp only [completeGraph, publishGraphEvent, bind_assoc, Time.now_bind, Storage.saveState_bind,
    Executions.load_bind, Executions.update_bind, Executions.delete_bind, pure_bind,
    EventBus.publish_bind]
  refine .now fun _ => .saveState (hP.ended _ _ ht hs) fun _ => .loadExecution fun r => ?_
  split <;> repeat' (first | intro _ | constructor)

theorem publishNodeWork_keeps (fuel : ℕ) (graphID : ExecId) :
    ∀ {nodeID : NodeId} {state : GraphState}, P state →
      (publishNodeWork fuel graphID nodeID state).Keeps P fun _ => True := by
  induction fuel with
  | zero => exact fun _ => .outOfFuel
  | succ fuel ih =>
    intro nodeID state hs
    simp only [publishNodeWork]
    cases hn : state.graph.getNode nodeID with
    | none => exact .pure trivial
    | some node =>
      obtain ⟨ns, hns⟩ := (hP.covered hs).exists_nodeState_of_getNode hn
      have hs' : ∀ now, P (state.markRunning nodeID now) := fun _ => hP.updateNode _ _ hs
      simp only [hns, Time.now_bind, Storage.saveState_bind]
      refine .now fun now => .saveState (hs' now) fun _ => ?_
      split
      · exact publishWorkEvent_keeps _ _ _ _ _
      · exact publishWorkEvent_keeps _ _ _ _ _
      · exact (completeGraph_keeps hP (hs' now) (by rfl)).bind fun _ _ => .pure trivial
      · split
        · exact ih (hs' now)
        · exact .pure trivial

theorem submitGraph_keeps (fuel : ℕ) (graphID : ExecId) (g : Graph) (inputs : JsonMap)
    (hinit : ∀ now, P (initialState graphID g inputs now)) :
    (submitGraph fuel graphID g inputs).Keeps P fun _ => True := by
  simp only [submitGraph, publishGraphEvent, Time.now_bind, Storage.saveState_bind,
    EventBus.publish_bind, Executions.store_bind, bind_assoc]
  split
  · exact .pure trivial
  refine .now fun now => .saveState (hinit now) fun r => ?_
  cases r
  · refine .publish fun r => ?_
    cases r
    · exact .now fun _ => .modifyExecutions <|
        (publishNodeWork_keeps hP _ _ (hinit now)).bind fun _ _ => .pure trivial
    · exact .pure trivial
  · exact .pure trivial

theorem handleNodeCompleted_keeps (fuel : ℕ) (event : Envelope) :
    (handleNodeCompleted fuel event).Keeps P fun _ => True := by
  simp only [handleNodeCompleted, Storage.getState_bind, Time.now_bind, Storage.saveState_bind,
    bind_assoc]
  refine .getState fun r hr => ?_
  rcases r with _ | state
  · exact .pure trivial
  dsimp only
  have hs : ∀ nodeID f, P (state.updateNode nodeID f) :=
    fun _ _ => hP.updateNode _ _ (hr state rfl)
  split
  · exact .pure trivial
  refine .now fun now => .saveState (hs _ _) fun _ => ?_
  split
  · exact (completeGraph_keeps hP (hs _ _) (by rfl)).bind fun _ _ => .pure trivial
  split
  · exact (completeGraph_keeps hP (hs _ _) (by rfl)).bind fun _ _ => .pure trivial
  · exact (publishNodeWork_keeps hP _ _ (hs _ _)).bind fun _ _ => .pure trivial

theorem cancelExecution_keeps (graphID : ExecId) :
    (cancelExecution graphID).Keeps P fun _ => True := by
  simp only [cancelExecution, publishGraphEvent, Executions.load_bind, Executions.update_bind,
    Storage.getState_bind, Time.now_bind, Storage.saveState_bind, EventBus.publish_bind,
    Executions.delete_bind, bind_assoc]
  refine .loadExecution fun e => ?_
  rcases e with _ | e
  · exact .pure trivial
  dsimp only
  split
  · exact .pure trivial
  refine .modifyExecutions <| .getState fun r hr => ?_
  rcases r with _ | state
  · exact .pure trivial
  dsimp only
  refine .now fun now => .saveState (hP.ended (some now) state.error rfl (hr state rfl)) fun r => ?_
  split <;> repeat' (first | intro _ | constructor)

theorem handleTimeout_keeps (graphID : ExecId) :
    (handleTimeout graphID).Keeps P fun _ => True := by
  simp only [handleTimeout, Storage.getState_bind]
  refine .getState fun r hr => ?_
  rcases r with _ | state
  · exact .pure trivial
  · exact completeGraph_keeps hP (hr state rfl) (by rfl)

theorem monitorExecution_keeps (graphID : ExecId) :
    (monitorExecution graphID).Keeps P fun _ => True := by
  simp only [monitorExecution, Executions.load_bind, Executions.update_bind]
  refine .loadExecution fun e => ?_
  rcases e with _ | e
  · exact .pure trivial
  dsimp only
  split
  · exact .modifyExecutions (handleTimeout_keeps hP _)
  · exact .pure trivial

end Manager

theorem Worker.handleNodeExecution_keeps {P : GraphState → Prop} (hP : Stable P)
    (event : Envelope) (result : Except String Json) :
    (Worker.handleNodeExecution event result).Keeps P fun _ => True := by
  simp only [Worker.handleNodeExecution, Worker.publishEvent, Storage.getState_bind,
    Time.now_bind, Storage.saveState_bind, EventBus.publish_bind, bind_assoc]
  split
  · exact .pure trivial
  refine .getState fun r hr => ?_
  rcases r with _ | state
  · exact .pure trivial
  dsimp only
  have hs := hr state rfl
  split
  · exact .pure trivial
  rename_i hnode
  obtain ⟨ns, hns⟩ :=
    (hP.covered hs).exists_nodeState (Option.isSome_iff_exists.mpr ⟨_, hnode⟩)
  simp only [hns]
  refine .now fun _ => .saveState (hP.updateNode _ _ hs) fun r => ?_
  cases r
  · refine .publish fun _ => .now fun _ => ?_
    cases result <;> exact .publish fun _ =>
      .saveState (hP.updateNode _ _ (hP.updateNode _ _ hs)) fun _ => .pure trivial
  · exact .pure trivial

/-- Every operation keeps a stable property, a submission provided its initial records have
it. -/
theorem Op.prog_keeps {P : GraphState → Prop} (hP : Stable P) (fuel : ℕ) (op : Op)
    (hinit : ∀ graphID g inputs, op = .submitGraph graphID g inputs →
      ∀ now, P (Manager.initialState graphID g inputs now)) :
    (op.prog fuel).Keeps P fun _ => True := by
  cases op with
  | submitGraph graphID g inputs =>
    exact (Manager.submitGraph_keeps hP _ _ _ _ (hinit _ _ _ rfl)).bind fun _ _ => .pure trivial
  | nodeCompleted =>
    exact (Manager.handleNodeCompleted_keeps hP ..).bind fun _ _ => .pure trivial
  | cancelExecution => exact (Manager.cancelExecution_keeps hP _).bind fun _ _ => .pure trivial
  | deadlineExceeded => exact Manager.monitorExecution_keeps hP _
  | nodeExecution => exact Worker.handleNodeExecution_keeps hP ..

/-! ### Coverage in every reachable world -/

/-- Every record stored in a reachable world covers its graph. -/
theorem storeInv_covered {env : Env} {w : Sys} (h : Reachable env w) : StoreInv Covered w := by
  refine Reachable.invariant (fun _ _ h => by cases h) ?_ h
  rintro w w' - hw ⟨op, fuel, clock, faults, -, -, hrun⟩
  exact ((Op.prog_keeps Covered.stable fuel op fun _ _ _ _ => covered_initialState _ _ _).run
    (w := { w with clock, faults }) hw hrun).1

/-- **Node-state coverage.** In every reachable world, under any pattern of store and bus
failures, the node states of every stored record have exactly the keys of its graph's nodes,
and no operation (a submission, any completion envelope, a cancellation, a deadline, or a
worker handling any event) dereferences a missing node state. -/
theorem nodeStates_cover_nodes {env : Env} {w : Sys} (h : Reachable env w) :
    (∀ k s, w.store k = some s →
      ∀ n, (s.nodeStates.lookup n).isSome ↔ (s.graph.nodes.lookup n).isSome) ∧
    ∀ (op : Op) (fuel clock : ℕ) (faults : List (Option String)),
      (op.prog fuel).run { w with clock, faults } ≠ .error .nilDereference :=
  ⟨fun k s hs => (storeInv_covered h k s hs).lookup_isSome_iff,
    fun op fuel clock faults =>
      Prog.Keeps.run_ne_nilDereference
        (Op.prog_keeps Covered.stable fuel op fun _ _ _ _ => covered_initialState _ _ _)
        (w := { w with clock, faults }) (storeInv_covered (w := w) h)⟩

/-- Once `x` of `linearGraph` is submitted, its record is stored, and it covers its graph. -/
theorem nodeStates_cover_nodes_submitted :
    ∃ w, replay .reliable 3 Sys.init [⟨.submitGraph "x" Manager.linearGraph [], 0, []⟩] =
        some w ∧ (w.store "x").isSome ∧
      (∀ k s, w.store k = some s →
        ∀ n, (s.nodeStates.lookup n).isSome ↔ (s.graph.nodes.lookup n).isSome) ∧
      ∀ (op : Op) (fuel clock : ℕ) (faults : List (Option String)),
        (op.prog fuel).run { w with clock, faults } ≠ .error .nilDereference := by
  obtain ⟨w, hw, hx⟩ : ∃ w, replay .reliable 3 Sys.init
      [⟨.submitGraph "x" Manager.linearGraph [], 0, []⟩] = some w ∧ (w.store "x").isSome :=
    ⟨_, rfl, rfl⟩
  exact ⟨w, hw, hx, nodeStates_cover_nodes (reachable_of_replay .init hw)⟩

end Dago
