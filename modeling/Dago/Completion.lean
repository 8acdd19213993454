import Dago.Dispatch

/-!
# Handling a Completion

What `handleNodeCompleted` does with a completion envelope when the store and the bus succeed,
against §4.2.5 of the specification. `Handles` is that section as a relation over the worlds
before and after: the completed node is updated, and then the graph fails, completes, or
dispatches one successor by the dispatch table of `Dispatches`.

## The error and successor fields

The handler reads `error` and `next_node` of the envelope through the comma-ok assertion
`.(string)`. An `error` of another JSON type is therefore no error at all: the node completes
with the envelope's output and the run goes on. A `next_node` that is a non-empty string is
the successor whether or not it names a node; one that names none is dropped by
`publishNodeWork` with `node not found`.

## Main results

* `handleNodeCompleted_iff_handles`: on a stored record that holds the node, the handler
  returns exactly the worlds that `Handles` relates.
* `handleNodeCompleted_numeric_error`: a completion whose `error` is a number completes the
  node and, through the end node after it, the graph.
* `late_completion_reopens_cancelled`, `late_completion_completes_failed`: the handler never
  looks at the status of the record, so a completion that arrives after the execution has
  ended drives the terminal record again.
-/

namespace Dago

/-- The record with node `nodeID` `Failed` with `msg` at `now`. -/
def GraphState.failNode (s : GraphState) (nodeID : NodeId) (msg : String) (now : ℕ) :
    GraphState :=
  s.updateNode nodeID fun ns => { ns with status := .failed, error := msg, completedAt := some now }

/-- The record with node `nodeID` `Completed` with `output` at `now`. -/
def GraphState.completeNode (s : GraphState) (nodeID : NodeId) (output : Json) (now : ℕ) :
    GraphState :=
  s.updateNode nodeID fun ns =>
    { ns with status := .completed, output := output, completedAt := some now }

theorem Json.asString_eq_some {j : Json} {msg : String} :
    j.asString = some msg ↔ j = .str msg := by
  cases j <;> simp [Json.asString]

namespace Manager

/-! ### The specification -/

/-- The target of the first edge in `Edges` order that leaves `nodeID`, or the empty id. -/
def firstEdgeTarget (g : Graph) (nodeID : NodeId) : NodeId :=
  ((g.edges.find? fun e => e.«from» = nodeID).map (·.«to»)).getD ""

/-- The successor that §4.2.5 selects after a successful completion: `next_node` when it is
a non-empty string, the first-edge target otherwise. The empty id is no successor. -/
def successor (g : Graph) (event : Envelope) (nodeID : NodeId) : NodeId :=
  match event.data.get "next_node" with
  | .str next => if next ≠ "" then next else firstEdgeTarget g nodeID
  | _ => firstEdgeTarget g nodeID

/-- §4.2.5 as a relation: `Handles event nodeID s w w'` when the completion `event` of the
node `nodeID`, read against the stored record `s`, takes `w` to `w'`. -/
inductive Handles (event : Envelope) (nodeID : NodeId) (s : GraphState) : Sys → Sys → Prop
  /-- An error string: the node fails with it, and then the graph. -/
  | failed {w : Sys} {msg : String} :
      event.data.get "error" = .str msg →
      Handles event nodeID s w
        (completeEffect (w.save (s.failNode nodeID msg w.clock)) event.executionID
          (s.failNode nodeID msg w.clock) .failed msg)
  /-- No error and no successor: the node and the graph complete. -/
  | finished {w : Sys} :
      (event.data.get "error").asString = none → successor s.graph event nodeID = "" →
      Handles event nodeID s w
        (completeEffect (w.save (s.completeNode nodeID (event.data.get "output") w.clock))
          event.executionID (s.completeNode nodeID (event.data.get "output") w.clock)
          .completed "")
  /-- No error and a successor: the node completes and the successor is dispatched. -/
  | dispatched {w w' : Sys} :
      (event.data.get "error").asString = none → successor s.graph event nodeID ≠ "" →
      Dispatches event.executionID (successor s.graph event nodeID)
        (s.completeNode nodeID (event.data.get "output") w.clock)
        (w.save (s.completeNode nodeID (event.data.get "output") w.clock)) w' →
      Handles event nodeID s w w'

/-! ### The code against it -/

theorem findNextNode_eq_firstEdgeTarget (g : Graph) (nodeID : NodeId) :
    findNextNode g nodeID = firstEdgeTarget g nodeID := by
  rw [findNextNode, Graph.getOutgoingEdges, firstEdgeTarget, ← List.filter_head?]
  cases g.edges.filter _ <;> rfl

/-- A completion whose `node_id` is a string completes the node of that id. -/
theorem Completion.nodeID_ofEnvelope {event : Envelope} {nodeID : NodeId}
    (h : event.data.get "node_id" = .str nodeID) :
    (Completion.ofEnvelope event).nodeID = nodeID := by
  simp [Completion.ofEnvelope, h, Json.asString]

theorem Completion.nextNode_ofEnvelope (g : Graph) (event : Envelope) :
    (Completion.ofEnvelope event).nextNode g =
      successor g event (Completion.ofEnvelope event).nodeID := by
  simp only [Completion.nextNode, Completion.ofEnvelope, successor,
    findNextNode_eq_firstEdgeTarget]
  cases event.data.get "next_node" <;> simp [Json.asString]

@[simp] theorem failNode_graph (s : GraphState) (nodeID : NodeId) (msg : String) (now : ℕ) :
    (s.failNode nodeID msg now).graph = s.graph := rfl

@[simp] theorem completeNode_graph (s : GraphState) (nodeID : NodeId) (out : Json) (now : ℕ) :
    (s.completeNode nodeID out now).graph = s.graph := rfl

section Reliable

variable {w : Sys} {event : Envelope} {s : GraphState} {nodeID : NodeId}

/-- The handler on a stored record that holds the node it reads, the store and the bus
succeeding. -/
theorem handleNodeCompleted_run (fuel : ℕ) (hw : w.faults = [])
    (hs : w.store event.executionID = some s) (hc : (Completion.ofEnvelope event).nodeID = nodeID)
    (hn : (s.nodeStates.lookup nodeID).isSome) :
    (handleNodeCompleted fuel event).run w =
      match (event.data.get "error").asString with
      | some msg =>
        .ok (none, completeEffect (w.save (s.failNode nodeID msg w.clock)) event.executionID
          (s.failNode nodeID msg w.clock) .failed msg)
      | none =>
        if successor s.graph event nodeID = "" then
          .ok (none, completeEffect
            (w.save (s.completeNode nodeID (event.data.get "output") w.clock))
            event.executionID (s.completeNode nodeID (event.data.get "output") w.clock)
            .completed "")
        else
          ((publishNodeWork fuel event.executionID (successor s.graph event nodeID)
              (s.completeNode nodeID (event.data.get "output") w.clock)).run
            (w.save (s.completeNode nodeID (event.data.get "output") w.clock))).bind
            fun r => .ok (none, r.2) := by
  obtain ⟨ns, hns⟩ := Option.isSome_iff_exists.mp hn
  have hnext := Completion.nextNode_ofEnvelope s.graph event
  rw [hc] at hnext
  simp only [handleNodeCompleted, Storage.getState_bind, Time.now_bind, Storage.saveState_bind]
  simp only [Prog.run, Sys.getState_of_faults_nil hw, hs, hc, hns, Sys.saveState_of_faults_nil hw,
    GraphState.updateNode_graph, hnext]
  have herr : (Completion.ofEnvelope event).errorMsg = (event.data.get "error").asString := rfl
  rw [herr]
  cases he : (event.data.get "error").asString with
  | some msg =>
    have hs' : s.updateNode nodeID ((Completion.ofEnvelope event).apply w.clock) =
        s.failNode nodeID msg w.clock := by
      refine congrArg _ (funext fun ns => ?_)
      simp only [Completion.apply, herr, he]
    rw [hs', Prog.run_bind, completeGraph_run (w := w.save _) hw]
    rfl
  | none =>
    have hs' : s.updateNode nodeID ((Completion.ofEnvelope event).apply w.clock) =
        s.completeNode nodeID (event.data.get "output") w.clock := by
      refine congrArg _ (funext fun ns => ?_)
      simp only [Completion.apply, herr, he]
      rfl
    rw [hs']
    dsimp only
    split
    · rw [Prog.run_bind, completeGraph_run (w := w.save _) hw]
      rfl
    · rw [Prog.run_bind]
      rfl

/-- Without a record, the handler drops the completion. -/
theorem handleNodeCompleted_run_of_store_none (fuel : ℕ) (hw : w.faults = [])
    (hs : w.store event.executionID = none) :
    (handleNodeCompleted fuel event).run w = .ok (none, w) := by
  simp only [handleNodeCompleted, Storage.getState_bind]
  simp [Prog.run, Sys.getState_of_faults_nil hw, hs]

/-- Without the node state it reads, the handler drops the completion. -/
theorem handleNodeCompleted_run_of_lookup_none (fuel : ℕ) (hw : w.faults = [])
    (hs : w.store event.executionID = some s)
    (hn : s.nodeStates.lookup (Completion.ofEnvelope event).nodeID = none) :
    (handleNodeCompleted fuel event).run w = .ok (none, w) := by
  simp only [handleNodeCompleted, Storage.getState_bind]
  simp [Prog.run, Sys.getState_of_faults_nil hw, hs, hn]

theorem handleNodeCompleted_sound {fuel : ℕ} {r : Option String} {w' : Sys} (hw : w.faults = [])
    (hs : w.store event.executionID = some s) (hc : (Completion.ofEnvelope event).nodeID = nodeID)
    (hn : (s.nodeStates.lookup nodeID).isSome)
    (h : (handleNodeCompleted fuel event).run w = .ok (r, w')) : Handles event nodeID s w w' := by
  rw [handleNodeCompleted_run fuel hw hs hc hn] at h
  cases he : (event.data.get "error").asString with
  | some msg =>
    simp only [he, Except.ok.injEq, Prod.mk.injEq] at h
    exact h.2 ▸ .failed (Json.asString_eq_some.mp he)
  | none =>
    simp only [he] at h
    split at h
    · simp only [Except.ok.injEq, Prod.mk.injEq] at h
      exact h.2 ▸ .finished he ‹_›
    · obtain ⟨⟨_, _⟩, hp, h⟩ := Except.exists_of_bind_eq_ok h
      obtain ⟨-, rfl⟩ := Prod.mk.inj (Except.ok.inj h)
      exact .dispatched he ‹_› (publishNodeWork_sound hw hp)

theorem handleNodeCompleted_complete {w' : Sys} (hw : w.faults = [])
    (hs : w.store event.executionID = some s) (hc : (Completion.ofEnvelope event).nodeID = nodeID)
    (hn : (s.nodeStates.lookup nodeID).isSome) (h : Handles event nodeID s w w') :
    ∃ fuel r, (handleNodeCompleted fuel event).run w = .ok (r, w') := by
  cases h with
  | failed herr =>
    exact ⟨0, none,
      by rw [handleNodeCompleted_run 0 hw hs hc hn, Json.asString_eq_some.mpr herr]⟩
  | finished he hsucc =>
    exact ⟨0, none, by rw [handleNodeCompleted_run 0 hw hs hc hn, he]; simp [hsucc]⟩
  | dispatched he hsucc hd =>
    obtain ⟨fuel, r, hrun⟩ := publishNodeWork_complete hd hw
    exact ⟨fuel, none, by
      rw [handleNodeCompleted_run fuel hw hs hc hn, he]; simp [hsucc, hrun, Except.bind]⟩

/-- **The handler implements §4.2.5.** On a stored record that holds the completed node, the
store and the bus succeeding, the handler returns (for enough fuel) in exactly the worlds that
`Handles` relates to the world before. -/
theorem handleNodeCompleted_iff_handles (hw : w.faults = [])
    (hs : w.store event.executionID = some s) (hid : event.data.get "node_id" = .str nodeID)
    (hn : (s.nodeStates.lookup nodeID).isSome) {w' : Sys} :
    (∃ fuel r, (handleNodeCompleted fuel event).run w = .ok (r, w')) ↔
      Handles event nodeID s w w' := by
  have hc := Completion.nodeID_ofEnvelope hid
  exact ⟨fun ⟨_, _, h⟩ => handleNodeCompleted_sound hw hs hc hn h,
    handleNodeCompleted_complete hw hs hc hn⟩

end Reliable

/-- The world in which the initial record of `linearGraph` is stored under the id `x`. -/
def linearWorld : Sys := Sys.init.save (initialState "x" linearGraph [] 0)

/-- The completion of `B` in `linearWorld` returns a world, the one `Handles` relates. -/
theorem handleNodeCompleted_iff_handles_linear :
    ∃ w', (∃ fuel r, (handleNodeCompleted fuel ⟨"x", [("node_id", .str "B")]⟩).run linearWorld =
        .ok (r, w')) ∧
      ((∃ fuel r, (handleNodeCompleted fuel ⟨"x", [("node_id", .str "B")]⟩).run linearWorld =
        .ok (r, w')) ↔
        Handles ⟨"x", [("node_id", .str "B")]⟩ "B" (initialState "x" linearGraph [] 0)
          linearWorld w') := by
  obtain ⟨w', h⟩ : ∃ w', ∃ fuel r,
      (handleNodeCompleted fuel ⟨"x", [("node_id", .str "B")]⟩).run linearWorld = .ok (r, w') :=
    ⟨_, 3, _, rfl⟩
  exact ⟨w', h,
    handleNodeCompleted_iff_handles (by rfl) (Sys.save_store_self _ _) (by rfl) (by decide)⟩

/-- The completion of `B` that reports its error as a number. -/
def numericErrorCompletion : Envelope := ⟨"x", [("node_id", .str "B"), ("error", .num 1)]⟩

/-- A completion of `B` in a run of `linearGraph` whose `error` is the number `1` leaves `B`
`Completed`, and the end node after it completes the graph. -/
theorem handleNodeCompleted_numeric_error :
    numericErrorCompletion.data.get "error" = .num 1 ∧
    (replay .reliable 3 Sys.init
      [⟨.submitGraph "x" linearGraph [], 0, []⟩,
        ⟨.nodeCompleted numericErrorCompletion, 1, []⟩]).bind (·.nodeStatus "x" "B") =
      some (.completed, .completed) :=
  ⟨rfl, by decide⟩

/-! ### Late completions

`handleNodeCompleted_iff_handles` asks nothing of the status of the record: the handler has no
counterpart of step 2 of §4.2.5, and handles a completion on a terminal record as on a
`Running` one. -/

/-- The execution `x` of `linearGraph` is cancelled while `B` is in flight, and then `B`'s
completion arrives. -/
def cancelThenComplete : List Call :=
  [⟨.submitGraph "x" linearGraph [], 0, []⟩, ⟨.cancelExecution "x", 1, []⟩,
   ⟨.nodeCompleted (completionOf "B" [("output", .str "hi")]), 2, []⟩]

/-- **A cancelled record is driven to `Completed`.** After the cancellation the record is
`Cancelled`; the late completion of `B` completes `B`, dispatches the end node `C` and
completes the graph, which publishes `GraphCompleted` after `GraphCancelled`. -/
theorem late_completion_reopens_cancelled :
    (replay .reliable 3 Sys.init (cancelThenComplete.take 2)).bind (·.nodeStatus "x" "B") =
      some (.cancelled, .running) ∧
    (replay .reliable 3 Sys.init cancelThenComplete).bind (·.nodeStatus "x" "B") =
      some (.completed, .completed) ∧
    (replay .reliable 3 Sys.init cancelThenComplete).map Sys.graphEvents =
      some [.graphSubmitted, .nodeStarted, .graphCancelled, .graphCompleted] :=
  ⟨by decide, by decide, by decide⟩

/-- `B` fails, and then a completion of the end node `C` arrives. -/
def failThenComplete : List Call :=
  [⟨.submitGraph "x" linearGraph [], 0, []⟩,
   ⟨.nodeCompleted (completionOf "B" [("error", .str "boom")]), 1, []⟩,
   ⟨.nodeCompleted (completionOf "C" []), 2, []⟩]

/-- **A failed graph ends `Completed` with a `Failed` node.** -/
theorem late_completion_completes_failed :
    (replay .reliable 3 Sys.init (failThenComplete.take 2)).bind (·.nodeStatus "x" "B") =
      some (.failed, .failed) ∧
    (replay .reliable 3 Sys.init failThenComplete).bind (·.nodeStatus "x" "B") =
      some (.completed, .failed) :=
  ⟨by decide, by decide⟩

end Manager

end Dago
