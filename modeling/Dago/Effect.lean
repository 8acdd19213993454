import Dago.Completion

/-!
# What a Dispatch and a Completion Write

A dispatch and a completion write a record only by overwriting fields: a node's status, its
output or its error, and the record's status and error, besides timestamps. Up to the
timestamps (`GraphState.untimed`) each update is therefore the application of a `Write`, a
partial assignment of those fields. Writes compose, and a write applied twice is the write
applied once (`Write.apply_apply`).

Which writes a dispatch makes depends on the graph alone: `Chain` is the dispatch table of the
specification on the graph, with the write it makes and the `Outcome` it ends in (nothing, a
work envelope, or the completion of the graph). `Plan` is the same for a completion, after
§4.2.5. Both are deterministic, and the relations of `Dago.Dispatch` and `Dago.Completion` refine
them: a run leaves the record the plan's write of it, up to timestamps, and the world the
plan's outcome (`Dispatches.chain`, `Handles.plan`).

## Main results

* `Write.apply_apply`: writes are idempotent.
* `Chain.deterministic`, `Plan.deterministic`: the plan of a dispatch or a completion is a
  function of the graph and the envelope.
* `Dispatches.chain`, `Handles.plan`: every run follows its plan.
* `Chain.dispatches`, `Plan.handles`: on a record that covers its graph, every plan is run.
-/

namespace Dago

/-! ### Records up to their timestamps -/

/-- A node state without its start and completion times. -/
def NodeState.untimed (ns : NodeState) : NodeState :=
  { ns with startedAt := none, completedAt := none }

/-- A record without its completion time and the times of its node states. -/
def GraphState.untimed (s : GraphState) : GraphState :=
  { s with completedAt := none, nodeStates := s.nodeStates.map fun p => (p.1, p.2.untimed) }

/-- A publication without the times in the node states of a work payload. -/
def Publication.untimed (p : Publication) : Publication :=
  { p with event := { p.event with data := match p.event.data with
    | .work nodeID nodeType graphID state nodeStates =>
      .work nodeID nodeType graphID state (nodeStates.map fun q => (q.1, q.2.untimed))
    | .fields data => .fields data } }

@[simp] theorem GraphState.untimed_graphID (s : GraphState) : s.untimed.graphID = s.graphID := rfl
@[simp] theorem GraphState.untimed_graph (s : GraphState) : s.untimed.graph = s.graph := rfl
@[simp] theorem GraphState.untimed_status (s : GraphState) : s.untimed.status = s.status := rfl

@[simp] theorem GraphState.untimed_keys (s : GraphState) :
    s.untimed.nodeStates.map Prod.fst = s.nodeStates.map Prod.fst := by
  simp [GraphState.untimed, List.map_map, Function.comp_def]

/-! ### Writes -/

/-- The fields of a node state that an update overwrites, other than its timestamps: `none`
keeps a field. -/
structure NodeWrite where
  status : Option ExecutionStatus
  output : Option Json
  error : Option String

namespace NodeWrite

/-- The write that keeps every field. -/
def keep : NodeWrite := ⟨none, none, none⟩

/-- The node state with the written fields overwritten. -/
def apply (o : NodeWrite) (ns : NodeState) : NodeState :=
  { ns with status := o.status.getD ns.status, output := o.output.getD ns.output,
            error := o.error.getD ns.error }

/-- `o₂` after `o₁`. -/
def comp (o₂ o₁ : NodeWrite) : NodeWrite :=
  ⟨o₂.status.or o₁.status, o₂.output.or o₁.output, o₂.error.or o₁.error⟩

theorem getD_or {α : Type} (a b : Option α) (x : α) : (a.or b).getD x = a.getD (b.getD x) := by
  cases a <;> rfl

@[simp] theorem keep_apply (ns : NodeState) : keep.apply ns = ns := rfl

theorem apply_comp (o₂ o₁ : NodeWrite) (ns : NodeState) :
    (o₂.comp o₁).apply ns = o₂.apply (o₁.apply ns) := by
  simp [apply, comp, getD_or]

@[simp] theorem comp_self (o : NodeWrite) : o.comp o = o := by
  simp [comp]

@[simp] theorem untimed_apply (o : NodeWrite) (ns : NodeState) :
    (o.apply ns).untimed = o.apply ns.untimed := rfl

end NodeWrite

/-- The fields of a record that an update overwrites, other than its timestamps: its status,
its error, and the fields of each node state. -/
structure Write where
  status : Option ExecutionStatus
  error : Option String
  nodes : NodeId → NodeWrite

namespace Write

/-- The write that keeps every field. -/
def keep : Write := ⟨none, none, fun _ => .keep⟩

/-- The record with the written fields overwritten. -/
def apply (W : Write) (s : GraphState) : GraphState :=
  { s with status := W.status.getD s.status, error := W.error.getD s.error,
           nodeStates := s.nodeStates.map fun p => (p.1, (W.nodes p.1).apply p.2) }

/-- `W₂` after `W₁`. -/
def comp (W₂ W₁ : Write) : Write :=
  ⟨W₂.status.or W₁.status, W₂.error.or W₁.error,
    fun k => (W₂.nodes k).comp (W₁.nodes k)⟩

/-- The write of `o` on the node `nodeID` alone. -/
def onNode (nodeID : NodeId) (o : NodeWrite) : Write :=
  ⟨none, none, fun k => if k = nodeID then o else .keep⟩

@[simp] theorem apply_graphID (W : Write) (s : GraphState) : (W.apply s).graphID = s.graphID :=
  rfl
@[simp] theorem apply_graph (W : Write) (s : GraphState) : (W.apply s).graph = s.graph := rfl
@[simp] theorem apply_status (W : Write) (s : GraphState) :
    (W.apply s).status = W.status.getD s.status := rfl

@[simp] theorem apply_keys (W : Write) (s : GraphState) :
    (W.apply s).nodeStates.map Prod.fst = s.nodeStates.map Prod.fst := by
  simp [apply, List.map_map, Function.comp_def]

theorem apply_comp (W₂ W₁ : Write) (s : GraphState) :
    (W₂.comp W₁).apply s = W₂.apply (W₁.apply s) := by
  simp [apply, comp, NodeWrite.getD_or, NodeWrite.apply_comp, List.map_map, Function.comp_def]

@[simp] theorem comp_self (W : Write) : W.comp W = W := by
  simp [comp]

@[simp] theorem keep_apply (s : GraphState) : keep.apply s = s := by
  cases s; simp [apply, keep]

/-- **Writes are idempotent.** -/
theorem apply_apply (W : Write) (s : GraphState) : W.apply (W.apply s) = W.apply s := by
  rw [← apply_comp, comp_self]

theorem untimed_apply (W : Write) (s : GraphState) : (W.apply s).untimed = W.apply s.untimed := by
  simp [apply, GraphState.untimed, List.map_map, Function.comp_def]

/-- An update of one node by `f` is the write `o` on it, up to timestamps, when `f` is `o`
up to timestamps. -/
theorem untimed_updateNode {f : NodeState → NodeState} {o : NodeWrite}
    (hf : ∀ ns, (f ns).untimed = o.apply ns.untimed) (s : GraphState) (nodeID : NodeId) :
    (s.updateNode nodeID f).untimed = (onNode nodeID o).apply s.untimed := by
  simp only [GraphState.updateNode, GraphState.untimed, apply, onNode, List.map_map,
    Option.getD_none]
  congr 2
  funext p
  by_cases h : p.1 = nodeID <;> simp [h, hf]

end Write

/-- The write of `markRunning`. -/
def markWrite (nodeID : NodeId) : Write := .onNode nodeID ⟨some .running, none, none⟩

/-- The write of `failNode`. -/
def failWrite (nodeID : NodeId) (msg : String) : Write :=
  .onNode nodeID ⟨some .failed, none, some msg⟩

/-- The write of `completeNode`. -/
def completeWrite (nodeID : NodeId) (output : Json) : Write :=
  .onNode nodeID ⟨some .completed, some output, none⟩

/-- The write of `completedState`. -/
def finishWrite (status : ExecutionStatus) (errorMsg : String) : Write :=
  ⟨some status, if errorMsg ≠ "" then some errorMsg else none, fun _ => .keep⟩

theorem untimed_markRunning (s : GraphState) (nodeID : NodeId) (now : ℕ) :
    (s.markRunning nodeID now).untimed = (markWrite nodeID).apply s.untimed :=
  Write.untimed_updateNode (fun _ => by rfl) s nodeID

theorem untimed_failNode (s : GraphState) (nodeID : NodeId) (msg : String) (now : ℕ) :
    (s.failNode nodeID msg now).untimed = (failWrite nodeID msg).apply s.untimed :=
  Write.untimed_updateNode (fun _ => by rfl) s nodeID

theorem untimed_completeNode (s : GraphState) (nodeID : NodeId) (out : Json) (now : ℕ) :
    (s.completeNode nodeID out now).untimed = (completeWrite nodeID out).apply s.untimed :=
  Write.untimed_updateNode (fun _ => by rfl) s nodeID

theorem untimed_completedState (s : GraphState) (status : ExecutionStatus) (errorMsg : String)
    (now : ℕ) :
    (Manager.completedState s status errorMsg now).untimed =
      (finishWrite status errorMsg).apply s.untimed := by
  simp only [Manager.completedState, GraphState.untimed, finishWrite, Write.apply,
    NodeWrite.keep_apply, Option.getD_some, List.map_id']
  congr 1
  split <;> rfl

namespace Sys

/-- A second save of a record under the same id overwrites the first. -/
theorem save_save (w : Sys) {s s' : GraphState} (h : s'.graphID = s.graphID) :
    (w.save s).save s' = w.save s' := by
  simp only [save, h]
  congr 1
  funext k
  split <;> rfl

/-- Saving the record a world already holds changes nothing. -/
theorem save_of_store {w : Sys} {s : GraphState} (h : w.store s.graphID = some s) :
    w.save s = w := by
  simp only [save]
  congr 1
  funext k
  split <;> simp_all

end Sys

/-! ### Dispatch on the graph -/

/-- How a dispatch or a completion ends, once its last record is saved. -/
inductive Outcome
  /-- Nothing more. -/
  | idle
  /-- The work envelope of `node` goes out on `topic`, and `NodeStarted` after it. -/
  | work (topic : String) (nodeID : NodeId) (node : Node)
  /-- The graph ends with `status`: the tracker entry goes, and the terminal event out. -/
  | finish (status : ExecutionStatus) (errorMsg : String)

namespace Outcome

open Manager

/-- The world an outcome leaves for the execution `graphID` whose last record is `final`. -/
def effect (graphID : ExecId) (final : GraphState) (w : Sys) : Outcome → Sys
  | idle => w
  | work topic nodeID node =>
    (w.emit topic (workEvent graphID nodeID node final)).emit topicGraphEvents
      (nodeStartedEvent graphID nodeID)
  | finish status errorMsg =>
    (w.dropExecution graphID).emit topicGraphEvents (completionEvent graphID status errorMsg)

/-- What an outcome publishes. -/
def pubs (graphID : ExecId) (final : GraphState) : Outcome → List Publication
  | idle => []
  | work topic nodeID node =>
    [⟨topic, workEvent graphID nodeID node final⟩,
      ⟨topicGraphEvents, nodeStartedEvent graphID nodeID⟩]
  | finish status errorMsg => [⟨topicGraphEvents, completionEvent graphID status errorMsg⟩]

/-- The tracker an outcome leaves: a finished graph loses its entry. -/
def track (graphID : ExecId) (executions : ExecId → Option ExecutionContext) :
    Outcome → ExecId → Option ExecutionContext
  | finish _ _ => fun k => if k = graphID then none else executions k
  | _ => executions

@[simp] theorem effect_bus (graphID : ExecId) (final : GraphState) (w : Sys) (o : Outcome) :
    (o.effect graphID final w).bus = w.bus ++ o.pubs graphID final := by
  cases o <;> simp [effect, pubs]

@[simp] theorem effect_executions (graphID : ExecId) (final : GraphState) (w : Sys) (o : Outcome) :
    (o.effect graphID final w).executions = o.track graphID w.executions := by
  cases o <;> rfl

/-- Removing an entry twice removes it once. -/
@[simp] theorem track_track (graphID : ExecId) (e : ExecId → Option ExecutionContext)
    (o : Outcome) : o.track graphID (o.track graphID e) = o.track graphID e := by
  cases o <;> simp only [track]
  funext k
  split <;> rfl

/-- What an outcome publishes depends on its last record only up to timestamps. -/
theorem untimed_pubs (graphID : ExecId) {final final' : GraphState}
    (h : final.untimed = final'.untimed) (o : Outcome) :
    (o.pubs graphID final).map Publication.untimed =
      (o.pubs graphID final').map Publication.untimed := by
  have hi := congrArg GraphState.inputs h
  have hn := congrArg GraphState.nodeStates h
  cases o <;> simp_all [pubs, workEvent, Publication.untimed, GraphState.untimed]

@[simp] theorem effect_store (graphID : ExecId) (final : GraphState) (w : Sys) (o : Outcome) :
    (o.effect graphID final w).store = w.store := by
  cases o <;> rfl

@[simp] theorem effect_clock (graphID : ExecId) (final : GraphState) (w : Sys) (o : Outcome) :
    (o.effect graphID final w).clock = w.clock := by
  cases o <;> rfl

@[simp] theorem effect_faults (graphID : ExecId) (final : GraphState) (w : Sys) (o : Outcome) :
    (o.effect graphID final w).faults = w.faults := by
  cases o <;> rfl

end Outcome

open Manager

/-- The dispatch table of the specification on the graph alone: `Chain g nodeID W o` when
dispatching `nodeID` in `g` makes the write `W` on the record and ends in `o`. -/
inductive Chain (g : Graph) : NodeId → Write → Outcome → Prop
  | notFound {nodeID : NodeId} : g.getNode nodeID = none → Chain g nodeID .keep .idle
  | work {nodeID : NodeId} {node : Node} {topic : String} :
      g.getNode nodeID = some node → workTopic node.getType = some topic →
      Chain g nodeID (markWrite nodeID) (.work topic nodeID node)
  | finish {nodeID : NodeId} {node : Node} :
      g.getNode nodeID = some node → node.getType = .«end» →
      Chain g nodeID ((finishWrite .completed "").comp (markWrite nodeID)) (.finish .completed "")
  | stop {nodeID : NodeId} {node : Node} :
      g.getNode nodeID = some node → node.getType = .start → findNextNode g nodeID = "" →
      Chain g nodeID (markWrite nodeID) .idle
  | next {nodeID : NodeId} {node : Node} {W : Write} {o : Outcome} :
      g.getNode nodeID = some node → node.getType = .start → findNextNode g nodeID ≠ "" →
      Chain g (findNextNode g nodeID) W o → Chain g nodeID (W.comp (markWrite nodeID)) o

/-- The dispatch of a node in a graph has one plan. -/
theorem Chain.deterministic {g : Graph} {nodeID : NodeId} {W W' : Write} {o o' : Outcome}
    (h : Chain g nodeID W o) (h' : Chain g nodeID W' o') : W = W' ∧ o = o' := by
  induction h generalizing W' o' with
  | notFound hn => cases h' <;> simp_all
  | work hn ht => cases h' <;> simp_all [workTopic]
  | finish hn ht => cases h' <;> simp_all [workTopic]
  | stop hn ht hx => cases h' <;> simp_all [workTopic]
  | next hn ht hx _ ih =>
    cases h' with
    | next _ _ _ h'' => obtain ⟨rfl, rfl⟩ := ih h''; exact ⟨rfl, rfl⟩
    | _ => simp_all [workTopic]

/-- **A dispatch follows its plan.** A dispatch from a record the world holds leaves the plan's
write of the record, up to timestamps, saved under its id, and the world the plan's outcome
leaves. -/
theorem Manager.Dispatches.chain {graphID : ExecId} {nodeID : NodeId} {r : GraphState}
    {u u₁ : Sys} (D : Dispatches graphID nodeID r u u₁) (hr : u.store r.graphID = some r) :
    ∃ W o, Chain r.graph nodeID W o ∧
      ∃ final : GraphState, final.untimed = W.apply r.untimed ∧
      final.graphID = r.graphID ∧ final.graph = r.graph ∧
      u₁ = o.effect graphID final (u.save final) := by
  induction D with
  | notFound hn =>
    exact ⟨_, _, .notFound hn, _, (Write.keep_apply _).symm, rfl, rfl,
      (Sys.save_of_store hr).symm⟩
  | work hn _ ht => exact ⟨_, _, .work hn ht, _, untimed_markRunning .., rfl, rfl, rfl⟩
  | @finish nodeID r u node hn _ ht =>
    refine ⟨_, _, .finish hn ht,
      completedState (r.markRunning nodeID u.clock) .completed "" u.clock, ?_, rfl, rfl, ?_⟩
    · rw [untimed_completedState, untimed_markRunning, Write.apply_comp]
    · rw [completeEffect, Sys.save_save] <;> rfl
  | stop hn _ ht hx => exact ⟨_, _, .stop hn ht hx, _, untimed_markRunning .., rfl, rfl, rfl⟩
  | @next nodeID r u u₁ node hn _ ht hx _ ih =>
    obtain ⟨W, o, hc, final, hf, hid, hg, hu⟩ := ih (Sys.save_store_self _ _)
    refine ⟨_, _, .next hn ht hx hc, final, ?_, hid, hg, ?_⟩
    · rw [hf, untimed_markRunning, Write.apply_comp]
    · rw [hu, Sys.save_save _ hid]

/-- **Every plan of a dispatch is run.** On a record that covers its graph, dispatching a node
whose plan exists returns, from any world. -/
theorem Chain.dispatches {g : Graph} {nodeID : NodeId} {W : Write} {o : Outcome}
    (h : Chain g nodeID W o) (graphID : ExecId) :
    ∀ {r : GraphState} (u : Sys), r.graph = g → Covered r →
      ∃ u₁, Dispatches graphID nodeID r u u₁ := by
  induction h with
  | notFound hn => exact fun u hg _ => ⟨u, .notFound (hg ▸ hn)⟩
  | work hn ht =>
    rintro r u rfl hcov
    exact ⟨_, .work hn (hcov.lookup_isSome_of_getNode hn) ht⟩
  | finish hn ht =>
    rintro r u rfl hcov
    exact ⟨_, .finish hn (hcov.lookup_isSome_of_getNode hn) ht⟩
  | stop hn ht hx =>
    rintro r u rfl hcov
    exact ⟨_, .stop hn (hcov.lookup_isSome_of_getNode hn) ht hx⟩
  | @next nodeID node W o hn ht hx _ ih =>
    rintro r u rfl hcov
    obtain ⟨u₁, hd⟩ :=
      ih (r := r.markRunning nodeID u.clock) (u.save _) rfl (hcov.updateNode _ _)
    exact ⟨u₁, .next hn (hcov.lookup_isSome_of_getNode hn) ht hx hd⟩

/-! ### A completion on the graph -/

/-- §4.2.5 on the graph alone: `Plan g event nodeID W o` when the completion `event` of
`nodeID` makes the write `W` on a record of `g` and ends in `o`. -/
inductive Plan (g : Graph) (event : Envelope) (nodeID : NodeId) : Write → Outcome → Prop
  | failed {msg : String} :
      event.data.get "error" = .str msg →
      Plan g event nodeID ((finishWrite .failed msg).comp (failWrite nodeID msg))
        (.finish .failed msg)
  | finished :
      (event.data.get "error").asString = none → successor g event nodeID = "" →
      Plan g event nodeID
        ((finishWrite .completed "").comp (completeWrite nodeID (event.data.get "output")))
        (.finish .completed "")
  | dispatched {W : Write} {o : Outcome} :
      (event.data.get "error").asString = none → successor g event nodeID ≠ "" →
      Chain g (successor g event nodeID) W o →
      Plan g event nodeID (W.comp (completeWrite nodeID (event.data.get "output"))) o

/-- A completion in a graph has one plan. -/
theorem Plan.deterministic {g : Graph} {event : Envelope} {nodeID : NodeId} {W W' : Write}
    {o o' : Outcome} (h : Plan g event nodeID W o) (h' : Plan g event nodeID W' o') :
    W = W' ∧ o = o' := by
  cases h with
  | failed he => cases h' <;> simp_all [Json.asString]
  | finished he hs => cases h' <;> simp_all [Json.asString]
  | dispatched he hs hc =>
    cases h' with
    | dispatched _ _ hc' => obtain ⟨rfl, rfl⟩ := hc.deterministic hc'; exact ⟨rfl, rfl⟩
    | _ => simp_all [Json.asString]

/-- **A completion follows its plan.** -/
theorem Manager.Handles.plan {event : Envelope} {nodeID : NodeId} {s : GraphState} {w w₁ : Sys}
    (h : Handles event nodeID s w w₁) :
    ∃ W o, Plan s.graph event nodeID W o ∧ ∃ final : GraphState,
      final.untimed = W.apply s.untimed ∧ final.graphID = s.graphID ∧ final.graph = s.graph ∧
      w₁ = o.effect event.executionID final (w.save final) := by
  cases h with
  | @failed msg he =>
    refine ⟨_, _, .failed he, completedState (s.failNode nodeID msg w.clock) .failed msg w.clock,
      ?_, rfl, rfl, ?_⟩
    · rw [untimed_completedState, untimed_failNode, Write.apply_comp]
    · rw [completeEffect, Sys.save_save] <;> rfl
  | finished he hs =>
    refine ⟨_, _, .finished he hs, completedState
      (s.completeNode nodeID (event.data.get "output") w.clock) .completed "" w.clock, ?_, rfl,
      rfl, ?_⟩
    · rw [untimed_completedState, untimed_completeNode, Write.apply_comp]
    · rw [completeEffect, Sys.save_save] <;> rfl
  | dispatched he hs hd =>
    obtain ⟨W, o, hc, final, hf, hid, hg, hu⟩ := hd.chain (Sys.save_store_self _ _)
    refine ⟨_, _, .dispatched he hs hc, final, ?_, hid, hg, ?_⟩
    · rw [hf, untimed_completeNode, Write.apply_comp]
    · rw [hu, Sys.save_save _ hid]

/-- **Every plan of a completion is run.** -/
theorem Plan.handles {event : Envelope} {nodeID : NodeId} {s : GraphState} {W : Write}
    {o : Outcome} (h : Plan s.graph event nodeID W o) (hs : Covered s) (w : Sys) :
    ∃ w₁, Handles event nodeID s w w₁ := by
  cases h with
  | failed he => exact ⟨_, .failed he⟩
  | finished he hx => exact ⟨_, .finished he hx⟩
  | dispatched he hx hc =>
    obtain ⟨u₁, hd⟩ := hc.dispatches event.executionID (r := s.completeNode nodeID _ w.clock)
      (w.save _) rfl (hs.updateNode _ _)
    exact ⟨u₁, .dispatched he hx hd⟩

end Dago
