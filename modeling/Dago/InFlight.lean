import Dago.Effect

/-!
# Work in Flight

The coordinator runs an execution one node at a time: `SubmitGraph` dispatches the entry node,
and each completion dispatches at most one successor. In the protocol of the specification
every work envelope is answered once, on `node.completed`, by a completion for its node.
`Answered` is that protocol as a run of the system, the store and the bus succeeding, with the
envelopes in flight beside the world: each step adds the work envelopes it publishes, and a
completion removes the envelope it answers. The workers of the repository listen on
`node.events`, where the coordinator publishes no work, and take no part.

Each step is one of four moves (`move_of_answers`): a submission or a completion follows the
dispatch plan of `Chain` or `Plan` on the record of its execution, a cancellation or a deadline
ends that record, or nothing is stored. The invariants follow from the moves alone.

Every execution has at most one envelope in flight. A `Running` record need not have one: a
dispatch that reaches an id naming no node (an empty `entry_node`, or a `next_node` naming
none) or a start node with no outgoing edge sends nothing, and the record stays `Running`
until its deadline fails it, as step 7 of §4.2.1 intends. On well-formed graphs, with every
non-empty `next_node` naming a node, a `Running` record has exactly one.

`Answered` has a step only for an operation that returns. That every operation the protocol
allows does return, once the chains of hand-offs of the admitted graphs end, is shown in
`Dago.Termination`, where `answered_in_flight` puts the two together.

## Main results

* `Answered.flight`: at most one envelope in flight per execution, for an executor or a router
  of its record.
* `Answered.busy`: exactly one for a `Running` record under the conditions above.
* `dispatch_stalls`: three runs on graphs that the validator accepts leave a `Running` record
  with nothing in flight.
-/

namespace Dago

/-- The tracker entry of `graphID`, if there is one, changed by `f`. -/
def Sys.updateExecution (w : Sys) (graphID : ExecId) (f : ExecutionContext → ExecutionContext) :
    Sys :=
  { w with executions := fun k => if k = graphID then (w.executions k).map f else w.executions k }

@[simp] theorem Sys.updateExecution_store (w : Sys) (graphID : ExecId)
    (f : ExecutionContext → ExecutionContext) :
    (w.updateExecution graphID f).store = w.store := rfl
@[simp] theorem Sys.updateExecution_bus (w : Sys) (graphID : ExecId)
    (f : ExecutionContext → ExecutionContext) : (w.updateExecution graphID f).bus = w.bus := rfl
@[simp] theorem Sys.updateExecution_clock (w : Sys) (graphID : ExecId)
    (f : ExecutionContext → ExecutionContext) :
    (w.updateExecution graphID f).clock = w.clock := rfl
@[simp] theorem Sys.updateExecution_faults (w : Sys) (graphID : ExecId)
    (f : ExecutionContext → ExecutionContext) : (w.updateExecution graphID f).faults = w.faults :=
  rfl

namespace Manager

/-! ### The other operations, the store and the bus succeeding -/

/-- `SubmitGraph` of a graph the validator refuses writes nothing. -/
theorem submitGraph_run_of_invalid {w : Sys} (fuel : ℕ) (graphID : ExecId) {g : Graph}
    (inputs : JsonMap) {err : String} (hv : Validator.validate (some g) = some err) :
    (submitGraph fuel graphID g inputs).run w =
      .ok (("", some ("validation failed: " ++ err)), w) := by
  simp [submitGraph, hv, Prog.run]

section Reliable

variable {w : Sys} (hw : w.faults = [])
include hw

/-- `SubmitGraph` of an accepted graph: the initial record is saved, `GraphSubmitted` goes out,
the tracker entry is registered, and the entry node is dispatched. -/
theorem submitGraph_run (fuel : ℕ) (graphID : ExecId) {g : Graph} (inputs : JsonMap)
    (hv : Validator.validate (some g) = none) :
    (submitGraph fuel graphID g inputs).run w =
      ((publishNodeWork fuel graphID g.entryNode (initialState graphID g inputs w.clock)).run
        { (w.save (initialState graphID g inputs w.clock)).emit topicGraphEvents
            ⟨.graphSubmitted, graphID, .fields [("original_graph_id", .str g.id)]⟩ with
          executions := fun k =>
            if k = graphID then some ⟨graphID, .running, w.clock, .active⟩
            else w.executions k }).bind
        fun r => .ok ((graphID, none), r.2) := by
  simp only [submitGraph, hv, publishGraphEvent, Time.now_bind, Storage.saveState_bind,
    EventBus.publish_bind, Executions.store_bind, Prog.bind_assoc]
  simp only [Prog.run, Sys.saveState_of_faults_nil hw,
    Sys.publish_of_faults_nil (w := w.save _) hw, Prog.run_bind, Prog.bind]
  rfl

/-- `CancelExecution`: refused without an entry or with a terminal one; otherwise the entry is
cancelled, and the record, when there is one, is saved `Cancelled`, `GraphCancelled` goes out,
and the entry is removed. -/
theorem cancelExecution_run (graphID : ExecId) :
    (cancelExecution graphID).run w =
      match w.executions graphID with
      | none => .ok (some ("execution not found: " ++ graphID), w)
      | some e =>
        if e.status.isTerminal then
          .ok (some ("execution already in terminal state: " ++ e.status.toString), w)
        else
          match w.store graphID with
          | none =>
            .ok (some ("failed to get state: state not found: " ++ graphID),
              w.updateExecution graphID fun e =>
                { e with ctx := e.ctx.cancel, status := .cancelled })
          | some s =>
            .ok (none, (((w.updateExecution graphID fun e =>
                { e with ctx := e.ctx.cancel, status := .cancelled }).save
              { s with status := .cancelled, completedAt := some w.clock }).emit topicGraphEvents
              ⟨.graphCancelled, graphID, .fields []⟩).dropExecution graphID) := by
  simp only [cancelExecution, publishGraphEvent, Executions.load_bind, Executions.update_bind,
    Storage.getState_bind, Time.now_bind, Storage.saveState_bind, EventBus.publish_bind,
    Executions.delete_bind, Prog.bind_assoc]
  cases he : w.executions graphID with
  | none => simp [Prog.run, he]
  | some e =>
    simp only [Prog.run, he]
    split
    · rfl
    · simp (disch := exact hw) only [Prog.run, Sys.getState_of_faults_nil]
      cases hs : w.store graphID with
      | none => rfl
      | some s =>
        simp (disch := exact hw) only [Prog.run, Sys.saveState_of_faults_nil]
        rw [Sys.publish_of_faults_nil (by exact hw)]
        rfl

/-- `monitorExecution` at the deadline: with an active entry, the context is marked past its
deadline and the record, when there is one, fails with `execution timeout`. -/
theorem monitorExecution_run (graphID : ExecId) :
    (monitorExecution graphID).run w =
      match w.executions graphID with
      | some e =>
        if e.ctx = .active then
          match w.store graphID with
          | none => .ok ((), w.updateExecution graphID fun e => { e with ctx := .deadlineExceeded })
          | some s => .ok ((), completeEffect
              (w.updateExecution graphID fun e => { e with ctx := .deadlineExceeded })
              graphID s .failed "execution timeout")
        else .ok ((), w)
      | none => .ok ((), w) := by
  simp only [monitorExecution, Executions.load_bind, Executions.update_bind]
  cases he : w.executions graphID with
  | none => simp [Prog.run, he]
  | some e =>
    simp only [Prog.run, he]
    split
    · simp (disch := exact hw) only [handleTimeout, Storage.getState_bind, Prog.run,
        Sys.getState_of_faults_nil]
      cases hs : w.store graphID with
      | none => rfl
      | some s =>
        simp only [Prog.pure_bind]
        exact completeGraph_run (by exact hw) _ _ _ _
    · rfl

end Reliable

end Manager

/-! ### Work in flight -/

/-- The nodes of the execution `k` among the envelopes `o`. -/
def flightOf (o : List (ExecId × NodeId)) (k : ExecId) : List NodeId :=
  o.filterMap fun x => if x.1 = k then some x.2 else none

@[simp] theorem flightOf_nil (k : ExecId) : flightOf [] k = [] := rfl

@[simp] theorem flightOf_append (o o' : List (ExecId × NodeId)) (k : ExecId) :
    flightOf (o ++ o') k = flightOf o k ++ flightOf o' k :=
  List.filterMap_append _ _ _

theorem mem_flightOf {o : List (ExecId × NodeId)} {k : ExecId} {n : NodeId} :
    n ∈ flightOf o k ↔ (k, n) ∈ o := by
  simp only [flightOf, List.mem_filterMap, Option.ite_none_right_eq_some, Option.some.injEq]
  constructor
  · rintro ⟨⟨j, m⟩, h, rfl, rfl⟩
    exact h
  · exact fun h => ⟨_, h, rfl, rfl⟩

/-- Answering the envelope of `n` removes `n` from the nodes of its execution only. -/
theorem flightOf_erase (o : List (ExecId × NodeId)) (k j : ExecId) (n : NodeId) :
    flightOf (o.erase (k, n)) j = if j = k then (flightOf o k).erase n else flightOf o j := by
  induction o with
  | nil => split <;> rfl
  | cons x o ih =>
    obtain ⟨i, m⟩ := x
    by_cases hx : (i, m) = (k, n)
    · obtain ⟨rfl, rfl⟩ := Prod.mk.inj hx
      by_cases hj : j = i
      · subst hj
        simp [flightOf]
      · simp [flightOf, hj, Ne.symm hj]
    · rw [List.erase_cons_tail (by simpa using hx)]
      simp only [flightOf] at ih ⊢
      by_cases hj : j = k <;> by_cases hi : i = j <;> simp_all [List.erase_cons]

/-- The work envelopes published from `w` to `w'`, as the execution and the node each is
for. -/
def Sys.newWork (w w' : Sys) : List (ExecId × NodeId) :=
  (w'.bus.drop w.bus.length).filterMap Publication.work?

theorem Sys.newWork_of_bus {w w' : Sys} {ps : List Publication} (h : w'.bus = w.bus ++ ps) :
    w.newWork w' = ps.filterMap Publication.work? := by
  simp [newWork, h]

/-- Nothing on `graph.events` is a work envelope. -/
theorem Publication.work?_of_graphEvents {p : Publication} (h : p.topic = topicGraphEvents) :
    p.work? = none := by
  simp [work?, isWork, h, topicGraphEvents, topicExecutorWork, topicRouterWork]

namespace Outcome

open Manager

/-- The work envelope an outcome sends. -/
def sent (graphID : ExecId) : Outcome → List (ExecId × NodeId)
  | work _ nodeID _ => [(graphID, nodeID)]
  | _ => []

/-- The status an outcome writes on the record. -/
def status : Outcome → Option ExecutionStatus
  | finish status _ => some status
  | _ => none

/-- What the dispatch table guarantees of an outcome on `g`: work goes to an executor or a
router of `g` on its topic, and a graph ends in a terminal status. -/
def Fits (g : Graph) : Outcome → Prop
  | idle => True
  | work topic nodeID node => g.getNode nodeID = some node ∧ workTopic node.getType = some topic
  | finish status _ => status.isTerminal

/-- An outcome sends nothing for another execution. -/
theorem flightOf_sent_of_ne (o : Outcome) {graphID k : ExecId} (h : k ≠ graphID) :
    flightOf (o.sent graphID) k = [] := by
  cases o <;> simp [sent, flightOf, Ne.symm h]

/-- The work that a fitting outcome publishes is what it sends. -/
theorem work_pubs {g : Graph} {o : Outcome} (h : o.Fits g) (graphID : ExecId) (final : GraphState) :
    (o.pubs graphID final).filterMap Publication.work? = o.sent graphID := by
  cases o with
  | idle => rfl
  | work topic nodeID node =>
    obtain ⟨-, ht⟩ := h
    have hw : Publication.isWork ⟨topic, workEvent graphID nodeID node final⟩ := by
      cases hty : node.getType <;> simp_all [workTopic, Publication.isWork]
    have h₁ : Publication.work? ⟨topic, workEvent graphID nodeID node final⟩ =
        some (graphID, nodeID) := by
      simp only [Publication.work?, hw, if_true]
      rfl
    simp [pubs, sent, h₁, Publication.work?_of_graphEvents (p := ⟨topicGraphEvents, _⟩) rfl]
  | finish status errorMsg =>
    simp [pubs, sent, Publication.work?_of_graphEvents (p := ⟨topicGraphEvents, _⟩) rfl]

end Outcome

/-! ### What a dispatch ends in -/

open Manager

/-- A graph on which no dispatch ends without work in flight or a terminal status: the
validator accepts it, its entry node names a node, and every start node has an outgoing
edge. -/
structure WellFormed (g : Graph) : Prop where
  valid : Validator.validate (some g) = none
  entry : (g.getNode g.entryNode).isSome
  start : ∀ p ∈ g.nodes, p.2.map Node.getType = some .start → findNextNode g p.1 ≠ ""

instance (g : Graph) : Decidable (WellFormed g) :=
  decidable_of_iff (_ ∧ _ ∧ _)
    ⟨fun ⟨h₁, h₂, h₃⟩ => ⟨h₁, h₂, h₃⟩, fun ⟨h₁, h₂, h₃⟩ => ⟨h₁, h₂, h₃⟩⟩

/-- A `next_node` value that, when it is a non-empty string, names a node of `g`. -/
def NamesNode (g : Graph) (j : Json) : Prop :=
  ∀ next, j = .str next → next ≠ "" → (g.getNode next).isSome

/-- In an accepted graph the first edge out of a node ends at a node. -/
theorem findNextNode_getNode {g : Graph} (hv : Validator.validate (some g) = none)
    {nodeID : NodeId} (hx : findNextNode g nodeID ≠ "") :
    (g.getNode (findNextNode g nodeID)).isSome := by
  unfold findNextNode at hx ⊢
  cases he : g.getOutgoingEdges nodeID with
  | nil => simp [he] at hx
  | cons e _ =>
    have hmem : e ∈ g.getOutgoingEdges nodeID := by rw [he]; exact List.mem_cons_self _ _
    exact Validator.validate_getNode_to hv e (List.mem_filter.mp hmem).1

theorem WellFormed.start_getNode {g : Graph} (hg : WellFormed g) {nodeID : NodeId} {node : Node}
    (hn : g.getNode nodeID = some node) (ht : node.getType = .start) :
    findNextNode g nodeID ≠ "" :=
  hg.start _ (Graph.mem_nodes_of_getNode hn) (by simp [ht])

/-- On a well-formed graph, a successor that names any node names one `GetNode` finds, when
`next_node` names nodes. -/
theorem successor_getNode {g : Graph} (hg : WellFormed g) {event : Envelope} {nodeID : NodeId}
    (hj : NamesNode g (event.data.get "next_node")) (hs : successor g event nodeID ≠ "") :
    (g.getNode (successor g event nodeID)).isSome := by
  have hedge :
      firstEdgeTarget g nodeID ≠ "" → (g.getNode (firstEdgeTarget g nodeID)).isSome := by
    rw [← findNextNode_eq_firstEdgeTarget]
    exact findNextNode_getNode hg.valid
  unfold successor at hs ⊢
  cases hnext : event.data.get "next_node" with
  | str next =>
    simp only [hnext] at hs ⊢
    split_ifs at hs ⊢ with hne
    · exact hj next hnext hne
    · exact hedge hs
  | _ => simp only [hnext] at hs ⊢; exact hedge hs

/-- The status a dispatch writes is the status its outcome ends the graph in. -/
theorem Chain.status_eq {g : Graph} {nodeID : NodeId} {W : Write} {o : Outcome}
    (h : Chain g nodeID W o) : W.status = o.status := by
  induction h <;>
    simp_all [Write.comp, markWrite, Write.onNode, finishWrite, Write.keep, Outcome.status]

theorem Chain.fits {g : Graph} {nodeID : NodeId} {W : Write} {o : Outcome}
    (h : Chain g nodeID W o) : o.Fits g := by
  induction h with
  | notFound | stop => trivial
  | work hn ht => exact ⟨hn, ht⟩
  | finish => rfl
  | next _ _ _ _ ih => exact ih

/-- **A dispatch of a node on a well-formed graph sends work or ends the graph.** -/
theorem Chain.ne_idle {g : Graph} (hg : WellFormed g) {nodeID : NodeId} {W : Write} {o : Outcome}
    (h : Chain g nodeID W o) (hn : (g.getNode nodeID).isSome) : o ≠ .idle := by
  induction h with
  | notFound h' => simp [h'] at hn
  | work | finish => simp
  | stop hn' ht hx => exact absurd hx (hg.start_getNode hn' ht)
  | next _ _ hx _ ih => exact ih (findNextNode_getNode hg.valid hx)

theorem Plan.status_eq {g : Graph} {event : Envelope} {nodeID : NodeId} {W : Write} {o : Outcome}
    (h : Plan g event nodeID W o) : W.status = o.status := by
  cases h with
  | failed | finished => rfl
  | dispatched _ _ hc => simp [Write.comp, completeWrite, Write.onNode, hc.status_eq]

theorem Plan.fits {g : Graph} {event : Envelope} {nodeID : NodeId} {W : Write} {o : Outcome}
    (h : Plan g event nodeID W o) : o.Fits g := by
  cases h with
  | failed | finished => rfl
  | dispatched _ _ hc => exact hc.fits

/-- **A completion on a well-formed graph sends work or ends the graph**, when its
`next_node` names a node. -/
theorem Plan.ne_idle {g : Graph} (hg : WellFormed g) {event : Envelope} {nodeID : NodeId}
    {W : Write} {o : Outcome} (hj : NamesNode g (event.data.get "next_node"))
    (h : Plan g event nodeID W o) : o ≠ .idle := by
  cases h with
  | failed | finished => simp
  | dispatched _ hs hc => exact hc.ne_idle hg (successor_getNode hg hj hs)

/-- The record a plan leaves has the status of its outcome, or keeps its own. -/
theorem Outcome.status_of_untimed {final s : GraphState} {W : Write} {o : Outcome}
    (hW : W.status = o.status) (hf : final.untimed = W.apply s.untimed) :
    final.status = o.status.getD s.status := by
  rw [← GraphState.untimed_status, hf, Write.apply_status, hW, GraphState.untimed_status]

/-! ### The protocol -/

/-- What the protocol lets an operation do while the envelopes `o` are in flight: a submitted
graph satisfies `admits`; a completion carries as `node_id` a node whose envelope is in flight,
and a `next_node` that `names` allows in the graph of its record. The workers of the repository,
which the coordinator's envelopes never reach, take no part. -/
def Op.Answers (admits : Graph → Prop) (names : Graph → Json → Prop) (w : Sys)
    (o : List (ExecId × NodeId)) : Op → Prop
  | .submitGraph _ g _ => admits g
  | .nodeCompleted event => ∃ nodeID, event.data.get "node_id" = .str nodeID ∧
      (event.executionID, nodeID) ∈ o ∧
      ∀ s, w.store event.executionID = some s → names s.graph (event.data.get "next_node")
  | .cancelExecution _ | .deadlineExceeded _ => True
  | .nodeExecution _ _ => False

/-- The envelopes in flight once `op` has answered its own: a completion answers the envelope
of its node. -/
def Op.answer (o : List (ExecId × NodeId)) : Op → List (ExecId × NodeId)
  | .nodeCompleted event =>
    match event.data.get "node_id" with
    | .str nodeID => o.erase (event.executionID, nodeID)
    | _ => o
  | _ => o

/-- The runs of the protocol, the store and the bus succeeding, with the work envelopes in
flight beside each world: each step answers its own envelope, if it is a completion, and adds
the work envelopes it publishes. -/
inductive Answered (admits : Graph → Prop) (names : Graph → Json → Prop) :
    Sys → List (ExecId × NodeId) → Prop
  | init : Answered admits names Sys.init []
  | step {w w' : Sys} {o : List (ExecId × NodeId)} (op : Op) (fuel clock : ℕ) :
      Answered admits names w o → op.Admissible w → op.Answers admits names w o →
      (op.prog fuel).run { w with clock, faults := [] } = .ok ((), w') →
      Answered admits names w' (op.answer o ++ w.newWork w')

section Protocol

variable {admits : Graph → Prop} {names : Graph → Json → Prop}

/-- A run of the protocol is a run of the system. -/
theorem Answered.reachable {w : Sys} {o : List (ExecId × NodeId)}
    (h : Answered admits names w o) : Reachable .reliable w := by
  induction h with
  | init => exact .init
  | step op fuel clock _ hadm _ hrun ih => exact ih.step (.mk op fuel clock [] hadm rfl hrun)

/-! ### What a step does -/

/-- What one step of the protocol does to the store and to the envelopes in flight. -/
inductive Move (admits : Graph → Prop) (names : Graph → Json → Prop) (w w' : Sys)
    (o o' : List (ExecId × NodeId)) : Prop
  /-- A submission of an admitted graph under an id with no record: the initial record follows
  the dispatch plan of the entry node. -/
  | submit {k : ExecId} {g : Graph} {inputs : JsonMap} {t : ℕ} {W : Write} {out : Outcome}
      {final : GraphState} :
      admits g → w.store k = none → Chain g g.entryNode W out →
      final.untimed = W.apply (initialState k g inputs t).untimed → final.graphID = k →
      final.graph = g → w'.store = (w.save final).store → o' = o ++ out.sent k →
      Move admits names w w' o o'
  /-- The completion of the node `n` of `k`, whose envelope is in flight: the record follows
  the plan of the completion. -/
  | complete {k : ExecId} {n : NodeId} {event : Envelope} {s final : GraphState} {W : Write}
      {out : Outcome} :
      (k, n) ∈ o → w.store k = some s → names s.graph (event.data.get "next_node") →
      Plan s.graph event n W out → final.untimed = W.apply s.untimed → final.graphID = k →
      final.graph = s.graph → w'.store = (w.save final).store →
      o' = o.erase (k, n) ++ out.sent k → Move admits names w w' o o'
  /-- A cancellation or a deadline ends the record of `k`. -/
  | finish {k : ExecId} {s final : GraphState} :
      w.store k = some s → final.graphID = k → final.graph = s.graph →
      final.status.isTerminal → w'.store = (w.save final).store → o' = o →
      Move admits names w w' o o'
  /-- Nothing is stored and nothing sent. -/
  | frame : w'.store = w.store → o' = o → Move admits names w w' o o'

/-- At most one envelope of `k` is in flight, for an executor or a router of its record. -/
def Sole (w : Sys) (o : List (ExecId × NodeId)) (k : ExecId) : Prop :=
  ∀ n ∈ flightOf o k, flightOf o k = [n] ∧ ∃ s node, w.store k = some s ∧
    s.graph.getNode n = some node ∧ (workTopic node.getType).isSome

/-- What every run of the protocol keeps: stored graphs are admitted, and each execution has at
most one envelope in flight, for an executor or a router of its record. -/
structure Flight (admits : Graph → Prop) (w : Sys) (o : List (ExecId × NodeId)) : Prop where
  admitted : ∀ k s, w.store k = some s → admits s.graph
  sole : ∀ k, Sole w o k

/-- A `Running` record has an envelope in flight. -/
def Busy (w : Sys) (o : List (ExecId × NodeId)) : Prop :=
  ∀ k s, w.store k = some s → s.status = .running → flightOf o k ≠ []

theorem Sole.frame {w w' : Sys} {o o' : List (ExecId × NodeId)} {k : ExecId} (h : Sole w o k)
    (hs : w'.store k = w.store k) (ho : flightOf o' k = flightOf o k) : Sole w' o' k := by
  rw [Sole, ho, hs]
  exact h

/-- The envelopes of `k` stay sole when its record keeps its graph. -/
theorem Sole.of_graph {w w' : Sys} {o : List (ExecId × NodeId)} {k : ExecId} {s final : GraphState}
    (h : Sole w o k) (hs : w.store k = some s) (hs' : w'.store k = some final)
    (hg : final.graph = s.graph) : Sole w' o k := by
  intro n hn
  obtain ⟨hone, s₀, node, hs₀, hn', ht⟩ := h n hn
  obtain rfl : s₀ = s := Option.some.inj (hs₀.symm.trans hs)
  exact ⟨hone, final, node, hs', hg ▸ hn', ht⟩

/-- Nothing is in flight for an execution with no record. -/
theorem Sole.flightOf_eq_nil {w : Sys} {o : List (ExecId × NodeId)} {k : ExecId} (h : Sole w o k)
    (hk : w.store k = none) : flightOf o k = [] := by
  refine List.eq_nil_iff_forall_not_mem.mpr fun n hn => ?_
  obtain ⟨-, s, -, hs, -⟩ := h n hn
  simp [hk] at hs

/-- The envelope an outcome fitting the graph of `final` sends is sole. -/
theorem Outcome.sole_sent {w' : Sys} {o' : List (ExecId × NodeId)} {k : ExecId} {out : Outcome}
    {final : GraphState} (hf : out.Fits final.graph) (hs : w'.store k = some final)
    (ho : flightOf o' k = flightOf (out.sent k) k) : Sole w' o' k := by
  intro n hn
  rw [ho] at hn ⊢
  cases out with
  | work topic nodeID node =>
    obtain ⟨hn', ht⟩ := hf
    simp only [sent, flightOf, if_true, List.filterMap_cons, List.filterMap_nil,
      List.mem_singleton] at hn ⊢
    subst hn
    exact ⟨rfl, final, node, hs, hn', by simp [ht]⟩
  | idle | finish => simp [sent] at hn

/-- An outcome that is not idle either sends work or ends the record. -/
theorem Outcome.sent_ne_nil {out : Outcome} {g : Graph} {final : GraphState} {k : ExecId}
    {st : ExecutionStatus} (hf : out.Fits g) (hne : out ≠ .idle)
    (hst : final.status = out.status.getD st) (hr : final.status = .running) :
    flightOf (out.sent k) k ≠ [] := by
  cases out with
  | idle => exact absurd rfl hne
  | work => simp [sent, flightOf]
  | finish st' =>
    simp only [status, Option.getD_some] at hst
    simp [Fits, ← hst, hr, ExecutionStatus.isTerminal] at hf

/-- A step that writes the record of `k` alone, keeps it admitted and its envelopes sole, and
changes the envelopes of no other execution keeps `Flight`. -/
theorem Flight.write {w w' : Sys} {o o' : List (ExecId × NodeId)} {k : ExecId}
    {final : GraphState} (hf : Flight admits w o) (hid : final.graphID = k)
    (hs : w'.store = (w.save final).store) (hadm : admits final.graph) (hk : Sole w' o' k)
    (ho : ∀ j ≠ k, flightOf o' j = flightOf o j) : Flight admits w' o' := by
  subst hid
  refine ⟨fun j r hr => ?_, fun j => ?_⟩
  · rw [hs, Sys.save_store] at hr
    split at hr
    · cases hr
      exact hadm
    · exact hf.admitted j r hr
  · by_cases hj : j = final.graphID
    · exact hj ▸ hk
    · exact (hf.sole j).frame (by rw [hs, Sys.save_store_of_ne _ _ hj]) (ho j hj)

/-- The same for `Busy`. -/
theorem Busy.write {w w' : Sys} {o o' : List (ExecId × NodeId)} {k : ExecId} {final : GraphState}
    (hb : Busy w o) (hid : final.graphID = k) (hs : w'.store = (w.save final).store)
    (hk : final.status = .running → flightOf o' k ≠ [])
    (ho : ∀ j ≠ k, flightOf o' j = flightOf o j) : Busy w' o' := by
  subst hid
  intro j r hr
  rw [hs, Sys.save_store] at hr
  split at hr
  · cases hr
    rename_i hj
    exact hj ▸ hk
  · rename_i hj
    rw [ho j hj]
    exact hb j r hr

/-- **A step keeps `Flight`.** -/
theorem Flight.move {w w' : Sys} {o o' : List (ExecId × NodeId)} (hf : Flight admits w o)
    (hm : Move admits names w w' o o') : Flight admits w' o' := by
  cases hm with
  | @submit k g _ _ W out final hadm hk hc _ hid hg hs ho =>
    refine hf.write hid hs (hg ▸ hadm) (Outcome.sole_sent (hg ▸ hc.fits) ?_ ?_) fun j hj => ?_
    · rw [hs, ← hid, Sys.save_store_self]
    · simp [ho, (hf.sole k).flightOf_eq_nil hk]
    · simp [ho, out.flightOf_sent_of_ne hj]
  | @complete k n _ s final W out hin hs' _ hp _ hid hg hs ho =>
    have hone := ((hf.sole k) n (mem_flightOf.mpr hin)).1
    refine hf.write hid hs (hg ▸ hf.admitted k s hs') (Outcome.sole_sent (hg ▸ hp.fits) ?_ ?_)
      fun j hj => ?_
    · rw [hs, ← hid, Sys.save_store_self]
    · simp [ho, flightOf_erase, hone]
    · simp [ho, flightOf_erase, out.flightOf_sent_of_ne hj, hj]
  | @finish k s final hs' hid hg _ hs ho =>
    subst ho
    refine hf.write hid hs (hg ▸ hf.admitted k s hs') ((hf.sole k).of_graph hs' ?_ hg)
      fun _ _ => rfl
    rw [hs, ← hid, Sys.save_store_self]
  | frame hs ho =>
    subst ho
    exact ⟨fun k s h => hf.admitted k s (hs ▸ h), fun k => (hf.sole k).frame (by rw [hs]) rfl⟩

/-- **A step keeps `Busy`** on well-formed graphs, with completions whose `next_node` names a
node. -/
theorem Busy.move (hwf : ∀ g, admits g → WellFormed g)
    (hnn : ∀ g j, names g j → NamesNode g j) {w w' : Sys} {o o' : List (ExecId × NodeId)}
    (hf : Flight admits w o) (hb : Busy w o)
    (hm : Move admits names w w' o o') : Busy w' o' := by
  cases hm with
  | @submit k g _ _ W out final hadm _ hc hu hid _ hs ho =>
    refine hb.write hid hs (fun hr => ?_) fun j hj => by simp [ho, out.flightOf_sent_of_ne hj]
    have hne := hc.ne_idle (hwf g hadm) (hwf g hadm).entry
    rw [ho, flightOf_append]
    exact List.append_ne_nil_of_right_ne_nil _
      (Outcome.sent_ne_nil hc.fits hne (Outcome.status_of_untimed hc.status_eq hu) hr)
  | @complete k n _ s final W out _ hs' hnames hp hu hid _ hs ho =>
    refine hb.write hid hs (fun hr => ?_) fun j hj => by
      simp [ho, flightOf_erase, out.flightOf_sent_of_ne hj, hj]
    have hne := hp.ne_idle (hwf _ (hf.admitted k s hs')) (hnn _ _ hnames)
    rw [ho, flightOf_append]
    exact List.append_ne_nil_of_right_ne_nil _
      (Outcome.sent_ne_nil hp.fits hne (Outcome.status_of_untimed hp.status_eq hu) hr)
  | finish _ hid _ ht hs ho =>
    subst ho
    exact hb.write hid hs (fun hr => by simp [hr, ExecutionStatus.isTerminal] at ht) fun _ _ => rfl
  | frame hs ho =>
    subst ho
    exact fun k s h => hb k s (hs ▸ h)

/-! ### Each operation as a move -/

variable {w w' : Sys} {o : List (ExecId × NodeId)}

theorem Move.of_frame (hs : w'.store = w.store) (hb : w'.bus = w.bus) :
    Move admits names w w' o (o ++ w.newWork w') :=
  .frame hs (by simp [Sys.newWork, hb])

theorem Move.of_end {k : ExecId} {s : GraphState} (final : GraphState) {ps : List Publication}
    (hs : w.store k = some s) (hid : final.graphID = k) (hg : final.graph = s.graph)
    (ht : final.status.isTerminal) (hst : w'.store = (w.save final).store)
    (hb : w'.bus = w.bus ++ ps) (hps : ∀ p ∈ ps, p.topic = topicGraphEvents) :
    Move admits names w w' o (o ++ w.newWork w') :=
  .finish hs hid hg ht hst (by
    rw [Sys.newWork_of_bus hb, List.filterMap_eq_nil_iff.mpr fun p hp =>
      Publication.work?_of_graphEvents (hps p hp), List.append_nil])

/-- A submission, as a move. -/
theorem move_submit {k : ExecId} {g : Graph} {inputs : JsonMap} {fuel clock : ℕ}
    {r : ExecId × Option String} (hk : w.store k = none) (hadm : admits g)
    (hrun : (submitGraph fuel k g inputs).run { w with clock, faults := [] } = .ok (r, w')) :
    Move admits names w w' o (o ++ w.newWork w') := by
  cases hv : Validator.validate (some g) with
  | some err =>
    rw [submitGraph_run_of_invalid fuel k inputs hv] at hrun
    obtain ⟨-, rfl⟩ := Prod.mk.inj (Except.ok.inj hrun)
    exact .of_frame rfl rfl
  | none =>
    rw [submitGraph_run rfl fuel k inputs hv] at hrun
    obtain ⟨⟨_, u₁⟩, hp, he⟩ := Except.exists_of_bind_eq_ok hrun
    obtain ⟨-, rfl⟩ := Prod.mk.inj (Except.ok.inj he)
    obtain ⟨W, out, hc, final, hu, hid, hg, rfl⟩ :=
      (publishNodeWork_sound rfl hp).chain (by simp)
    refine .submit hadm hk hc hu hid hg ?_ ?_
    · funext j
      simp only [Outcome.effect_store, Sys.emit_store, Sys.save_store, hid]
      split_ifs <;> rfl
    · simp [Sys.newWork, Outcome.work_pubs hc.fits, Publication.work?_of_graphEvents]

/-- A completion of a node in flight, as a move. -/
theorem move_complete {event : Envelope} {nodeID : NodeId} {fuel clock : ℕ} {r : Option String}
    (hr : Reachable .reliable w) (hf : Flight admits w o)
    (hid : event.data.get "node_id" = .str nodeID) (hin : (event.executionID, nodeID) ∈ o)
    (hnames : ∀ s, w.store event.executionID = some s →
      names s.graph (event.data.get "next_node"))
    (hrun : (handleNodeCompleted fuel event).run { w with clock, faults := [] } = .ok (r, w')) :
    Move admits names w w' o (o.erase (event.executionID, nodeID) ++ w.newWork w') := by
  obtain ⟨-, s, node, hs, hn, -⟩ := hf.sole _ nodeID (mem_flightOf.mpr hin)
  obtain ⟨W, out, hp, final, hu, hfid, hg, rfl⟩ :=
    (handleNodeCompleted_sound (w := { w with clock, faults := [] }) rfl hs
      (Completion.nodeID_ofEnvelope hid) ((storeInv_covered hr _ _ hs).lookup_isSome_of_getNode hn)
      hrun).plan
  refine .complete hin hs (hnames s hs) hp hu (hfid.trans (hr.keyed _ _ hs)) hg ?_ ?_
  · funext j
    simp [Sys.save_store]
  · simp [Sys.newWork, Outcome.work_pubs hp.fits]

/-- A cancellation, as a move. -/
theorem move_cancel {k : ExecId} {clock : ℕ} {r : Option String} (hr : Reachable .reliable w)
    (hrun : (cancelExecution k).run { w with clock, faults := [] } = .ok (r, w')) :
    Move admits names w w' o (o ++ w.newWork w') := by
  rw [cancelExecution_run rfl] at hrun
  split at hrun
  · obtain ⟨-, rfl⟩ := Prod.mk.inj (Except.ok.inj hrun)
    exact .of_frame rfl rfl
  split at hrun
  · obtain ⟨-, rfl⟩ := Prod.mk.inj (Except.ok.inj hrun)
    exact .of_frame rfl rfl
  split at hrun
  · obtain ⟨-, rfl⟩ := Prod.mk.inj (Except.ok.inj hrun)
    exact .of_frame rfl rfl
  · rename_i s hs
    obtain ⟨-, rfl⟩ := Prod.mk.inj (Except.ok.inj hrun)
    refine .of_end { s with status := .cancelled, completedAt := some clock } hs (hr.keyed k s hs)
      rfl rfl ?_ rfl (by simp)
    funext j
    simp [Sys.save_store]

/-- The expiry of a deadline, as a move. -/
theorem move_deadline {k : ExecId} {clock : ℕ} (hr : Reachable .reliable w)
    (hrun : (monitorExecution k).run { w with clock, faults := [] } = .ok ((), w')) :
    Move admits names w w' o (o ++ w.newWork w') := by
  rw [monitorExecution_run rfl] at hrun
  split at hrun
  · split at hrun
    · split at hrun
      · obtain ⟨-, rfl⟩ := Prod.mk.inj (Except.ok.inj hrun)
        exact .of_frame rfl rfl
      · rename_i s hs
        obtain ⟨-, rfl⟩ := Prod.mk.inj (Except.ok.inj hrun)
        refine .of_end (completedState s .failed "execution timeout" clock) hs (hr.keyed k s hs)
          rfl rfl ?_ rfl (by simp)
        funext j
        simp [completeEffect, Sys.save_store]
    · obtain ⟨-, rfl⟩ := Prod.mk.inj (Except.ok.inj hrun)
      exact .of_frame rfl rfl
  · obtain ⟨-, rfl⟩ := Prod.mk.inj (Except.ok.inj hrun)
    exact .of_frame rfl rfl

/-- **What a step of the protocol does**: one of the four moves. -/
theorem move_of_answers {op : Op} {fuel clock : ℕ} (hr : Reachable .reliable w)
    (hf : Flight admits w o) (hop : op.Admissible w) (ha : op.Answers admits names w o)
    (hrun : (op.prog fuel).run { w with clock, faults := [] } = .ok ((), w')) :
    Move admits names w w' o (op.answer o ++ w.newWork w') := by
  cases op with
  | submitGraph k g inputs =>
    obtain ⟨_, hrun⟩ := Prog.run_discard hrun
    exact move_submit hop.1 ha hrun
  | nodeCompleted event =>
    obtain ⟨nodeID, hid, hin, hnames⟩ := ha
    obtain ⟨_, hrun⟩ := Prog.run_discard hrun
    simp only [Op.answer, hid]
    exact move_complete hr hf hid hin hnames hrun
  | cancelExecution k =>
    obtain ⟨_, hrun⟩ := Prog.run_discard hrun
    exact move_cancel hr hrun
  | deadlineExceeded k => exact move_deadline hr hrun
  | nodeExecution => exact ha.elim

/-! ### Every run -/

/-- Every run of the protocol keeps `Flight`. -/
theorem Answered.flight (h : Answered admits names w o) : Flight admits w o := by
  induction h with
  | init => exact ⟨fun _ _ h => (by cases h), fun _ _ hn => (by simp at hn)⟩
  | step op fuel clock h hop ha hrun ih =>
    exact ih.move (move_of_answers h.reachable ih hop ha hrun)

/-- Every run of the protocol on well-formed graphs, with completions whose `next_node` names
a node, keeps `Busy`. -/
theorem Answered.busy (hwf : ∀ g, admits g → WellFormed g)
    (hnn : ∀ g j, names g j → NamesNode g j) (h : Answered admits names w o) : Busy w o := by
  induction h with
  | init => exact fun _ _ h => by cases h
  | step op fuel clock h hop ha hrun ih =>
    exact ih.move hwf hnn h.flight (move_of_answers h.reachable h.flight hop ha hrun)

end Protocol

/-! ### Dispatches that send nothing -/

/-- A graph with no entry node. -/
def noEntryGraph : Graph :=
  { id := "g", version := "1", nodes := [("B", some ⟨.executor, none⟩)],
    nodes_nodup := by decide, edges := [], entryNode := "" }

/-- A graph whose start node has no outgoing edge. -/
def deadStartGraph : Graph :=
  { id := "g", version := "1",
    nodes := [("A", some ⟨.start, none⟩), ("B", some ⟨.executor, none⟩)],
    nodes_nodup := by decide, edges := [], entryNode := "A" }

/-- A start node, a router `R` and an executor `X`, in a line. -/
def routerGraph : Graph :=
  { id := "g", version := "1",
    nodes := [("A", some ⟨.start, none⟩), ("R", some ⟨.router, none⟩),
      ("X", some ⟨.executor, none⟩)],
    nodes_nodup := by decide, edges := [⟨"A", "R"⟩, ⟨"R", "X"⟩], entryNode := "A" }

/-- The record of `x` is `Running`, of the graph `g`, and nothing of `x` is in flight. -/
def StalledOn (g : Graph) (w : Sys) (o : List (ExecId × NodeId)) : Prop :=
  ∃ s, w.store "x" = some s ∧ s.graph = g ∧ s.status = .running ∧ flightOf o "x" = []

/-- **A `Running` record with nothing in flight.** On graphs the validator accepts, with any
`next_node`: the submission of a graph with no entry node, or of one whose start node has no
outgoing edge, sends nothing; the completion of the router `R` naming the node `Z`, which the
graph lacks, sends nothing. Each leaves the record `Running` for its deadline to fail. -/
theorem dispatch_stalls :
    (∃ w o, Answered (fun g => Validator.validate (some g) = none) (fun _ _ => True) w o ∧
      StalledOn noEntryGraph w o) ∧
    (∃ w o, Answered (fun g => Validator.validate (some g) = none) (fun _ _ => True) w o ∧
      StalledOn deadStartGraph w o) ∧
    (∃ w o, Answered (fun g => Validator.validate (some g) = none) (fun _ _ => True) w o ∧
      StalledOn routerGraph w o) :=
  ⟨⟨_, _, .step (.submitGraph "x" noEntryGraph []) 1 0 .init ⟨rfl, rfl⟩ rfl rfl,
      _, rfl, rfl, rfl, by decide⟩,
   ⟨_, _, .step (.submitGraph "x" deadStartGraph []) 1 0 .init ⟨rfl, rfl⟩ rfl rfl,
      _, rfl, rfl, rfl, by decide⟩,
   ⟨_, _, .step (.nodeCompleted (completionOf "R" [("next_node", .str "Z")])) 3 1
      (.step (.submitGraph "x" routerGraph []) 3 0 .init ⟨rfl, rfl⟩ rfl rfl) trivial
      ⟨"R", rfl, by decide, fun _ _ => trivial⟩ rfl, _, rfl, rfl, rfl, by decide⟩⟩

end Dago
