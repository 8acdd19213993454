import Mathlib.Data.List.Nodup
import Mathlib.Data.List.Perm.Subperm
import Mathlib.Logic.Relation
import Dago.InFlight

/-!
# When a Dispatch Returns

`publishNodeWork` recurses through start nodes: a start node hands the dispatch to its
first-edge successor (`handOff`), and every other node ends it. The save before the hand-off
is only logged, so the recursion goes on whatever the store answers. On a record with a node
state for every node, a dispatch returns exactly when its chain of hand-offs ends
(`publishNodeWork_returns_iff`), and `SubmitGraph` of an accepted graph, with the store and the
bus succeeding, returns exactly when the chain from the entry node ends
(`submitGraph_returns_iff`). Otherwise the dispatch runs out of every fuel
(`publishNodeWork_outOfFuel`): the Go code recurses until its stack overflows.

The package documentation says that the validator ensures graphs have no cycles. On a graph
with no cycle of edges the chain ends within as many hand-offs as the graph has nodes
(`handsOffWithin_of_acyclic`), since a longer chain visits some node twice; every submission
of such a graph returns (`submitGraph_returns_of_acyclic`). `Validate` does not look for
cycles, so this is not so of every graph it accepts.

## Work in flight

The protocol of `Dago.InFlight` has a step only for an operation that returns. When the chain
of hand-offs from every node of every admitted graph ends, every operation the protocol allows
returns (`Answered.returns`): a submission dispatches its entry node, a completion its
successor, and a cancellation and a deadline do not recurse. So the invariants of those runs
hold of every run of the code (`answered_in_flight`). A graph whose chain loops, such as
`startSelfLoop` of `Dago.Dispatch`, which the validator accepts, saves its `Running` record and
then never returns from `SubmitGraph`: the record stays with nothing in flight.

## Main results

* `publishNodeWork_returns_iff`, `submitGraph_returns_iff`: a dispatch returns exactly when its
  chain of hand-offs ends.
* `submitGraph_returns_of_acyclic`: on a graph without a cycle, `SubmitGraph` returns.
* `answered_in_flight`: one envelope in flight per `Running` execution, and every step of the
  protocol returns, under the conditions above.
-/

namespace Dago

/-! ### Programs that return -/

/-- A program none of whose paths halts. -/
inductive Prog.Total {α : Type} : Prog α → Prop
  | pure {a : α} : Total (.pure a)
  | getState {id k} : (∀ r, Total (k r)) → Total (.getState id k)
  | saveState {s k} : (∀ r, Total (k r)) → Total (.saveState s k)
  | publish {t e k} : (∀ r, Total (k r)) → Total (.publish t e k)
  | loadExecution {id k} : (∀ r, Total (k r)) → Total (.loadExecution id k)
  | modifyExecutions {f k} : Total k → Total (.modifyExecutions f k)
  | now {k} : (∀ t, Total (k t)) → Total (.now k)

namespace Prog.Total

variable {α β : Type}

/-- A total program returns from every world. -/
theorem run {p : Prog α} (hp : p.Total) (w : Sys) : ∃ a w', p.run w = .ok (a, w') := by
  induction hp generalizing w with
  | pure => exact ⟨_, _, rfl⟩
  | getState _ ih => exact ih _ _
  | saveState _ ih => exact ih _ _
  | publish _ ih => exact ih _ _
  | loadExecution _ ih => exact ih _ _
  | modifyExecutions _ ih => exact ih _
  | now _ ih => exact ih _ _

theorem bind {p : Prog α} {f : α → Prog β} (hp : p.Total) (hf : ∀ a, (f a).Total) :
    (p >>= f).Total := by
  induction hp with
  | pure => exact hf _
  | getState _ ih => exact .getState ih
  | saveState _ ih => exact .saveState ih
  | publish _ ih => exact .publish ih
  | loadExecution _ ih => exact .loadExecution ih
  | modifyExecutions _ ih => exact .modifyExecutions ih
  | now _ ih => exact .now ih

end Prog.Total

namespace Manager

open Prog

theorem publishWorkEvent_total (topic : String) (graphID : ExecId) (nodeID : NodeId)
    (node : Node) (state : GraphState) :
    (publishWorkEvent topic graphID nodeID node state).Total := by
  simp only [publishWorkEvent, publishGraphEvent, EventBus.publish_bind, bind_assoc]
  refine .publish fun r => ?_
  split <;> repeat' (first | intro _ | constructor)

theorem completeGraph_total (graphID : ExecId) (state : GraphState) (status : ExecutionStatus)
    (errorMsg : String) : (completeGraph graphID state status errorMsg).Total := by
  simp only [completeGraph, publishGraphEvent, bind_assoc, Time.now_bind, Storage.saveState_bind,
    Executions.load_bind, Executions.update_bind, Executions.delete_bind, pure_bind,
    EventBus.publish_bind]
  refine .now fun _ => .saveState fun _ => .loadExecution fun r => ?_
  split <;> repeat' (first | intro _ | constructor)

/-! ### The chain of hand-offs -/

/-- The node a dispatch of `nodeID` hands on to: the first-edge successor of a start node,
when it has one. -/
def handOff (g : Graph) (nodeID : NodeId) : Option NodeId :=
  match g.getNode nodeID with
  | some node =>
    if node.getType = .start ∧ findNextNode g nodeID ≠ "" then some (findNextNode g nodeID)
    else none
  | none => none

/-- The dispatch of `nodeID` hands on at most `k` times. -/
def handsOffWithin (g : Graph) : ℕ → NodeId → Bool
  | 0, nodeID => (handOff g nodeID).isNone
  | k + 1, nodeID =>
    match handOff g nodeID with
    | none => true
    | some next => handsOffWithin g k next

example : handsOffWithin linearGraph 1 linearGraph.entryNode = true := by decide

theorem handOff_eq_some {g : Graph} {nodeID next : NodeId} :
    handOff g nodeID = some next ↔ ∃ node, g.getNode nodeID = some node ∧
      node.getType = .start ∧ findNextNode g nodeID ≠ "" ∧ next = findNextNode g nodeID := by
  constructor
  · intro h
    unfold handOff at h
    split at h
    · rename_i node hn
      split_ifs at h with hc
      exact ⟨node, hn, hc.1, hc.2, (Option.some.inj h).symm⟩
    · cases h
  · rintro ⟨node, hn, hty, hnext, rfl⟩
    simp [handOff, hn, hty, hnext]

/-! ### A dispatch returns exactly when its chain ends -/

/-- One step of a dispatch: it returns when the dispatch it hands on to does. -/
theorem publishNodeWork_total_of_handOff {g : Graph} (graphID : ExecId) {fuel : ℕ}
    {nodeID : NodeId} {s : GraphState} (hg : s.graph = g) (hc : Covered s)
    (hnext : ∀ next, handOff g nodeID = some next →
      ∀ now, (publishNodeWork fuel graphID next (s.markRunning nodeID now)).Total) :
    (publishNodeWork (fuel + 1) graphID nodeID s).Total := by
  rw [publishNodeWork]
  cases hn : s.graph.getNode nodeID with
  | none => exact .pure
  | some node =>
    obtain ⟨ns, hns⟩ := hc.exists_nodeState_of_getNode hn
    simp only [hns, Time.now_bind, Storage.saveState_bind]
    refine .now fun now => .saveState fun _ => ?_
    split
    · exact publishWorkEvent_total _ _ _ _ _
    · exact publishWorkEvent_total _ _ _ _ _
    · exact (completeGraph_total _ _ _ _).bind fun _ => .pure
    · rename_i hty
      split
      · rename_i hne
        simp only [markRunning_graph, hg] at hne ⊢
        exact hnext _ (handOff_eq_some.mpr ⟨node, hg ▸ hn, hty, hne, rfl⟩) now
      · exact .pure

/-- **A chain that ends, a dispatch that returns.** On a record with a node state for every
node, a dispatch whose chain of hand-offs ends within `k` returns with `k + 1` fuel, whatever
the store and the bus answer. -/
theorem publishNodeWork_total {g : Graph} (graphID : ExecId) :
    ∀ (k : ℕ) {nodeID : NodeId} {s : GraphState}, s.graph = g → Covered s →
      handsOffWithin g k nodeID = true → (publishNodeWork (k + 1) graphID nodeID s).Total
  | 0, _, _, hg, hc, hk =>
    publishNodeWork_total_of_handOff graphID hg hc fun _ hoff => by
      simp [handsOffWithin, hoff] at hk
  | k + 1, _, _, hg, hc, hk =>
    publishNodeWork_total_of_handOff graphID hg hc fun _ hoff _ =>
      publishNodeWork_total graphID k (by simpa using hg) (hc.updateNode _ _)
        (by simpa [handsOffWithin, hoff] using hk)

/-- **A chain that never ends, a dispatch that never returns.** On a record with a node state
for every node, a dispatch whose chain of hand-offs does not end runs out of every fuel,
whatever the store and the bus answer. -/
theorem publishNodeWork_outOfFuel {g : Graph} (graphID : ExecId) :
    ∀ (fuel : ℕ) {nodeID : NodeId} {s : GraphState} (w : Sys), s.graph = g → Covered s →
      (∀ k, handsOffWithin g k nodeID = false) →
      (publishNodeWork fuel graphID nodeID s).run w = .error .outOfFuel
  | 0, _, _, _, _, _, _ => rfl
  | fuel + 1, nodeID, s, w, hg, hc, hk => by
    subst hg
    cases hoff : handOff s.graph nodeID with
    | none => simpa [handsOffWithin, hoff] using hk 0
    | some next =>
      obtain ⟨node, hn, hty, hnext, rfl⟩ := handOff_eq_some.mp hoff
      obtain ⟨ns, hns⟩ := hc.exists_nodeState_of_getNode hn
      simp only [publishNodeWork, hn, hns, hty, Time.now_bind, Storage.saveState_bind,
        Prog.run, markRunning_graph, ne_eq, hnext, not_false_eq_true, if_true]
      exact publishNodeWork_outOfFuel graphID fuel _ (markRunning_graph _ _ _)
        (hc.updateNode _ _) fun k => by simpa [handsOffWithin, hoff] using hk (k + 1)

/-- **A dispatch returns exactly when its chain of hand-offs ends**, on a record with a node
state for every node. -/
theorem publishNodeWork_returns_iff {g : Graph} (graphID : ExecId) {nodeID : NodeId}
    {s : GraphState} (w : Sys) (hg : s.graph = g) (hc : Covered s) :
    (∃ fuel r w', (publishNodeWork fuel graphID nodeID s).run w = .ok (r, w')) ↔
      ∃ k, handsOffWithin g k nodeID = true := by
  constructor
  · rintro ⟨fuel, r, w', h⟩
    refine Classical.byContradiction fun hk => ?_
    have hk' : ∀ k, handsOffWithin g k nodeID = false := fun k => by
      simpa using fun h => hk ⟨k, h⟩
    rw [publishNodeWork_outOfFuel graphID fuel w hg hc hk'] at h
    cases h
  · rintro ⟨k, hk⟩
    exact ⟨k + 1, (publishNodeWork_total graphID k hg hc hk).run w⟩

/-- **`SubmitGraph` returns exactly when the chain from the entry node ends.** With the store
and the bus succeeding, the submission of an accepted graph returns for some fuel exactly when
the dispatch of its entry node hands on finitely often. -/
theorem submitGraph_returns_iff {w : Sys} (hw : w.faults = []) (graphID : ExecId) {g : Graph}
    (inputs : JsonMap) (hv : Validator.validate (some g) = none) :
    (∃ fuel r w', (submitGraph fuel graphID g inputs).run w = .ok (r, w')) ↔
      ∃ k, handsOffWithin g k g.entryNode = true := by
  rw [← publishNodeWork_returns_iff (g := g) graphID _ rfl
    (covered_initialState graphID g inputs w.clock)]
  refine exists_congr fun fuel => ?_
  rw [submitGraph_run hw fuel graphID inputs hv]
  constructor
  · rintro ⟨r, w', h⟩
    obtain ⟨⟨r₁, w₁⟩, h₁, -⟩ := Except.exists_of_bind_eq_ok h
    exact ⟨r₁, w₁, h₁⟩
  · rintro ⟨r, w', h⟩
    exact ⟨_, _, by rw [h]; rfl⟩

theorem submitGraph_returns_iff_linear :
    Sys.init.faults = [] ∧ Validator.validate (some linearGraph) = none ∧
      ((∃ fuel r w', (submitGraph fuel "x" linearGraph []).run Sys.init = .ok (r, w')) ↔
        ∃ k, handsOffWithin linearGraph k linearGraph.entryNode = true) :=
  ⟨rfl, by decide, submitGraph_returns_iff rfl "x" [] (by decide)⟩

end Manager

/-! ### Graphs without a cycle -/

/-- The edges of a graph, as a relation on node ids. -/
def Graph.Edge (g : Graph) (x y : NodeId) : Prop := ∃ e ∈ g.edges, e.«from» = x ∧ e.«to» = y

/-- No node reaches itself along edges. -/
def Graph.Acyclic (g : Graph) : Prop := ∀ x, ¬Relation.TransGen g.Edge x x

/-- A graph whose every edge climbs a rank has no cycle. -/
theorem Graph.acyclic_of_rank {g : Graph} (f : NodeId → ℕ) (hf : ∀ x y, g.Edge x y → f x < f y) :
    g.Acyclic := by
  have hlt : ∀ {x y}, Relation.TransGen g.Edge x y → f x < f y := by
    intro x y h
    induction h with
    | single h => exact hf _ _ h
    | tail _ h ih => exact ih.trans (hf _ _ h)
  exact fun x hx => lt_irrefl _ (hlt hx)

/-- `linearGraph` climbs from `A` through `B` to `C`. -/
theorem Manager.linearGraph_acyclic : Manager.linearGraph.Acyclic := by
  refine Graph.acyclic_of_rank (fun n => if n = "A" then 0 else if n = "B" then 1 else 2) ?_
  rintro x y ⟨e, he, rfl, rfl⟩
  simp only [Manager.linearGraph, List.mem_cons, List.mem_singleton, List.not_mem_nil,
    or_false] at he
  rcases he with rfl | rfl <;> decide

namespace Manager

open Prog

/-- A hand-off follows the first edge out of a node. -/
theorem handOff_edge {g : Graph} {x y : NodeId} (h : handOff g x = some y) : g.Edge x y := by
  obtain ⟨_, -, -, hnext, rfl⟩ := handOff_eq_some.mp h
  unfold findNextNode at hnext ⊢
  cases he : g.getOutgoingEdges x with
  | nil => simp [he] at hnext
  | cons e _ =>
    have hmem : e ∈ g.getOutgoingEdges x := by rw [he]; exact List.mem_cons_self _ _
    obtain ⟨hmem, hfrom⟩ := List.mem_filter.mp hmem
    exact ⟨e, hmem, by simpa using hfrom, rfl⟩

/-- A node that hands on is a node of the graph. -/
theorem handOff_mem {g : Graph} {x y : NodeId} (h : handOff g x = some y) :
    x ∈ g.nodes.map Prod.fst := by
  obtain ⟨node, hn, -⟩ := handOff_eq_some.mp h
  exact List.mem_map.mpr ⟨_, Graph.mem_nodes_of_getNode hn, rfl⟩

/-- The node the dispatch of `nodeID` reaches after `k` hand-offs. -/
def chainAt (g : Graph) : ℕ → NodeId → Option NodeId
  | 0, nodeID => some nodeID
  | k + 1, nodeID => (handOff g nodeID).bind (chainAt g k)

theorem handsOffWithin_eq (g : Graph) :
    ∀ k nodeID, handsOffWithin g k nodeID = (chainAt g (k + 1) nodeID).isNone
  | 0, nodeID => by cases h : handOff g nodeID <;> simp [handsOffWithin, chainAt, h]
  | k + 1, nodeID => by
    simp only [handsOffWithin, chainAt]
    cases handOff g nodeID with
    | none => rfl
    | some next => exact handsOffWithin_eq g k next

theorem chainAt_succ (g : Graph) :
    ∀ k nodeID, chainAt g (k + 1) nodeID = (chainAt g k nodeID).bind (handOff g)
  | 0, nodeID => by simp [chainAt]
  | k + 1, nodeID => by
    show (handOff g nodeID).bind (chainAt g (k + 1)) =
      ((handOff g nodeID).bind (chainAt g k)).bind (handOff g)
    rw [Option.bind_assoc]
    exact congrArg _ (funext fun next => chainAt_succ g k next)

/-- Along the chain, each node reaches every later one by edges. -/
theorem chainAt_transGen {g : Graph} {nodeID : NodeId} {i : ℕ} {x : NodeId}
    (hx : chainAt g i nodeID = some x) :
    ∀ {j y}, i < j → chainAt g j nodeID = some y → Relation.TransGen g.Edge x y
  | j + 1, y, hij, hy => by
    rw [chainAt_succ] at hy
    obtain ⟨z, hz, hzy⟩ := Option.bind_eq_some.mp hy
    rcases Nat.lt_succ_iff_lt_or_eq.mp hij with hij | rfl
    · exact (chainAt_transGen hx hij hz).tail (handOff_edge hzy)
    · rw [hx] at hz
      cases hz
      exact .single (handOff_edge hzy)

/-- A chain that reaches a node reaches every node before it. -/
theorem chainAt_isSome_of_le {g : Graph} {nodeID : NodeId} {i j : ℕ} (hij : i ≤ j)
    (h : (chainAt g j nodeID).isSome) : (chainAt g i nodeID).isSome := by
  induction hij with
  | refl => exact h
  | step _ ih =>
    refine ih ?_
    rw [chainAt_succ] at h
    cases hm : chainAt g _ nodeID <;> simp_all

/-- A node of the chain before a node that exists hands on, so it is a node of the graph. -/
theorem chainAt_mem {g : Graph} {nodeID : NodeId} {k : ℕ}
    (hk : (chainAt g (k + 1) nodeID).isSome) {i : ℕ} (hi : i < k + 1) :
    ∃ x, chainAt g i nodeID = some x ∧ x ∈ g.nodes.map Prod.fst := by
  obtain ⟨y, hy⟩ := Option.isSome_iff_exists.mp (chainAt_isSome_of_le hi hk)
  rw [chainAt_succ] at hy
  obtain ⟨x, hx, hxy⟩ := Option.bind_eq_some.mp hy
  exact ⟨x, hx, handOff_mem hxy⟩

/-- **On a graph without a cycle, every chain ends** within as many hand-offs as the graph
has nodes: a longer chain visits some node twice, and the edges between the two visits are a
cycle. -/
theorem handsOffWithin_of_acyclic {g : Graph} (h : g.Acyclic) (nodeID : NodeId) :
    handsOffWithin g g.nodes.length nodeID = true := by
  rw [handsOffWithin_eq, Option.isNone_iff_eq_none]
  refine Classical.byContradiction fun hne => ?_
  have hsome := Option.ne_none_iff_isSome.mp hne
  have hmem := fun i (hi : i < g.nodes.length + 1) => chainAt_mem hsome hi
  -- The chain's first `length + 1` nodes, all nodes of the graph.
  let f : ℕ → NodeId := fun i => (chainAt g i nodeID).getD ""
  have hf : ∀ i < g.nodes.length + 1, chainAt g i nodeID = some (f i) := fun i hi => by
    obtain ⟨x, hx, -⟩ := hmem i hi
    simp [f, hx]
  have hsub : (List.range (g.nodes.length + 1)).map f ⊆ g.nodes.map Prod.fst := by
    intro x hx
    obtain ⟨i, hi, rfl⟩ := List.mem_map.mp hx
    obtain ⟨y, hy, hmy⟩ := hmem i (List.mem_range.mp hi)
    rw [hf i (List.mem_range.mp hi), Option.some.injEq] at hy
    exact hy ▸ hmy
  -- Two of them coincide.
  have hdup : ∃ i ∈ List.range (g.nodes.length + 1), ∃ j ∈ List.range (g.nodes.length + 1),
      f i = f j ∧ i ≠ j := by
    refine Classical.byContradiction fun hinj => ?_
    have hnd : ((List.range (g.nodes.length + 1)).map f).Nodup :=
      (List.nodup_range _).map_on fun i hi j hj hij =>
        Classical.byContradiction fun hne => hinj ⟨i, hi, j, hj, hij, hne⟩
    have := (hnd.subperm hsub).length_le
    simp only [List.length_map, List.length_range] at this
    omega
  obtain ⟨i, hi, j, hj, hij, hne⟩ := hdup
  rcases Nat.lt_or_gt_of_ne hne with hlt | hlt
  · exact h _ (hij ▸ chainAt_transGen (hf i (List.mem_range.mp hi)) hlt
      (hf j (List.mem_range.mp hj)))
  · exact h _ (hij ▸ chainAt_transGen (hf j (List.mem_range.mp hj)) hlt
      (hf i (List.mem_range.mp hi)))

/-- **On a graph without a cycle, `SubmitGraph` returns**, with as much fuel as the graph has
nodes and one more, whatever the store and the bus answer. -/
theorem submitGraph_returns_of_acyclic {g : Graph} (h : g.Acyclic) (graphID : ExecId)
    (inputs : JsonMap) (w : Sys) :
    ∃ r w', (submitGraph (g.nodes.length + 1) graphID g inputs).run w = .ok (r, w') := by
  refine Total.run ?_ w
  simp only [submitGraph, publishGraphEvent, Time.now_bind, Storage.saveState_bind,
    EventBus.publish_bind, Executions.store_bind, bind_assoc]
  split
  · exact .pure
  · refine .now fun now => .saveState fun r => ?_
    split
    · exact .pure
    · refine .publish fun r => ?_
      split
      · exact .pure
      · refine .now fun _ => .modifyExecutions (Total.bind (publishNodeWork_total graphID _ rfl
          (covered_initialState _ _ _ _) (handsOffWithin_of_acyclic h g.entryNode)) fun _ => .pure)

theorem submitGraph_returns_of_acyclic_linear :
    linearGraph.Acyclic ∧
      ∃ r w', (submitGraph (linearGraph.nodes.length + 1) "x" linearGraph []).run Sys.init =
        .ok (r, w') :=
  ⟨linearGraph_acyclic, submitGraph_returns_of_acyclic linearGraph_acyclic "x" [] Sys.init⟩

/-! ### Every step of the protocol returns -/

theorem cancelExecution_total (graphID : ExecId) : (cancelExecution graphID).Total := by
  simp only [cancelExecution, publishGraphEvent, Executions.load_bind, Executions.update_bind,
    Storage.getState_bind, Time.now_bind, Storage.saveState_bind, EventBus.publish_bind,
    Executions.delete_bind, Prog.bind_assoc]
  refine .loadExecution fun r => ?_
  repeat' (first | intro _ | split | constructor)

theorem monitorExecution_total (graphID : ExecId) : (monitorExecution graphID).Total := by
  simp only [monitorExecution, handleTimeout, Executions.load_bind, Executions.update_bind,
    Storage.getState_bind]
  refine .loadExecution fun r => ?_
  split
  · split
    · refine .modifyExecutions (.getState fun r => ?_)
      split
      · exact .pure
      · exact completeGraph_total _ _ _ _
    · exact .pure
  · exact .pure

/-- **A completion returns** when the record it reads covers its graph and the chain of
hand-offs from every node of the graph ends, the store and the bus succeeding. -/
theorem handleNodeCompleted_returns {w : Sys} (hw : w.faults = []) (event : Envelope)
    (hs : ∀ s, w.store event.executionID = some s →
      Covered s ∧ ∀ n, ∃ i, handsOffWithin s.graph i n = true) :
    ∃ fuel r w', (handleNodeCompleted fuel event).run w = .ok (r, w') := by
  cases hst : w.store event.executionID with
  | none => exact ⟨0, _, _, handleNodeCompleted_run_of_store_none 0 hw hst⟩
  | some s =>
    cases hn : s.nodeStates.lookup (Completion.ofEnvelope event).nodeID with
    | none => exact ⟨0, _, _, handleNodeCompleted_run_of_lookup_none 0 hw hst hn⟩
    | some ns =>
      obtain ⟨hcov, hend⟩ := hs s hst
      -- The dispatch of the successor returns, for some fuel.
      obtain ⟨fuel, _, _, hp⟩ := (publishNodeWork_returns_iff event.executionID
        (w.save (s.completeNode (Completion.ofEnvelope event).nodeID (event.data.get "output")
          w.clock)) (completeNode_graph ..) (hcov.updateNode _ _)).mpr (hend _)
      refine ⟨fuel, ?_⟩
      rw [handleNodeCompleted_run fuel hw hst rfl (by simp [hn])]
      split
      · exact ⟨_, _, rfl⟩
      · split
        · exact ⟨_, _, rfl⟩
        · exact ⟨_, _, by rw [hp]; rfl⟩

end Manager

open Manager

/-- **Every step the protocol allows returns**, once the chains of hand-offs of the admitted
graphs end: a submission, a completion of a node in flight, a cancellation and a deadline all
return, for enough fuel, so the runs of `Answered` are all the runs of the protocol. -/
theorem Answered.returns {admits : Graph → Prop} {names : Graph → Json → Prop}
    (hend : ∀ g, admits g → ∀ n, ∃ i, handsOffWithin g i n = true) {w : Sys}
    {o : List (ExecId × NodeId)} (h : Answered admits names w o) {op : Op} (clock : ℕ)
    (ha : op.Answers admits names w o) :
    ∃ fuel w', (op.prog fuel).run { w with clock, faults := [] } = .ok ((), w') := by
  cases op with
  | submitGraph k g inputs =>
    obtain ⟨fuel, r, w', hrun⟩ : ∃ fuel r w',
        (submitGraph fuel k g inputs).run { w with clock, faults := [] } = .ok (r, w') := by
      cases hv : Validator.validate (some g) with
      | some err => exact ⟨0, _, _, submitGraph_run_of_invalid 0 k inputs hv⟩
      | none => exact (submitGraph_returns_iff rfl k inputs hv).mpr (hend g ha g.entryNode)
    exact ⟨fuel, w', Prog.run_discard_of_run hrun⟩
  | nodeCompleted event =>
    obtain ⟨fuel, r, w', hrun⟩ := handleNodeCompleted_returns (w := { w with clock, faults := [] })
      rfl event fun s hs =>
        ⟨storeInv_covered h.reachable _ _ hs, hend _ (h.flight.admitted _ _ hs)⟩
    exact ⟨fuel, w', Prog.run_discard_of_run hrun⟩
  | cancelExecution k =>
    obtain ⟨r, w', hrun⟩ := (cancelExecution_total k).run { w with clock, faults := [] }
    exact ⟨0, w', Prog.run_discard_of_run hrun⟩
  | deadlineExceeded k =>
    obtain ⟨⟨⟩, w', hrun⟩ := (monitorExecution_total k).run { w with clock, faults := [] }
    exact ⟨0, w', hrun⟩
  | nodeExecution => exact ha.elim

/-- **Work in flight.** In every run of the protocol, with the store and the bus succeeding and
every work envelope answered once by a completion of its node, each execution has at most one
envelope in flight, for an executor or a router of its record. When every submitted graph is
well-formed and every non-empty `next_node` names a node, a `Running` record has exactly one.
When moreover the chain of hand-offs from every node of a submitted graph ends, every step the
protocol allows returns, so no run of the code leaves these runs: a graph whose chain does not
end, such as `startSelfLoop`, leaves its `Running` record behind with nothing in flight while
its submission recurses. -/
theorem answered_in_flight {admits : Graph → Prop} {names : Graph → Json → Prop} {w : Sys}
    {o : List (ExecId × NodeId)} (h : Answered admits names w o) (k : ExecId) :
    (∀ n ∈ flightOf o k, flightOf o k = [n] ∧ ∃ s node, w.store k = some s ∧
      s.graph.getNode n = some node ∧ (workTopic node.getType).isSome) ∧
    ((∀ g, admits g → WellFormed g) → (∀ g j, names g j → NamesNode g j) →
      ∀ s, w.store k = some s → s.status = .running →
        ∃ n node, flightOf o k = [n] ∧ s.graph.getNode n = some node ∧
          (workTopic node.getType).isSome) ∧
    ((∀ g, admits g → ∀ n, ∃ i, handsOffWithin g i n = true) →
      ∀ (op : Op) (clock : ℕ), op.Answers admits names w o →
        ∃ fuel w', (op.prog fuel).run { w with clock, faults := [] } = .ok ((), w')) := by
  refine ⟨h.flight.sole k, fun hwf hnn s hs hrun => ?_,
    fun hend _ clock ha => h.returns hend clock ha⟩
  obtain ⟨n, hn⟩ := List.exists_mem_of_ne_nil _ (h.busy hwf hnn k s hs hrun)
  obtain ⟨hone, s', node, hs', hnode, ht⟩ := h.flight.sole k n hn
  obtain rfl : s' = s := Option.some.inj (hs'.symm.trans hs)
  exact ⟨n, node, hone, hnode, ht⟩

/-- The protocol that admits `linearGraph` alone: once `x` is submitted, `B` is the one node in
flight, and every step the protocol allows returns. -/
theorem answered_in_flight_linear :
    ∃ w o, Answered (· = linearGraph) NamesNode w o ∧ flightOf o "x" = ["B"] ∧
      (∀ n ∈ flightOf o "x", flightOf o "x" = [n] ∧ ∃ s node, w.store "x" = some s ∧
        s.graph.getNode n = some node ∧ (workTopic node.getType).isSome) ∧
      (∀ s, w.store "x" = some s → s.status = .running →
        ∃ n node, flightOf o "x" = [n] ∧ s.graph.getNode n = some node ∧
          (workTopic node.getType).isSome) ∧
      ∀ (op : Op) (clock : ℕ), op.Answers (· = linearGraph) NamesNode w o →
        ∃ fuel w', (op.prog fuel).run { w with clock, faults := [] } = .ok ((), w') := by
  have h : Answered (· = linearGraph) NamesNode _ _ :=
    .step (.submitGraph "x" linearGraph []) 3 0 .init ⟨rfl, rfl⟩ rfl rfl
  obtain ⟨h₁, h₂, h₃⟩ := answered_in_flight h "x"
  exact ⟨_, _, h, by decide, h₁,
    h₂ (fun g hg => by subst hg; decide) fun _ _ hj => hj,
    h₃ fun g hg n => ⟨_, by subst hg; exact handsOffWithin_of_acyclic linearGraph_acyclic n⟩⟩

end Dago
