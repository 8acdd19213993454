import Dago.Completion

/-!
# The Call Discipline of the Handlers

A handler acts on the world only through its calls: it loads and saves records, reads and
updates the manager's `executions` map, and publishes on the bus. `Prog.Guards P G T` is a
program logic over those calls, the companion of `Prog.Keeps` with two more resources: every
record the program saves satisfies `P` provided every record it loads does, every update it
makes of the tracker keeps `G`, and every publication it makes satisfies `T`, whatever its
calls answer. A world in which the store, the tracker and the bus satisfy the three
(`Sys.Obeys`) stays so, run atomically or call by call.

Each function of the manager and of the worker guards every discipline that admits the writes
it makes. The manager's dispatch and ending writes mark a node `Running` or move the record to
a terminal status (`Dispatchable`), and it publishes work on `executor.work` and `router.work`
and informational events on `graph.events` (`ManagerTopics`). A completion and a worker update
node states, and a worker publishes its events on `node.events` as plain maps with no
`node_id`. The tracker's discipline is `TrackerInv p` for a property `p` of single entries that
each update of the code keeps (`EntryStable`).

## Main results

* `Prog.Guards.run`, `Prog.Guards.step`: soundness of the logic, run atomically or call by
  call.
* `Op.prog_guards`: every operation guards every discipline that admits its writes, a
  submission provided its initial record and its fresh entry are admitted.
-/

namespace Dago

/-- The `executions` map of the manager. -/
abbrev Tracker := ExecId → Option ExecutionContext

/-- `p.Guards P G T`: every record `p` saves satisfies `P` provided every record it loads
does, every change it makes to the tracker keeps `G`, and every publication it makes satisfies
`T`, whatever its calls answer. -/
inductive Prog.Guards (P : GraphState → Prop) (G : Tracker → Prop) (T : Publication → Prop)
    {α : Type} : Prog α → Prop
  | pure {a : α} : Guards P G T (.pure a)
  | halt {h : Halt} : Guards P G T (.halt h)
  | getState {id k} : (∀ r, (∀ s, r = .ok s → P s) → Guards P G T (k r)) →
      Guards P G T (.getState id k)
  | saveState {s k} : P s → (∀ r, Guards P G T (k r)) → Guards P G T (.saveState s k)
  | publish {t e k} : T ⟨t, e⟩ → (∀ r, Guards P G T (k r)) → Guards P G T (.publish t e k)
  | loadExecution {id k} : (∀ r, Guards P G T (k r)) → Guards P G T (.loadExecution id k)
  | modifyExecutions {f k} : (∀ t, G t → G (f t)) → Guards P G T k →
      Guards P G T (.modifyExecutions f k)
  | now {k} : (∀ t, Guards P G T (k t)) → Guards P G T (.now k)

/-- The world keeps the discipline: every record satisfies `P`, the tracker `G`, and every
publication on the bus `T`. -/
structure Sys.Obeys (P : GraphState → Prop) (G : Tracker → Prop) (T : Publication → Prop)
    (w : Sys) : Prop where
  store : StoreInv P w
  tracker : G w.executions
  bus : ∀ q ∈ w.bus, T q

namespace Sys.Obeys

variable {P : GraphState → Prop} {G : Tracker → Prop} {T : Publication → Prop} {w : Sys}

theorem getState (hw : w.Obeys P G T) (id : ExecId) :
    (w.getState id).2.Obeys P G T ∧ ∀ s, (w.getState id).1 = .ok s → P s :=
  ⟨⟨hw.store, hw.tracker, hw.bus⟩, (hw.store.getState id).2⟩

theorem saveState (hw : w.Obeys P G T) {s : GraphState} (hs : P s) :
    (w.saveState s).2.Obeys P G T := by
  refine ⟨hw.store.saveState hs, ?_, ?_⟩ <;> unfold Sys.saveState <;> split
  all_goals first | exact hw.tracker | exact hw.bus

theorem publish (hw : w.Obeys P G T) {t : String} {e : Event} (ht : T ⟨t, e⟩) :
    (w.publish t e).2.Obeys P G T := by
  refine ⟨hw.store.publish t e, ?_, fun q hq => ?_⟩
  · unfold Sys.publish; split <;> exact hw.tracker
  · unfold Sys.publish at hq
    split at hq
    · exact hw.bus q hq
    · rcases List.mem_append.mp hq with hq | hq
      · exact hw.bus q hq
      · exact List.mem_singleton.mp hq ▸ ht

theorem modify (hw : w.Obeys P G T) {f : Tracker → Tracker} (hf : ∀ t, G t → G (f t)) :
    Obeys P G T { w with executions := f w.executions } :=
  ⟨hw.store, hf _ hw.tracker, hw.bus⟩

/-- The clock and the environment's answers are no part of the discipline. -/
theorem answers (hw : w.Obeys P G T) (clock : ℕ) (faults : List (Option String)) :
    Obeys P G T { w with clock, faults } :=
  ⟨hw.store, hw.tracker, hw.bus⟩

end Sys.Obeys

namespace Prog.Guards

variable {P : GraphState → Prop} {G : Tracker → Prop} {T : Publication → Prop} {α β : Type}

/-- The sequencing rule. -/
theorem bind {p : Prog α} {f : α → Prog β} (hp : p.Guards P G T)
    (hf : ∀ a, (f a).Guards P G T) : (p >>= f).Guards P G T := by
  induction hp with
  | pure => exact hf _
  | halt => exact .halt
  | getState _ ih => exact .getState ih
  | saveState hs _ ih => exact .saveState hs ih
  | publish ht _ ih => exact .publish ht ih
  | loadExecution _ ih => exact .loadExecution ih
  | modifyExecutions hG _ ih => exact .modifyExecutions hG ih
  | now _ ih => exact .now ih

/-- **Run soundness**: run atomically from a world that keeps the discipline, such a program
ends in a world that keeps it. -/
theorem run {p : Prog α} (hp : p.Guards P G T) {w w' : Sys} {a : α} (hw : w.Obeys P G T)
    (h : p.run w = .ok (a, w')) : w'.Obeys P G T := by
  induction hp generalizing w with
  | pure => cases h; exact hw
  | halt => cases h
  | getState _ ih => exact ih _ (hw.getState _).2 (hw.getState _).1 h
  | saveState hs _ ih => exact ih _ (hw.saveState hs) h
  | publish ht _ ih => exact ih _ (hw.publish ht) h
  | loadExecution _ ih => exact ih _ hw h
  | modifyExecutions hG _ ih => exact ih (hw.modify hG) h
  | now _ ih => exact ih _ hw h

/-- **Step soundness**: one call of such a program keeps the discipline, and what is left of
the program still guards it. -/
theorem step {p p' : Prog α} (hp : p.Guards P G T) {w w' : Sys} (hw : w.Obeys P G T)
    (h : p.step w = some (p', w')) : w'.Obeys P G T ∧ p'.Guards P G T := by
  cases hp <;> simp only [Prog.step, reduceCtorEq, Option.some.injEq, Prod.mk.injEq] at h <;>
    obtain ⟨rfl, rfl⟩ := h
  case getState hk => exact ⟨(hw.getState _).1, hk _ (hw.getState _).2⟩
  case saveState hs hk => exact ⟨hw.saveState hs, hk _⟩
  case publish ht hk => exact ⟨hw.publish ht, hk _⟩
  case loadExecution hk => exact ⟨hw, hk _⟩
  case modifyExecutions hG hk => exact ⟨hw.modify hG, hk⟩
  case now hk => exact ⟨hw, hk _⟩

end Prog.Guards

/-! ### Properties of every entry -/

/-- Every entry of the tracker satisfies `p`, which may depend on the entry's id. -/
def TrackerInv (p : ExecId → ExecutionContext → Prop) (t : Tracker) : Prop :=
  ∀ k e, t k = some e → p k e

/-- A property of entries that each update of the code keeps: `completeGraph` and `Shutdown`
cancel the context, `CancelExecution` cancels it and marks the entry `Cancelled`, and
`monitorExecution` marks it expired. -/
structure EntryStable (p : ExecId → ExecutionContext → Prop) : Prop where
  cancel {k : ExecId} {e : ExecutionContext} : p k e → p k { e with ctx := e.ctx.cancel }
  cancelled {k : ExecId} {e : ExecutionContext} :
    p k e → p k { e with ctx := e.ctx.cancel, status := .cancelled }
  expire {k : ExecId} {e : ExecutionContext} : p k e → p k { e with ctx := .deadlineExceeded }

namespace TrackerInv

variable {p : ExecId → ExecutionContext → Prop}

/-- `Executions.store`, of an entry that satisfies `p`. -/
theorem store {id : ExecId} {e : ExecutionContext} (he : p id e) :
    ∀ t, TrackerInv p t → TrackerInv p fun k => if k = id then some e else t k := by
  intro t ht k e' h
  dsimp only at h
  split at h
  · cases h
    exact ‹k = id› ▸ he
  · exact ht k e' h

/-- `Executions.delete`. -/
theorem delete (id : ExecId) :
    ∀ t, TrackerInv p t → TrackerInv p fun k => if k = id then none else t k := by
  intro t ht k e h
  dsimp only at h
  split at h
  · cases h
  · exact ht k e h

/-- `Executions.update`, by a change that keeps `p`. -/
theorem update {id : ExecId} {f : ExecutionContext → ExecutionContext}
    (hf : ∀ {e}, p id e → p id (f e)) :
    ∀ t, TrackerInv p t → TrackerInv p fun k => if k = id then (t k).map f else t k := by
  intro t ht k e h
  dsimp only at h
  split at h
  · subst_vars
    obtain ⟨e₀, he₀, rfl⟩ := Option.map_eq_some'.mp h
    exact hf (ht _ e₀ he₀)
  · exact ht k e h

/-- The cancellation of every context by `Shutdown`. -/
theorem cancelAll (hp : EntryStable p) : ∀ t, TrackerInv p t →
    TrackerInv p fun k => (t k).map fun e => { e with ctx := e.ctx.cancel } := by
  intro t ht k e h
  obtain ⟨e₀, he₀, rfl⟩ := Option.map_eq_some'.mp h
  exact hp.cancel (ht k e₀ he₀)

end TrackerInv

/-! ### What the manager writes and publishes -/

/-- A property of records that the manager's dispatch and ending writes keep: marking a node
`Running`, and moving the record to a terminal status with a completion time and an error. -/
structure Dispatchable (P : GraphState → Prop) : Prop where
  markRunning {s : GraphState} (nodeID : NodeId) (now : ℕ) : P s → P (s.markRunning nodeID now)
  ended {s : GraphState} {status : ExecutionStatus} (completedAt : Option ℕ) (error : String) :
    status.isTerminal → P s → P { s with status, completedAt, error }

/-- A property of publications that admits the manager's: any event on `executor.work` or
`router.work`, and any event on `graph.events`. -/
structure ManagerTopics (T : Publication → Prop) : Prop where
  work {topic : String} (e : Event) : topic = topicExecutorWork ∨ topic = topicRouterWork →
    T ⟨topic, e⟩
  graphEvents (e : Event) : T ⟨topicGraphEvents, e⟩

/-! ### Every function guards a discipline that admits its writes -/

namespace Manager

open Prog

variable {P : GraphState → Prop} {p : ExecId → ExecutionContext → Prop} {T : Publication → Prop}
  (hP : Dispatchable P) (hp : EntryStable p) (hT : ManagerTopics T)

include hT in
theorem publishWorkEvent_guards {topic : String}
    (htopic : topic = topicExecutorWork ∨ topic = topicRouterWork) (graphID : ExecId)
    (nodeID : NodeId) (node : Node) (state : GraphState) :
    (publishWorkEvent topic graphID nodeID node state).Guards P (TrackerInv p) T := by
  simp only [publishWorkEvent, publishGraphEvent, EventBus.publish_bind, bind_assoc]
  refine .publish (hT.work _ htopic) fun r => ?_
  split
  · exact .pure
  · exact .publish (hT.graphEvents _) fun _ => .pure

include hP hp hT

theorem completeGraph_guards {graphID : ExecId} {state : GraphState} {status : ExecutionStatus}
    {errorMsg : String} (hs : P state) (ht : status.isTerminal) :
    (completeGraph graphID state status errorMsg).Guards P (TrackerInv p) T := by
  simp only [completeGraph, publishGraphEvent, bind_assoc, Time.now_bind, Storage.saveState_bind,
    Executions.load_bind, Executions.update_bind, Executions.delete_bind, pure_bind,
    EventBus.publish_bind]
  refine .now fun _ => .saveState (hP.ended _ _ ht hs) fun _ => .loadExecution fun r => ?_
  split
  · exact .modifyExecutions (TrackerInv.update hp.cancel) <|
      .modifyExecutions (TrackerInv.delete _) (.publish (hT.graphEvents _) fun _ => .pure)
  · exact .publish (hT.graphEvents _) fun _ => .pure

theorem publishNodeWork_guards (fuel : ℕ) (graphID : ExecId) :
    ∀ {nodeID : NodeId} {state : GraphState}, P state →
      (publishNodeWork fuel graphID nodeID state).Guards P (TrackerInv p) T := by
  induction fuel with
  | zero => exact fun _ => .halt
  | succ fuel ih =>
    intro nodeID state hs
    simp only [publishNodeWork]
    split
    · exact .pure
    split
    · exact .halt
    simp only [Time.now_bind, Storage.saveState_bind]
    refine .now fun now => .saveState (hP.markRunning _ _ hs) fun _ => ?_
    split
    · exact publishWorkEvent_guards hT (.inl rfl) _ _ _ _
    · exact publishWorkEvent_guards hT (.inr rfl) _ _ _ _
    · exact (completeGraph_guards hP hp hT (hP.markRunning _ _ hs) (by rfl)).bind fun _ => .pure
    · split
      · exact ih (hP.markRunning _ _ hs)
      · exact .pure

/-- A submission guards the discipline when its initial record and its fresh entry are
admitted. -/
theorem submitGraph_guards (fuel : ℕ) (graphID : ExecId) (g : Graph) (inputs : JsonMap)
    (hinit : ∀ now, P (initialState graphID g inputs now))
    (hfresh : ∀ startedAt, p graphID ⟨graphID, .running, startedAt, .active⟩) :
    (submitGraph fuel graphID g inputs).Guards P (TrackerInv p) T := by
  simp only [submitGraph, publishGraphEvent, Time.now_bind, Storage.saveState_bind,
    EventBus.publish_bind, Executions.store_bind, bind_assoc]
  split
  · exact .pure
  refine .now fun now => .saveState (hinit now) fun r => ?_
  cases r
  · refine .publish (hT.graphEvents _) fun r => ?_
    cases r
    · exact .now fun t => .modifyExecutions (TrackerInv.store (hfresh t)) <|
        (publishNodeWork_guards hP hp hT _ _ (hinit now)).bind fun _ => .pure
    · exact .pure
  · exact .pure

/-- A completion guards the discipline when node-state updates are admitted too. -/
theorem handleNodeCompleted_guards
    (hupd : ∀ {s : GraphState} (nodeID : NodeId) (f : NodeState → NodeState), P s →
      P (s.updateNode nodeID f)) (fuel : ℕ) (event : Envelope) :
    (handleNodeCompleted fuel event).Guards P (TrackerInv p) T := by
  simp only [handleNodeCompleted, Storage.getState_bind, Time.now_bind, Storage.saveState_bind,
    bind_assoc]
  refine .getState fun r hr => ?_
  rcases r with _ | state
  · exact .pure
  dsimp only
  have hs : ∀ nodeID f, P (state.updateNode nodeID f) := fun _ _ => hupd _ _ (hr state rfl)
  split
  · exact .pure
  refine .now fun now => .saveState (hs _ _) fun _ => ?_
  split
  · exact (completeGraph_guards hP hp hT (hs _ _) (by rfl)).bind fun _ => .pure
  split
  · exact (completeGraph_guards hP hp hT (hs _ _) (by rfl)).bind fun _ => .pure
  · exact (publishNodeWork_guards hP hp hT _ _ (hs _ _)).bind fun _ => .pure

theorem cancelExecution_guards (graphID : ExecId) :
    (cancelExecution graphID).Guards P (TrackerInv p) T := by
  simp only [cancelExecution, publishGraphEvent, Executions.load_bind, Executions.update_bind,
    Storage.getState_bind, Time.now_bind, Storage.saveState_bind, EventBus.publish_bind,
    Executions.delete_bind, bind_assoc]
  refine .loadExecution fun e => ?_
  rcases e with _ | e
  · exact .pure
  dsimp only
  split
  · exact .pure
  refine .modifyExecutions (TrackerInv.update hp.cancelled) <| .getState fun r hr => ?_
  rcases r with _ | state
  · exact .pure
  refine .now fun now => .saveState (hP.ended (some now) state.error rfl (hr state rfl))
    fun r => ?_
  split
  · exact .pure
  · exact .publish (hT.graphEvents _) fun _ => .modifyExecutions (TrackerInv.delete _) .pure

theorem handleTimeout_guards (graphID : ExecId) :
    (handleTimeout graphID).Guards P (TrackerInv p) T := by
  simp only [handleTimeout, Storage.getState_bind]
  refine .getState fun r hr => ?_
  rcases r with _ | state
  · exact .pure
  · exact completeGraph_guards hP hp hT (hr state rfl) rfl

theorem monitorExecution_guards (graphID : ExecId) :
    (monitorExecution graphID).Guards P (TrackerInv p) T := by
  simp only [monitorExecution, Executions.load_bind, Executions.update_bind]
  refine .loadExecution fun e => ?_
  rcases e with _ | e
  · exact .pure
  dsimp only
  split
  · exact .modifyExecutions (TrackerInv.update hp.expire) (handleTimeout_guards hP hp hT _)
  · exact .pure

omit hP hT in
theorem shutdown_guards : shutdown.Guards P (TrackerInv p) T :=
  .modifyExecutions (TrackerInv.cancelAll hp) .pure

end Manager

/-- A worker guards the discipline when node-state updates are admitted, and so are plain
events without `node_id` on `node.events`. -/
theorem Worker.handleNodeExecution_guards {P : GraphState → Prop} {G : Tracker → Prop}
    {T : Publication → Prop}
    (hupd : ∀ {s : GraphState} (nodeID : NodeId) (f : NodeState → NodeState), P s →
      P (s.updateNode nodeID f))
    (hW : ∀ eventType graphID (data : JsonMap), data.lookup "node_id" = none →
      T ⟨Worker.topicNodeEvents, ⟨eventType, graphID, .fields data⟩⟩)
    (event : Envelope) (result : Except String Json) :
    (Worker.handleNodeExecution event result).Guards P G T := by
  simp only [Worker.handleNodeExecution, Worker.publishEvent, Storage.getState_bind,
    Time.now_bind, Storage.saveState_bind, EventBus.publish_bind, Prog.bind_assoc]
  split
  · exact .pure
  refine .getState fun r hr => ?_
  rcases r with _ | state
  · exact .pure
  dsimp only
  split
  · exact .pure
  split
  · exact .halt
  refine .now fun _ => .saveState (hupd _ _ (hr state rfl)) fun r => ?_
  cases r
  · refine .publish (hW _ _ _ rfl) fun _ => .now fun _ => ?_
    cases result <;> exact .publish (hW _ _ _ rfl) fun _ =>
      .saveState (hupd _ _ (hupd _ _ (hr state rfl))) fun _ => .pure
  · exact .pure

/-- Every operation guards a discipline that admits every write and publication of the code,
a submission provided its initial record and its fresh entry are admitted. -/
theorem Op.prog_guards {P : GraphState → Prop} {p : ExecId → ExecutionContext → Prop}
    {T : Publication → Prop} (hP : Dispatchable P)
    (hupd : ∀ {s : GraphState} (nodeID : NodeId) (f : NodeState → NodeState), P s →
      P (s.updateNode nodeID f))
    (hp : EntryStable p) (hT : ManagerTopics T)
    (hW : ∀ eventType graphID (data : JsonMap), data.lookup "node_id" = none →
      T ⟨Worker.topicNodeEvents, ⟨eventType, graphID, .fields data⟩⟩) (fuel : ℕ) (op : Op)
    (hinit : ∀ graphID g inputs, op = .submitGraph graphID g inputs →
      ∀ now, P (Manager.initialState graphID g inputs now))
    (hfresh : ∀ graphID g inputs, op = .submitGraph graphID g inputs →
      ∀ startedAt, p graphID ⟨graphID, .running, startedAt, .active⟩) :
    (op.prog fuel).Guards P (TrackerInv p) T := by
  cases op with
  | submitGraph graphID g inputs =>
    exact (Manager.submitGraph_guards hP hp hT _ _ _ _ (hinit _ _ _ rfl)
      (hfresh _ _ _ rfl)).bind fun _ => .pure
  | nodeCompleted =>
    exact (Manager.handleNodeCompleted_guards hP hp hT hupd ..).bind fun _ => .pure
  | cancelExecution => exact (Manager.cancelExecution_guards hP hp hT _).bind fun _ => .pure
  | deadlineExceeded => exact Manager.monitorExecution_guards hP hp hT _
  | nodeExecution => exact Worker.handleNodeExecution_guards hupd hW ..

end Dago
