import Dago.Manager
import Dago.Worker

/-!
# Runs of the Coordinator

The system is the store, the bus and the tracker, changed by the operations that reach the
manager and the workers: a submission, a completion envelope on `node.completed`, a
cancellation, the expiry of an execution's deadline, and a worker handling an event of
`node.events`. In a `Step` one of them runs to its end (`Prog.run`), with a clock reading
and with the environment's answers to its store and bus calls. `Env.reliable` lets every
store and bus call succeed, `Env.faulty` lets any of them fail.

`Reachable env` is every world that a run from the empty world reaches under `env`; `replay`
runs a script of operations, and `reachable_of_replay` makes the worlds it reaches reachable.
A script is read the way a client reads the system: the status of a record and of its nodes,
the tracker entry of an execution, the events on `graph.events` and the work sent.
-/

namespace Dago

/-- The operations that change the world. -/
inductive Op
  | submitGraph (graphID : ExecId) (g : Graph) (inputs : JsonMap)
  | nodeCompleted (event : Envelope)
  | cancelExecution (graphID : ExecId)
  | deadlineExceeded (graphID : ExecId)
  | nodeExecution (event : Envelope) (result : Except String Json)

namespace Op

/-- The program an operation runs, with `fuel` for the dispatch recursion. -/
def prog (fuel : ℕ) : Op → Prog Unit
  | submitGraph graphID g inputs => do let _ ← Manager.submitGraph fuel graphID g inputs
  | nodeCompleted event => do let _ ← Manager.handleNodeCompleted fuel event
  | cancelExecution graphID => do let _ ← Manager.cancelExecution graphID
  | deadlineExceeded graphID => Manager.monitorExecution graphID
  | nodeExecution event result => Worker.handleNodeExecution event result

/-- `uuid.New()` mints an id that neither the store nor the tracker knows. -/
def Admissible (w : Sys) : Op → Prop
  | submitGraph graphID _ _ => w.store graphID = none ∧ w.executions graphID = none
  | _ => True

instance (w : Sys) : (op : Op) → Decidable (op.Admissible w)
  | submitGraph graphID _ _ =>
    decidable_of_iff ((w.store graphID).isNone ∧ (w.executions graphID).isNone) (by
      simp [Admissible])
  | nodeCompleted _ => isTrue trivial
  | cancelExecution _ => isTrue trivial
  | deadlineExceeded _ => isTrue trivial
  | nodeExecution _ _ => isTrue trivial

end Op

/-- How the environment answers store and bus calls. -/
inductive Env
  | reliable
  | faulty

/-- The answers an environment may give: none but successes, or anything. -/
def Env.Allows : Env → List (Option String) → Prop
  | .reliable, faults => faults = []
  | .faulty, _ => True

instance : (env : Env) → (faults : List (Option String)) → Decidable (env.Allows faults)
  | .reliable, faults => inferInstanceAs (Decidable (faults = []))
  | .faulty, _ => isTrue trivial

/-- One step: the operation `op` runs to its end with the clock at `clock` and the store and
bus calls answered by `faults`. -/
inductive Step (env : Env) : Sys → Sys → Prop
  | mk {w w' : Sys} (op : Op) (fuel clock : ℕ) (faults : List (Option String)) :
      op.Admissible w → env.Allows faults →
      (op.prog fuel).run { w with clock, faults } = .ok ((), w') → Step env w w'

/-- The worlds a run from the empty world reaches. -/
inductive Reachable (env : Env) : Sys → Prop
  | init : Reachable env Sys.init
  | step {w w' : Sys} : Reachable env w → Step env w w' → Reachable env w'

/-- **Invariance**: a property of the empty world that every step from a reachable world
preserves holds of every reachable world. -/
theorem Reachable.invariant {env : Env} {I : Sys → Prop} (h0 : I Sys.init)
    (hs : ∀ {w w'}, Reachable env w → I w → Step env w w' → I w') {w : Sys}
    (h : Reachable env w) : I w := by
  induction h with
  | init => exact h0
  | step hr hw ih => exact hs hr ih hw

/-! ### Records under their own ids -/

/-- Every record is stored under its own `GraphID`. -/
def Keyed (w : Sys) : Prop := ∀ k s, w.store k = some s → s.graphID = k

theorem Keyed.of_store_eq {w w' : Sys} (h : w'.store = w.store) (hw : Keyed w) : Keyed w' :=
  fun k s hs => hw k s (h ▸ hs)

theorem Keyed.save {w : Sys} (hw : Keyed w) (s : GraphState) : Keyed (w.save s) := by
  intro k s' h
  simp only [Sys.save] at h
  split at h
  · cases h
    exact (‹k = _›).symm
  · exact hw k s' h

/-- `SaveState` writes a record under its own id, so every run keeps records under their ids. -/
theorem Keyed.run {α : Type} {p : Prog α} : ∀ {w w' : Sys} {a : α}, Keyed w →
    p.run w = .ok (a, w') → Keyed w' := by
  induction p with
  | pure a => intro w w' b hw h; cases h; exact hw
  | halt e => intro w w' b hw h; cases h
  | getState id k ih =>
    intro w w' b hw h
    exact ih _ (w := w.next) (hw.of_store_eq rfl) h
  | saveState s k ih =>
    intro w w' b hw h
    refine ih _ ?_ h
    simp only [Sys.saveState]
    split
    · exact hw.of_store_eq rfl
    · exact (hw.of_store_eq rfl).save s
  | publish t e k ih =>
    intro w w' b hw h
    refine ih _ ?_ h
    simp only [Sys.publish]
    split <;> exact hw.of_store_eq rfl
  | loadExecution id k ih => exact fun hw h => ih _ hw h
  | modifyExecutions f k ih =>
    intro w w' b hw h
    exact ih (w := { w with executions := f w.executions }) (hw.of_store_eq rfl) h
  | now k ih => exact fun hw h => ih _ hw h

/-- In every reachable world each record is stored under its own id. -/
theorem Reachable.keyed {env : Env} {w : Sys} (h : Reachable env w) : Keyed w :=
  Reachable.invariant (fun _ _ h => by cases h)
    (fun {w _} _ hw ⟨op, fuel, clock, faults, _, _, hrun⟩ =>
      Keyed.run (w := { w with clock, faults }) (hw.of_store_eq rfl) hrun) h

/-! ### Scripted runs -/

/-- One operation of a script: the operation, the clock reading it sees, and the answers of
the store and the bus to its calls. -/
structure Call where
  op : Op
  clock : ℕ
  faults : List (Option String)

/-- Run a script from `w`, every dispatch with `fuel`: `none` once an operation is not
admissible, is answered in a way `env` does not allow, or halts. -/
def replay (env : Env) (fuel : ℕ) : Sys → List Call → Option Sys
  | w, [] => some w
  | w, c :: cs =>
    if c.op.Admissible w ∧ env.Allows c.faults then
      match (c.op.prog fuel).run { w with clock := c.clock, faults := c.faults } with
      | .ok ((), w') => replay env fuel w' cs
      | .error _ => none
    else none

/-- The status of the record `k` and of its node `n`, as a client reading the store sees
them. -/
def Sys.nodeStatus (w : Sys) (k : ExecId) (n : NodeId) :
    Option (ExecutionStatus × ExecutionStatus) :=
  (w.store k).bind fun s => (s.nodeStates.lookup n).map fun ns => (s.status, ns.status)

/-- The status and the context of the tracker entry of `k`. -/
def Sys.trackerStatus (w : Sys) (k : ExecId) : Option (ExecutionStatus × ContextState) :=
  (w.executions k).map fun e => (e.status, e.ctx)

/-- The types of the events published on `graph.events`, in order. -/
def Sys.graphEvents (w : Sys) : List EventType :=
  w.bus.filterMap fun p => if p.topic = topicGraphEvents then some p.event.eventType else none

/-- The execution and the node of a work envelope. -/
def Publication.work? (p : Publication) : Option (ExecId × NodeId) :=
  if p.isWork then
    match p.event.data with
    | .work nodeID _ _ _ _ => some (p.event.executionID, nodeID)
    | .fields _ => none
  else none

/-- The work envelopes on the bus, as the execution and the node each is for. -/
def Sys.workSent (w : Sys) : List (ExecId × NodeId) := w.bus.filterMap Publication.work?

namespace Manager

/-- A linear graph: the start node `A`, the executor `B` and the end node `C`. -/
def linearGraph : Graph :=
  { id := "g", version := "1",
    nodes := [("A", some ⟨.start, none⟩), ("B", some ⟨.executor, none⟩),
      ("C", some ⟨.«end», none⟩)],
    nodes_nodup := by decide, edges := [⟨"A", "B"⟩, ⟨"B", "C"⟩], entryNode := "A" }

/-- A completion of `node` for the execution `x` that carries `data` besides the node id. -/
def completionOf (node : NodeId) (data : JsonMap) : Envelope :=
  ⟨"x", ("node_id", .str node) :: data⟩

end Manager

/-- A script replays from a reachable world to reachable worlds only. -/
theorem reachable_of_replay {env : Env} {fuel : ℕ} :
    ∀ {w w' : Sys} {cs : List Call}, Reachable env w → replay env fuel w cs = some w' →
      Reachable env w'
  | _, _, [], hw, h => by cases h; exact hw
  | w, w', c :: cs, hw, h => by
    simp only [replay] at h
    split at h
    · rename_i hc
      split at h
      · rename_i w₁ hrun
        exact reachable_of_replay (hw.step (.mk c.op fuel c.clock c.faults hc.1 hc.2 hrun)) h
      · cases h
    · cases h

end Dago
