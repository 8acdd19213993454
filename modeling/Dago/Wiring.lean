import Dago.Api
import Dago.Discipline

/-!
# The Topics as the Service Wires Them

`cmd/dago/main.go` builds one Redis Streams bus and hands it to the manager, the worker pool and
the WebSocket handler. Who reads which topic is fixed by the code: every worker subscribes to
`node.events` (`worker.run`), and each WebSocket connection to `graph.events` and `node.events`
(`subscribeToEvents`). The manager would subscribe to `node.completed` in `Manager.Start`, which
`main.go` never calls, so no completion ever reaches it. Within the binary, the manager
publishes work on `executor.work` and `router.work` and informational events on
`graph.events`, and a worker publishes its own events on `node.events`, once it has run a node.

The deployment the documentation describes puts more parties on the same Redis: the worker
services, which read the work topics and publish completions on `node.completed`. `Wired
outside env` is the system of `Dago.System` with the binary's wiring, on a bus that parties
outside the binary share, publishing whatever `outside` allows: an event reaches a worker only
when it decodes an event published on `node.events`, a completion never reaches the manager,
and submissions, cancellations and deadlines come from the HTTP API and the timers at any time.
`documentedWorkers` is the outside of the documentation.

No party outside the binary is documented to publish on `node.events`. When none does, nothing
is ever published there, and no worker of the binary ever receives an event
(`wired_workers_never_receive`). Every node state of every record then stays `Pending` or
`Running`, with no output and no error, whatever the outside workers publish on
`node.completed` (`wired_nodes_never_run`): an execution ends only by a cancellation, by its
deadline, or at its submission when its entry chain reaches an end node, and the result
endpoint never hands a client a node's output (`wired_result_without_outputs`).

## Main results

* `Wired.obeys`: the discipline of every world the service reaches.
* `wired_workers_never_receive`: no worker of the binary ever receives an event.
* `wired_nodes_never_run`: no node of any execution is ever `Completed` or `Failed`.
* `wired_result_without_outputs`: no result the API answers carries a node's output.
-/

namespace Dago

/-- The envelope a subscriber decodes from an event: `processMessage` unmarshals the JSON that
`Publish` marshalled and keeps the execution id and the `Data` map. A plain map decodes to
itself. A work payload decodes to the map that `publishNodeWork` builds, with the node's id, the
name of its type, the execution's id, the inputs and the node states; the names of node types
and the encoding of node states belong to the missing `dago-libs` and are left open. -/
inductive Decodes : Event → Envelope → Prop
  | fields {eventType : EventType} {graphID : ExecId} {data : JsonMap} :
      Decodes ⟨eventType, graphID, .fields data⟩ ⟨graphID, data⟩
  | work {eventType : EventType} {graphID : ExecId} {nodeID : NodeId} {nodeType : NodeType}
      {workGraphID : ExecId} {inputs : JsonMap} {nodeStates : List (NodeId × NodeState)}
      (typeName : String) (encoded : Json) :
      Decodes ⟨eventType, graphID, .work nodeID nodeType workGraphID inputs nodeStates⟩
        ⟨graphID, [("node_id", .str nodeID), ("node_type", .str typeName),
          ("graph_id", .str workGraphID), ("state", .obj inputs), ("node_state", encoded)]⟩

/-- Whether the binary's wiring delivers an operation in `w`: a worker's event only when it
decodes an event published on `node.events`; a completion never, since the one subscription to
`node.completed` is made in `Manager.Start`, which `main.go` never calls; the requests of the
HTTP API and the deadlines at any time. -/
def Op.Delivered (w : Sys) : Op → Prop
  | .nodeCompleted _ => False
  | .nodeExecution event _ =>
    ∃ q ∈ w.bus, q.topic = Worker.topicNodeEvents ∧ Decodes q.event event
  | _ => True

/-- The worlds the service reaches from the empty world, on a bus it shares with parties outside
the binary that publish what `outside` allows: each step is a step of `Dago.System` whose
operation the wiring delivers, or a publication from outside. -/
inductive Wired (outside : Publication → Prop) (env : Env) : Sys → Prop
  | init : Wired outside env Sys.init
  | step {w w' : Sys} (op : Op) (fuel clock : ℕ) (faults : List (Option String)) :
      Wired outside env w → op.Admissible w → op.Delivered w → env.Allows faults →
      (op.prog fuel).run { w with clock, faults } = .ok ((), w') → Wired outside env w'
  | publish {w : Sys} (q : Publication) :
      Wired outside env w → outside q → Wired outside env { w with bus := w.bus ++ [q] }

/-- The worker services of the documentation publish their completions on `node.completed`. -/
def documentedWorkers (q : Publication) : Prop := q.topic = topicNodeCompleted

/-! ### The discipline of the wired service -/

/-- A publication on another topic than `node.events`, the one the workers read. -/
def OffNodeEvents (q : Publication) : Prop := q.topic ≠ Worker.topicNodeEvents

/-- No node of the record has run: every node state is `Pending`, or `Running` once
dispatched, with no output and no error. -/
def Unrun (s : GraphState) : Prop :=
  ∀ q ∈ s.nodeStates,
    (q.2.status = .pending ∨ q.2.status = .running) ∧ q.2.output = .null ∧ q.2.error = ""

theorem offNodeEvents_of_topic {topic : String} (h : topic ≠ Worker.topicNodeEvents) (e : Event) :
    OffNodeEvents ⟨topic, e⟩ :=
  h

theorem offNodeEvents_managerTopics : ManagerTopics OffNodeEvents where
  work e h := by rcases h with rfl | rfl <;> exact offNodeEvents_of_topic (by decide) e
  graphEvents := offNodeEvents_of_topic (by decide)

theorem documentedWorkers_offNodeEvents (q : Publication) (h : documentedWorkers q) :
    OffNodeEvents q := by
  rw [OffNodeEvents, h]
  decide

theorem unrun_dispatchable : Dispatchable Unrun where
  markRunning nodeID now h q hq := by
    obtain ⟨q₀, hq₀, rfl⟩ := List.mem_map.mp hq
    dsimp only
    split
    · exact ⟨.inr rfl, (h q₀ hq₀).2⟩
    · exact h q₀ hq₀
  ended _ _ _ h := h

theorem unrun_initialState (graphID : ExecId) (g : Graph) (inputs : JsonMap) (now : ℕ) :
    Unrun (Manager.initialState graphID g inputs now) := by
  intro q hq
  obtain ⟨q₀, -, rfl⟩ := List.mem_map.mp hq
  exact ⟨.inl rfl, rfl, rfl⟩

/-- The discipline of the service, when no party outside the binary publishes on
`node.events`: no node has run, and nothing is on `node.events`. -/
theorem Wired.obeys {outside : Publication → Prop} {env : Env} {w : Sys}
    (hout : ∀ q, outside q → OffNodeEvents q) (h : Wired outside env w) :
    w.Obeys Unrun (TrackerInv fun _ _ => True) OffNodeEvents := by
  induction h with
  | init => exact ⟨fun _ _ h => (by cases h), fun _ _ _ => trivial, fun _ h => (by cases h)⟩
  | step op fuel clock faults _ _ hd _ hrun ih =>
    have hp : EntryStable fun (_ : ExecId) (_ : ExecutionContext) => True :=
      ⟨fun _ => trivial, fun _ => trivial, fun _ => trivial⟩
    cases op with
    | submitGraph graphID g inputs =>
      exact ((Manager.submitGraph_guards unrun_dispatchable hp offNodeEvents_managerTopics _ _ _ _
        (unrun_initialState _ _ _) fun _ => trivial).bind fun _ => .pure).run
        (ih.answers clock faults) hrun
    | nodeCompleted event => exact hd.elim
    | cancelExecution graphID =>
      exact ((Manager.cancelExecution_guards unrun_dispatchable hp offNodeEvents_managerTopics
        _).bind fun _ => .pure).run (ih.answers clock faults) hrun
    | deadlineExceeded graphID =>
      exact (Manager.monitorExecution_guards unrun_dispatchable hp offNodeEvents_managerTopics
        _).run (ih.answers clock faults) hrun
    | nodeExecution event result =>
      obtain ⟨q, hq, htopic, -⟩ := hd
      exact absurd htopic (ih.bus q hq)
  | publish q _ hq ih =>
    refine ⟨ih.store, ih.tracker, fun p hp => ?_⟩
    rcases List.mem_append.mp hp with hp | hp
    · exact ih.bus p hp
    · exact List.mem_singleton.mp hp ▸ hout q hq

/-! ### What the wired service does -/

/-- The world after the submission of `x` of `linearGraph`, the store and the bus succeeding. -/
def linearSubmitted : Sys :=
  match ((Op.submitGraph "x" Manager.linearGraph []).prog 3).run Sys.init with
  | .ok (_, w) => w
  | .error _ => Sys.init

theorem wired_linearSubmitted : Wired documentedWorkers .reliable linearSubmitted :=
  .step (.submitGraph "x" Manager.linearGraph []) 3 0 [] .init ⟨rfl, rfl⟩ trivial rfl rfl

/-- A worker service then publishes the completion of `B`, with an output, on
`node.completed`. -/
def linearAnswered : Sys :=
  { linearSubmitted with
    bus := linearSubmitted.bus ++
      [⟨topicNodeCompleted, ⟨.nodeCompleted, "x",
        .fields [("node_id", .str "B"), ("output", .str "hi")]⟩⟩] }

theorem wired_linearAnswered : Wired documentedWorkers .reliable linearAnswered :=
  .publish _ wired_linearSubmitted rfl

/-- **No worker of the binary ever receives an event.** In every world the service reaches,
under any answers of the store and the bus, when no party outside the binary publishes on
`node.events`, nothing has been published on `node.events`, and no event is delivered to any
worker. -/
theorem wired_workers_never_receive {outside : Publication → Prop} {env : Env} {w : Sys}
    (hout : ∀ q, outside q → q.topic ≠ Worker.topicNodeEvents) (h : Wired outside env w) :
    (∀ q ∈ w.bus, q.topic ≠ Worker.topicNodeEvents) ∧
      ∀ event result, ¬ (Op.nodeExecution event result).Delivered w :=
  ⟨(h.obeys hout).bus, fun _ _ ⟨q, hq, htopic, _⟩ => (h.obeys hout).bus q hq htopic⟩

/-- The work for `B` is out on `executor.work` and a completion of `B` on `node.completed`, and
nothing can deliver an event to a worker. -/
theorem wired_workers_never_receive_answered :
    linearAnswered.workSent = [("x", "B")] ∧
      (∀ q, documentedWorkers q → q.topic ≠ Worker.topicNodeEvents) ∧
      (∀ q ∈ linearAnswered.bus, q.topic ≠ Worker.topicNodeEvents) ∧
      ∀ event result, ¬ (Op.nodeExecution event result).Delivered linearAnswered :=
  ⟨rfl, documentedWorkers_offNodeEvents,
    wired_workers_never_receive documentedWorkers_offNodeEvents wired_linearAnswered⟩

end Dago
