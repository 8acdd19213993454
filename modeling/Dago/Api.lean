import Mathlib.Logic.Relation
import Dago.Completion

/-!
# The HTTP Control Plane

The routes `setupRoutes` and `SetupWebSocket` mount: the health check, the Prometheus metrics,
the handlers of `pkg/api/http/handlers.go` under `/api/v1`, and the event stream of a graph.
Each handler calls at most one method of the manager and turns its answer into a status code
and a JSON body; the transport keeps no state of its own. A request is therefore either a read,
which leaves the store, the tracker and the bus as they were, or one operation of the system: a
submission is `Op.submitGraph` under the id `uuid.New()` mints, a cancellation is
`Op.cancelExecution` (`handle_moves`). Every world that clients and the message handlers reach
together agrees with a reachable world on all that outlives a step
(`clients_agree_reachable`), so what a client reads obeys the invariants of reachable worlds
(`getGraph_covered`).

The codes are those of `submitResponse`, `recordResponse` and `cancelResponse`. Two of them
differ from `docs/API.md`: a cancellation of an id the tracker does not hold is refused with
`409 CANCELLATION_FAILED`, where the document lists `404`, and a submission whose store write
fails is answered `422 SUBMISSION_FAILED`, where it lists `500` for server errors.

`handleGetStatus` also writes the record's `StartedAt`, which no path of the manager sets: it
is always `nil`, and the model leaves it out. The timestamps of the submission and
cancellation answers are empty strings in the code, and are left out too. The metrics the
Prometheus handler writes and the frames of the event stream belong to no world of the model:
the stream is `Dago.WebSocket`.

## Main results

* `handle_moves`, `clients_agree_reachable`: the transport adds no state.
* `getGraph_covered`: a record a client reads covers its graph.
-/

namespace Dago

/-! ### Requests and answers -/

/-- `ErrorDetail`: the code and the message of an error answer; `Details` is never set. -/
structure ErrorDetail where
  code : String
  message : String
  deriving DecidableEq, Repr

/-- The JSON bodies the handlers write. -/
inductive Body
  /-- `handleHealth`: status `healthy`, the orchestrator check `ok`. -/
  | health
  | error (detail : ErrorDetail)
  /-- `GraphSubmitResponse` with status `submitted`. -/
  | submitted (graphID : ExecId)
  /-- `handleListGraphs`: no graph, total `0`, limit `20`, offset `0`. -/
  | graphs
  /-- `handleGetGraph` writes the whole record. -/
  | record (state : GraphState)
  | status (graphID : ExecId) (status : ExecutionStatus) (submittedAt : ℕ)
      (completedAt : Option ℕ)
  | result (graphID : ExecId) (status : ExecutionStatus) (result : List (NodeId × NodeState))
      (completedAt : Option ℕ)
  | cancelled (graphID : ExecId)
  /-- The text exposition of the metrics registry, which the model does not keep. -/
  | metrics
  /-- The connection switched to the WebSocket protocol, streaming the events of `graphID`. -/
  | stream (graphID : ExecId)
  /-- The text `Upgrade` writes when it refuses a handshake. -/
  | handshakeRefused

/-- A status code and a body, as `c.JSON` writes them. -/
structure Response where
  code : ℕ
  body : Body

/-- A request routed by `setupRoutes`. A submission carries what `ShouldBindJSON` made of its
body, the binding error or the graph and the inputs, and the id `SubmitGraph` will mint. -/
inductive Request
  | health
  | submitGraph (graphID : ExecId) (body : Except String (Graph × JsonMap))
  | listGraphs
  | getGraph (graphID : ExecId)
  | getStatus (graphID : ExecId)
  | getResult (graphID : ExecId)
  | cancelGraph (graphID : ExecId)
  /-- `GET /metrics`, served by `promhttp.Handler()`. -/
  | metrics
  /-- `GET /api/v1/graphs/:id/ws`. The upgrade succeeds or is refused with the code that
  `Upgrade` of `gorilla/websocket`, outside the repository, answers the request's headers. -/
  | graphStream (graphID : ExecId) (refused : Option ℕ)

namespace Api

/-- `c.JSON(code, ErrorResponse{Error: ErrorDetail{Code, Message}})`. -/
def errorResponse (code : ℕ) (errCode message : String) : Response :=
  ⟨code, .error ⟨errCode, message⟩⟩

/-- The answer of the three reads when `GetStatus` fails, whatever the cause. -/
def notFound : Response := errorResponse 404 "NOT_FOUND" "Graph not found"

/-! ### The handlers -/

def handleHealth : Prog Response := pure ⟨200, .health⟩

/-- The answer `handleSubmitGraph` makes of what `SubmitGraph` returned. -/
def submitResponse : ExecId × Option String → Response
  | (_, some err) => errorResponse 422 "SUBMISSION_FAILED" err
  | (graphID, none) => ⟨201, .submitted graphID⟩

def handleSubmitGraph (fuel : ℕ) (graphID : ExecId) :
    Except String (Graph × JsonMap) → Prog Response
  | .error err => pure (errorResponse 400 "INVALID_REQUEST" err)
  | .ok (g, inputs) => submitResponse <$> Manager.submitGraph fuel graphID g inputs

def handleListGraphs : Prog Response := pure ⟨200, .graphs⟩

/-- The answer of a read made of what `GetStatus` returned: `404` on any error, `k` of the
record otherwise. -/
def recordResponse (k : GraphState → Response) : Except String GraphState → Response
  | .error _ => notFound
  | .ok state => k state

/-- The three reads: `GetStatus`, then `recordResponse`. -/
def withRecord (graphID : ExecId) (k : GraphState → Response) : Prog Response :=
  recordResponse k <$> Manager.getStatus graphID

def handleGetGraph (graphID : ExecId) : Prog Response :=
  withRecord graphID fun state => ⟨200, .record state⟩

def handleGetStatus (graphID : ExecId) : Prog Response :=
  withRecord graphID fun state =>
    ⟨200, .status state.graphID state.status state.submittedAt state.completedAt⟩

def handleGetResult (graphID : ExecId) : Prog Response :=
  withRecord graphID fun state =>
    if state.status ≠ .completed ∧ state.status ≠ .failed then
      errorResponse 409 "NOT_COMPLETED" "Graph execution not yet completed"
    else ⟨200, .result state.graphID state.status state.nodeStates state.completedAt⟩

/-- The answer `handleCancelGraph` makes of what `CancelExecution` returned. -/
def cancelResponse (graphID : ExecId) : Option String → Response
  | some err => errorResponse 409 "CANCELLATION_FAILED" err
  | none => ⟨200, .cancelled graphID⟩

def handleCancelGraph (graphID : ExecId) : Prog Response :=
  cancelResponse graphID <$> Manager.cancelExecution graphID

/-- `gin.WrapH(promhttp.Handler())`: the metrics registry, read and written by the collector
alone. -/
def handleMetrics : Prog Response := pure ⟨200, .metrics⟩

/-- `HandleGraphStream` up to the upgrade: it reads nothing of the store or the tracker. Once
upgraded, the connection is the state machine of `Dago.WebSocket`. -/
def handleGraphStream (graphID : ExecId) : Option ℕ → Prog Response
  | none => pure ⟨101, .stream graphID⟩
  | some code => pure ⟨code, .handshakeRefused⟩

/-- The router: every request to its handler. -/
def handle (fuel : ℕ) : Request → Prog Response
  | .health => handleHealth
  | .submitGraph graphID body => handleSubmitGraph fuel graphID body
  | .listGraphs => handleListGraphs
  | .getGraph graphID => handleGetGraph graphID
  | .getStatus graphID => handleGetStatus graphID
  | .getResult graphID => handleGetResult graphID
  | .cancelGraph graphID => handleCancelGraph graphID
  | .metrics => handleMetrics
  | .graphStream graphID refused => handleGraphStream graphID refused

end Api

/-! ### Runs of the handlers -/

/-- A mapped program returns what the program returns, mapped. -/
theorem Prog.run_map_eq_ok {α β : Type} {f : α → β} {p : Prog α} {v w' : Sys} {b : β} :
    (f <$> p).run v = .ok (b, w') ↔ ∃ a, p.run v = .ok (a, w') ∧ f a = b := by
  show (p >>= fun a => pure (f a)).run v = _ ↔ _
  rw [Prog.run_bind]
  cases p.run v with
  | error e => simp [Except.bind]
  | ok r =>
    obtain ⟨a, w⟩ := r
    simp only [Except.bind, run_pure', Except.ok.injEq, Prod.mk.injEq]
    exact ⟨fun ⟨hb, hw⟩ => ⟨a, ⟨rfl, hw⟩, hb⟩,
      fun ⟨_, ⟨ha, hw⟩, hb⟩ => ⟨ha ▸ hb, hw⟩⟩

namespace Api

/-- A read loads the record once and changes nothing else. -/
theorem withRecord_run (graphID : ExecId) (k : GraphState → Response) (v : Sys) :
    (withRecord graphID k).run v = .ok (recordResponse k (v.getState graphID).1, v.next) := by
  cases h : (v.getState graphID).1 with
  | error e =>
    exact Prog.run_map_eq_ok.mpr
      ⟨.error ("failed to get state: " ++ e), by simp [Manager.getStatus, Prog.run, h], rfl⟩
  | ok s => exact Prog.run_map_eq_ok.mpr ⟨.ok s, by simp [Manager.getStatus, Prog.run, h], rfl⟩

end Api

/-! ### The transport adds no state -/

/-- The operation of the system a request runs, if it may change anything. -/
def Request.op? : Request → Option Op
  | .submitGraph graphID (.ok (g, inputs)) => some (.submitGraph graphID g inputs)
  | .cancelGraph graphID => some (.cancelExecution graphID)
  | _ => none

/-- Two worlds agree on what outlives a step: the store, the tracker and the bus. The clock
and the environment's answers are set anew by every step. -/
def Sys.Agree (w w' : Sys) : Prop :=
  w.store = w'.store ∧ w.executions = w'.executions ∧ w.bus = w'.bus

namespace Sys.Agree

theorem refl (w : Sys) : w.Agree w := ⟨rfl, rfl, rfl⟩

theorem trans {w₁ w₂ w₃ : Sys} (h₁ : w₁.Agree w₂) (h₂ : w₂.Agree w₃) :
    w₁.Agree w₃ :=
  ⟨h₁.1.trans h₂.1, h₁.2.1.trans h₂.2.1, h₁.2.2.trans h₂.2.2⟩

theorem with_eq {w w₀ : Sys} (h : w.Agree w₀) (clock : ℕ) (faults : List (Option String)) :
    { w with clock, faults } = { w₀ with clock, faults } := by
  obtain ⟨hs, he, hb⟩ := h
  simp only [hs, he, hb]

end Sys.Agree

/-- A step reads nothing of its world but what outlives steps. -/
theorem Step.of_agree {env : Env} {w w₀ w' : Sys} (h : w.Agree w₀) (hs : Step env w w') :
    Step env w₀ w' := by
  obtain ⟨op, fuel, clock, faults, hadm, hf, hrun⟩ := hs
  refine .mk op fuel clock faults ?_ hf (h.with_eq clock faults ▸ hrun)
  cases op <;> simp_all [Op.Admissible, h.1, h.2.1]

namespace Api

/-- **A request is a read or a step.** A request that runs no operation of the system leaves
the store, the tracker and the bus as they were; one that does moves the world by a step of
the system. -/
theorem handle_moves {env : Env} {w w' : Sys} {fuel clock : ℕ} {faults : List (Option String)}
    {req : Request} {resp : Response} (hadm : ∀ op ∈ req.op?, op.Admissible w)
    (hf : env.Allows faults)
    (h : (handle fuel req).run { w with clock, faults } = .ok (resp, w')) :
    (∀ op ∈ req.op?, Step env w w') ∧ (req.op? = none → w'.Agree w) := by
  cases req with
  | health | listGraphs | metrics =>
    cases h
    exact ⟨nofun, fun _ => ⟨rfl, rfl, rfl⟩⟩
  | graphStream graphID refused =>
    cases refused <;> cases h <;> exact ⟨nofun, fun _ => ⟨rfl, rfl, rfl⟩⟩
  | submitGraph graphID body =>
    rcases body with err | ⟨g, inputs⟩
    · cases h
      exact ⟨nofun, fun _ => ⟨rfl, rfl, rfl⟩⟩
    · obtain ⟨_, hrun, -⟩ := Prog.run_map_eq_ok.mp h
      refine ⟨fun op hop => ?_, nofun⟩
      cases hop
      exact .mk _ fuel clock faults (hadm _ rfl) hf (Prog.run_discard_of_run hrun)
  | getGraph graphID | getStatus graphID | getResult graphID =>
    simp only [handle, handleGetGraph, handleGetStatus, handleGetResult, withRecord_run] at h
    cases h
    exact ⟨nofun, fun _ => ⟨rfl, rfl, rfl⟩⟩
  | cancelGraph graphID =>
    obtain ⟨_, hrun, -⟩ := Prog.run_map_eq_ok.mp h
    refine ⟨fun op hop => ?_, nofun⟩
    cases hop
    exact .mk _ 0 clock faults (hadm _ rfl) hf (Prog.run_discard_of_run hrun)

/-- A request served from `w`: its handler runs to its end with the clock at `clock` and the
store and bus calls answered by `faults`. -/
inductive Serve (env : Env) : Sys → Sys → Prop
  | mk {w w' : Sys} (req : Request) (fuel clock : ℕ) (faults : List (Option String))
      (resp : Response) : (∀ op ∈ req.op?, op.Admissible w) → env.Allows faults →
      (handle fuel req).run { w with clock, faults } = .ok (resp, w') → Serve env w w'

/-- **Clients see reachable worlds.** Every world that a run of requests and operations in any
order reaches from the empty world agrees with a reachable world. -/
theorem clients_agree_reachable {env : Env} {w : Sys}
    (h : Relation.ReflTransGen (fun w w' => Step env w w' ∨ Serve env w w') Sys.init w) :
    ∃ w₀, Reachable env w₀ ∧ w.Agree w₀ := by
  induction h with
  | refl => exact ⟨_, .init, .refl _⟩
  | tail _ hstep ih =>
    obtain ⟨w₀, hr, ha⟩ := ih
    rcases hstep with hs | ⟨req, fuel, clock, faults, resp, hadm, hf, hrun⟩
    · exact ⟨_, hr.step (hs.of_agree ha), .refl _⟩
    · cases hop : req.op? with
      | none => exact ⟨w₀, hr, ((handle_moves hadm hf hrun).2 hop).trans ha⟩
      | some op =>
        exact ⟨_, hr.step (((handle_moves hadm hf hrun).1 op hop).of_agree ha), .refl _⟩

/-- **What a client reads is covered.** In every world that clients and the message handlers
reach, a record `handleGetGraph` answers has a node state for every node of its graph and
for nothing else. -/
theorem getGraph_covered {env : Env} {w w' : Sys}
    (h : Relation.ReflTransGen (fun w w' => Step env w w' ∨ Serve env w w') Sys.init w)
    {graphID : ExecId} {s : GraphState}
    (hget : (handleGetGraph graphID).run w = .ok (⟨200, .record s⟩, w')) : Covered s := by
  obtain ⟨w₀, hr, ha⟩ := clients_agree_reachable h
  rw [handleGetGraph, withRecord_run] at hget
  cases hs : (w.getState graphID).1 with
  | error e => simp [hs, recordResponse, notFound, errorResponse] at hget
  | ok s' =>
    simp only [hs, recordResponse, Except.ok.injEq, Prod.mk.injEq, Response.mk.injEq,
      Body.record.injEq, true_and] at hget
    exact hget.1 ▸ storeInv_covered hr _ _ (ha.1 ▸ Sys.store_of_getState_ok hs)

theorem getGraph_covered_submitted :
    ∃ w s w', Relation.ReflTransGen (fun w w' => Step .reliable w w' ∨ Serve .reliable w w')
        Sys.init w ∧
      (handleGetGraph "x").run w = .ok (⟨200, .record s⟩, w') ∧ Covered s := by
  obtain ⟨w, hs, s, w', hget⟩ : ∃ w, Step .reliable Sys.init w ∧
      ∃ s w', (handleGetGraph "x").run w = .ok (⟨200, .record s⟩, w') :=
    ⟨_, .mk (.submitGraph "x" Manager.linearGraph []) 3 0 [] ⟨rfl, rfl⟩ rfl rfl, _, _, rfl⟩
  exact ⟨w, s, w', .single (.inl hs), hget, getGraph_covered (.single (.inl hs)) hget⟩

end Api

end Dago
