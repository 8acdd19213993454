import Mathlib.Logic.Relation
import Dago.Domain

/-!
# The Event Stream of a WebSocket Connection

`HandleGraphStream` of `pkg/api/websocket/handler.go`, which `SetupWebSocket` mounts at
`/api/v1/graphs/:id/ws`. For one connection it makes a channel of capacity ten and starts
`subscribeToEvents`, whose handler, subscribed to `graph.events` and `node.events`, converts
each event the bus hands it and offers it to the channel without blocking: the event goes in
when there is room and is dropped when the channel is full. Once the request's context is done
the handler may also return without putting it in, Go's `select` choosing at random between
two ready cases. The connection's loop takes the events from the channel one at a time, skips
those of other graphs and writes the others to the socket. It returns when the context is
done or a write fails, and its deferred `cancel` then ends the context.

The model keeps the channel, the messages written, whether the context is done and whether the
loop has returned. What the bus hands the handler is an action that may come in any order and
at any time, since the bus's delivery order is not in the repository. Beside that state it
records what an observer sees: the events handed to the handler, those it put into the
channel, and the event whose write failed. `json.Marshal` of a modelled event cannot fail and
the handler never sends a nil event, so those two branches of the loop are left out.

The events of every graph share the channel and are filtered only when they are taken out, so
events of other graphs take the room of the connection's own: the example after
`sent_complete` drops an event of the graph while its client is still connected.

## Main results

* `Conn.Reachable.inv`: the invariant of every run, the channel bound included.
* `sent_sublist_offered`: the socket receives only events of its graph, in the order the
  handler was called, and none more often than it was handed over.
* `sent_complete`: until a write fails, every event of its graph that the handler put into
  the channel has been written or still waits in the channel, in order.
-/

namespace Dago

namespace WebSocket

/-- The capacity of `eventChan`. -/
def capacity : ℕ := 10

/-- Whether an event is for the graph `graphID`: the loop skips it when
`event.GraphID != graphID`. -/
def forGraph (graphID : ExecId) (e : Event) : Bool := e.executionID = graphID

/-- One WebSocket connection for the graph `graphID`, with what an observer records of it. -/
structure Conn where
  graphID : ExecId
  /-- The events waiting in `eventChan`, oldest first. -/
  chan : List Event
  /-- `ctx.Done()` is closed. -/
  done : Bool
  /-- `HandleGraphStream` has returned. -/
  returned : Bool
  /-- The messages written to the socket, in order. -/
  sent : List Event
  /-- The events the bus has handed the handler. -/
  offered : List Event
  /-- Those the handler put into the channel. -/
  accepted : List Event
  /-- The event whose write failed. -/
  failed : List Event

/-- What happens in a connection. -/
inductive Action
  /-- The bus calls the handler with an event. `toChan` is the choice of Go's `select` when
  both the send and `ctx.Done()` are ready. -/
  | handle (e : Event) (toChan : Bool)
  /-- A turn of the loop: `fromChan` is the choice of its `select` when both the channel and
  `ctx.Done()` are ready, and `writeOk` whether `WriteMessage` succeeds. -/
  | receive (fromChan writeOk : Bool)
  /-- The request's context is cancelled: the client went away, or the server shuts down. -/
  | cancel

namespace Conn

/-- A connection as `HandleGraphStream` starts it. -/
def start (graphID : ExecId) : Conn := ⟨graphID, [], false, false, [], [], [], []⟩

/-- The handler's `select`: the event goes into the channel when there is room and, with the
context done, the choice falls on the send; otherwise it is dropped. -/
def handle (c : Conn) (e : Event) (toChan : Bool) : Conn :=
  if c.chan.length < capacity ∧ (c.done = false ∨ toChan = true) then
    { c with chan := c.chan ++ [e], offered := c.offered ++ [e], accepted := c.accepted ++ [e] }
  else { c with offered := c.offered ++ [e] }

/-- The loop returns, and its deferred `cancel` ends the context. -/
def stop (c : Conn) : Conn := { c with done := true, returned := true }

/-- One turn of the loop; `none` while it blocks, and once it has returned. -/
def receive (c : Conn) (fromChan writeOk : Bool) : Option Conn :=
  if c.returned then none
  else
    match c.chan with
    | [] => if c.done then some c.stop else none
    | e :: rest =>
      if c.done ∧ fromChan = false then some c.stop
      else if e.executionID ≠ c.graphID then some { c with chan := rest }
      else if writeOk then some { c with chan := rest, sent := c.sent ++ [e] }
      else some { c with chan := rest, failed := c.failed ++ [e] }.stop

/-- One action; `none` when it cannot happen. -/
def step (c : Conn) : Action → Option Conn
  | .handle e toChan => some (c.handle e toChan)
  | .receive fromChan writeOk => c.receive fromChan writeOk
  | .cancel => some { c with done := true }

/-- A step of the connection, by any action. -/
def Steps (c c' : Conn) : Prop := ∃ a, c.step a = some c'

/-- The states that runs from `start graphID` reach. -/
def Reachable (graphID : ExecId) (c : Conn) : Prop :=
  Relation.ReflTransGen Steps (start graphID) c

/-- Run a script of actions: `none` once an action cannot happen. -/
def run (c : Conn) : List Action → Option Conn
  | [] => some c
  | a :: as => (c.step a).bind fun c' => c'.run as

/-- A script from the start of a connection runs to reachable states only. -/
theorem reachable_of_run {graphID : ExecId} :
    ∀ {c c' : Conn} {as : List Action}, Reachable graphID c → c.run as = some c' →
      Reachable graphID c'
  | _, _, [], hc, h => by cases h; exact hc
  | c, c', a :: as, hc, h => by
    simp only [run, Option.bind_eq_some] at h
    obtain ⟨c₁, h₁, h⟩ := h
    exact reachable_of_run (hc.tail ⟨a, h₁⟩) h

/-! ### What a turn of the loop can do -/

/-- Every turn of the loop that happens returns, skips the oldest event, writes it, or fails
to write it and returns. -/
theorem receive_cases {c c' : Conn} {fromChan writeOk : Bool}
    (h : c.receive fromChan writeOk = some c') :
    c.returned = false ∧
      (c' = c.stop ∨
        ∃ e rest, c.chan = e :: rest ∧
          (e.executionID ≠ c.graphID ∧ c' = { c with chan := rest } ∨
            e.executionID = c.graphID ∧ c' = { c with chan := rest, sent := c.sent ++ [e] } ∨
            e.executionID = c.graphID ∧
              c' = { c with chan := rest, failed := c.failed ++ [e] }.stop)) := by
  unfold receive at h
  by_cases hr : c.returned = true
  · rw [if_pos hr] at h
    cases h
  rw [if_neg hr] at h
  refine ⟨by simpa using hr, ?_⟩
  cases hc : c.chan with
  | nil =>
    rw [hc] at h
    dsimp only at h
    by_cases hd : c.done = true
    · rw [if_pos hd] at h
      exact .inl (Option.some.inj h).symm
    · rw [if_neg hd] at h
      cases h
  | cons e rest =>
    rw [hc] at h
    dsimp only at h
    by_cases hd : c.done = true ∧ fromChan = false
    · rw [if_pos hd] at h
      exact .inl (Option.some.inj h).symm
    rw [if_neg hd] at h
    refine .inr ⟨e, rest, rfl, ?_⟩
    by_cases hg : e.executionID = c.graphID
    · rw [if_neg (not_not.mpr hg)] at h
      cases writeOk
      · exact .inr (.inr ⟨hg, (Option.some.inj h).symm⟩)
      · exact .inr (.inl ⟨hg, (Option.some.inj h).symm⟩)
    · rw [if_pos hg] at h
      exact .inl ⟨hg, (Option.some.inj h).symm⟩

/-! ### The invariant of every run -/

/-- What holds of a connection after any run: the channel keeps its bound; the events the
handler accepted are those taken from the channel followed by those still in it, and the
messages written and the failed write are the events of the graph among those taken; the
accepted events are among the offered ones, in order; and a write fails only as the loop
returns. -/
structure Inv (c : Conn) : Prop where
  bounded : c.chan.length ≤ capacity
  fifo : ∃ taken, c.accepted = taken ++ c.chan ∧
    c.sent ++ c.failed = taken.filter (forGraph c.graphID)
  accepted_sublist : c.accepted.Sublist c.offered
  failed_nil : c.returned = false → c.failed = []

theorem Inv.start (graphID : ExecId) : (start graphID).Inv :=
  ⟨Nat.zero_le _, ⟨[], rfl, rfl⟩, .slnil, fun _ => rfl⟩

theorem Inv.stop {c : Conn} (h : c.Inv) : c.stop.Inv :=
  ⟨h.bounded, h.fifo, h.accepted_sublist, nofun⟩

theorem Inv.handle {c : Conn} (h : c.Inv) (e : Event) (toChan : Bool) :
    (c.handle e toChan).Inv := by
  obtain ⟨hb, ⟨taken, hacc, hsent⟩, hsub, hf⟩ := h
  unfold Conn.handle
  split_ifs with hroom
  · refine ⟨by simp only [List.length_append, List.length_singleton]; omega,
      ⟨taken, by rw [hacc, List.append_assoc], hsent⟩, hsub.append (.refl _), hf⟩
  · exact ⟨hb, ⟨taken, hacc, hsent⟩, hsub.trans (List.sublist_append_left _ _), hf⟩

theorem Inv.receive {c c' : Conn} {fromChan writeOk : Bool} (h : c.Inv)
    (hc : c.receive fromChan writeOk = some c') : c'.Inv := by
  obtain ⟨hr, rfl | ⟨e, rest, hchan, hcase⟩⟩ := receive_cases hc
  · exact h.stop
  obtain ⟨hb, ⟨taken, hacc, hsent⟩, hsub, hf⟩ := h
  have hfail : c.failed = [] := hf hr
  -- the oldest event moves from the channel to the events taken
  have hacc' : c.accepted = (taken ++ [e]) ++ rest := by simp [hacc, hchan]
  have hb' : rest.length ≤ capacity := by
    rw [hchan, List.length_cons] at hb
    omega
  rcases hcase with ⟨hg, rfl⟩ | ⟨hg, rfl⟩ | ⟨hg, rfl⟩
  · refine ⟨hb', ⟨taken ++ [e], hacc', ?_⟩, hsub, hf⟩
    simp [hsent, forGraph, hg]
  · refine ⟨hb', ⟨taken ++ [e], hacc', ?_⟩, hsub, fun _ => hfail⟩
    simp only [hfail, List.append_nil] at hsent ⊢
    simp [hsent, forGraph, hg]
  · refine ⟨hb', ⟨taken ++ [e], hacc', ?_⟩, hsub, nofun⟩
    simp only [hfail, List.nil_append, List.append_nil] at hsent ⊢
    simp [hsent, forGraph, hg, Conn.stop]

/-- **Every action keeps the invariant**, and the connection's graph. -/
theorem Inv.step {c c' : Conn} {a : Action} (h : c.Inv) (hs : c.step a = some c') :
    c'.Inv ∧ c'.graphID = c.graphID := by
  cases a with
  | handle e toChan =>
    cases hs
    refine ⟨h.handle e toChan, ?_⟩
    unfold Conn.handle
    split_ifs <;> rfl
  | receive fromChan writeOk =>
    refine ⟨h.receive hs, ?_⟩
    obtain ⟨-, rfl | ⟨_, _, -, ⟨-, rfl⟩ | ⟨-, rfl⟩ | ⟨-, rfl⟩⟩⟩ := receive_cases hs <;> rfl
  | cancel =>
    cases hs
    exact ⟨⟨h.bounded, h.fifo, h.accepted_sublist, h.failed_nil⟩, rfl⟩

theorem Reachable.inv {graphID : ExecId} {c : Conn} (h : Reachable graphID c) :
    c.Inv ∧ c.graphID = graphID := by
  induction h with
  | refl => exact ⟨.start graphID, rfl⟩
  | tail _ hs ih =>
    obtain ⟨a, hs⟩ := hs
    obtain ⟨hinv, hg⟩ := ih.1.step hs
    exact ⟨hinv, hg.trans ih.2⟩

/-! ### What the socket receives -/

open List in
/-- **Only its graph, in order, never twice.** In every state of a connection, the messages
written to the socket are, in order, a sublist of the events of its graph that the bus handed
the handler: no event of another graph is written, none is written ahead of one handed over
before it, and none more often than it was handed over. -/
theorem sent_sublist_offered {graphID : ExecId} {c : Conn} (h : Reachable graphID c) :
    c.sent.Sublist (c.offered.filter (forGraph graphID)) := by
  obtain ⟨⟨-, ⟨taken, hacc, hsent⟩, hsub, -⟩, rfl⟩ := h.inv
  calc c.sent <+ c.sent ++ c.failed := List.sublist_append_left _ _
    _ = taken.filter (forGraph c.graphID) := hsent
    _ <+ c.accepted.filter (forGraph c.graphID) :=
      hacc ▸ (List.sublist_append_left _ _).filter _
    _ <+ c.offered.filter (forGraph c.graphID) := hsub.filter _

/-- A connection for `x`: an event of `y` and two of `x` come in, the loop skips the first and
writes the second, and the third still waits in the channel. -/
def mixedScript : List Action :=
  [.handle ⟨.graphSubmitted, "y", .fields []⟩ true, .handle ⟨.nodeStarted, "x", .fields []⟩ true,
    .receive true true, .receive true true, .handle ⟨.graphCompleted, "x", .fields []⟩ true]

theorem sent_sublist_offered_mixed :
    ∃ c, (start "x").run mixedScript = some c ∧
      c.sent.Sublist (c.offered.filter (forGraph "x")) := by
  obtain ⟨c, hc⟩ : ∃ c, (start "x").run mixedScript = some c := ⟨_, rfl⟩
  exact ⟨c, hc, sent_sublist_offered (reachable_of_run .refl hc)⟩

/-- **Nothing of its graph is lost in the channel.** Until a write fails, every event of the
connection's graph that the handler put into the channel has been written to the socket or
still waits in the channel, and in the order the handler put them in. -/
theorem sent_complete {graphID : ExecId} {c : Conn} (h : Reachable graphID c)
    (hf : c.failed = []) :
    c.sent ++ c.chan.filter (forGraph graphID) = c.accepted.filter (forGraph graphID) := by
  obtain ⟨⟨-, ⟨taken, hacc, hsent⟩, -, -⟩, rfl⟩ := h.inv
  rw [hf, List.append_nil] at hsent
  rw [hacc, List.filter_append, hsent]

theorem sent_complete_mixed :
    ∃ c, (start "x").run mixedScript = some c ∧ c.failed = [] ∧
      c.sent ++ c.chan.filter (forGraph "x") = c.accepted.filter (forGraph "x") := by
  obtain ⟨c, hc, hf⟩ : ∃ c, (start "x").run mixedScript = some c ∧ c.failed = [] :=
    ⟨_, rfl, rfl⟩
  exact ⟨c, hc, hf, sent_complete (reachable_of_run .refl hc) hf⟩

/-- Ten events of another graph fill the channel before the loop takes one: the next event of
the connection's own graph is dropped, though the context is live. -/
example :
    let other : Event := ⟨.graphSubmitted, "b", .fields []⟩
    let full := (List.replicate capacity other).foldl (fun c e => c.handle e true) (start "a")
    full.done = false ∧
      ((full.handle ⟨.graphCompleted, "a", .fields []⟩ true).accepted.filter
        (forGraph "a")).length = 0 := by
  decide

end Conn

end WebSocket

end Dago
