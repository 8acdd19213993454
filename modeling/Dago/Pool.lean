import Mathlib.Logic.Relation

/-!
# Worker Statuses and the Health of the Pool

The bookkeeping around `worker.handleNodeExecution` in `internal/application/workers/pool.go`
and the health monitor. `Start` creates the workers `Idle`, and each runs `run`: it subscribes
to `node.events`, returning at once if `Subscribe` fails, and otherwise waits for the pool's
context, then sets itself `Stopped`. The bus hands every envelope to the subscription's
handler, which starts `go w.handleNodeExecution`. That goroutine sets the worker `Busy` under
its mutex on entry, and its `defer` sets it `Idle` when it returns. `Shutdown` cancels the
pool's context and waits for the `run` goroutines, not for the handlers. The subscription's
reader (`readStream`) runs apart from `run` and looks at the context only between batches of
reads, so envelopes of a batch still arrive after `Shutdown`, and after `run` has returned;
the model lets them arrive at any time once `Subscribe` has succeeded.

The model keeps the status of every worker, where its `run` goroutine is, and two counts the
code does not keep: its handlers started and not yet `Busy` (`pending`), and those `Busy` and
not yet returned (`running`). What each action of a worker's goroutines does is one function
(`PoolWorker.act`); a step is such an action of any worker, or `Shutdown`, at any time
(`Pool.step`), and each invariant below is one lemma about `act`.

The status is a single field written by every handler, so it does not track the handlers. A
worker reports `Busy` only while a handler of it runs (`busy_running`), but the converse fails:
when two handlers overlap, the first to return sets the worker `Idle` while the second still
runs (the example after `busy_running`). A handler that outlives `Shutdown` sets its stopped
worker `Idle` again, and the health monitor then finds the pool healthy. A worker whose
`Subscribe` failed is never handed an envelope and reports `Idle` forever
(`subscribe_failed_idle`), so it counts as an idle worker of a healthy pool: a pool none of
whose workers could subscribe runs nothing and is reported healthy for ever, after `Shutdown`
too (`unsubscribed_pool_healthy`).

## Main results

* `busy_running`, `stopped_cancelled`: what a status says about the goroutines.
* `subscribe_failed_idle`: a worker without a subscription reports `Idle` forever.
* `unsubscribed_pool_healthy`: the health monitor reports healthy a pool that runs nothing.
-/

namespace Dago

/-- `WorkerStatus`. -/
inductive WorkerStatus
  | idle
  | busy
  | stopped
  deriving DecidableEq, Repr

/-- Where the goroutine `run` of a worker is. -/
inductive RunState
  /-- Before its `Subscribe` has returned. -/
  | subscribing
  /-- Subscribed, waiting for the pool's context to be done. -/
  | waiting
  /-- Returned once the pool's context was done; the subscription's reader may still hand the
  rest of a batch. -/
  | returned
  /-- Returned at once because `Subscribe` failed: there is no subscription. -/
  | failed
  deriving DecidableEq, Repr

/-- A worker: its status, where its `run` is, and its handlers started (`pending`) and
running (`running`). -/
structure PoolWorker where
  status : WorkerStatus
  run : RunState
  pending : ℕ
  running : ℕ
  deriving DecidableEq, Repr

/-- The pool after `Start`: its workers in order, and whether `Shutdown` has cancelled its
context. -/
structure Pool where
  workers : List PoolWorker
  cancelled : Bool
  deriving DecidableEq, Repr

/-- The actions of the goroutines of one worker. -/
inductive WorkerAction
  /-- `Subscribe` returns `nil`. -/
  | subscribed
  /-- `Subscribe` fails: `run` logs and returns. -/
  | subscribeFailed
  /-- The bus calls the subscription's handler, which starts `go w.handleNodeExecution`. -/
  | deliver
  /-- A handler sets the worker `Busy`. -/
  | begin
  /-- A handler returns, and its `defer` sets the worker `Idle`. -/
  | finish
  /-- `run` sees the pool's context done, and sets the worker `Stopped`. -/
  | stop
  deriving DecidableEq, Repr

/-- What an action does to a worker of a pool whose context is `cancelled` or not; `none` when
it cannot be taken. The subscription's reader hands envelopes from the moment `Subscribe` has
succeeded, whether or not the pool's context is done. -/
def PoolWorker.act (cancelled : Bool) (w : PoolWorker) : WorkerAction → Option PoolWorker
  | .subscribed => if w.run = .subscribing then some { w with run := .waiting } else none
  | .subscribeFailed => if w.run = .subscribing then some { w with run := .failed } else none
  | .deliver =>
    if w.run = .waiting ∨ w.run = .returned then some { w with pending := w.pending + 1 }
    else none
  | .begin =>
    if w.pending = 0 then none
    else some { w with status := .busy, pending := w.pending - 1, running := w.running + 1 }
  | .finish =>
    if w.running = 0 then none else some { w with status := .idle, running := w.running - 1 }
  | .stop =>
    if cancelled = true ∧ w.run = .waiting then
      some { w with status := .stopped, run := .returned }
    else none

/-- The actions in the pool: one of a goroutine of the worker `i`, or `Shutdown` cancelling
the pool's context. -/
inductive PoolEvent
  | worker (i : ℕ) (a : WorkerAction)
  | cancel

namespace Pool

/-- The pool `Start` makes: `size` workers, all `Idle`. -/
def start (size : ℕ) : Pool := ⟨List.replicate size ⟨.idle, .subscribing, 0, 0⟩, false⟩

/-- The action `f` of the worker `i`, if there is such a worker and `f` may act. -/
def modify (p : Pool) (i : ℕ) (f : PoolWorker → Option PoolWorker) : Option Pool :=
  match p.workers[i]? with
  | none => none
  | some w => (f w).map fun w' => { p with workers := p.workers.set i w' }

/-- One action, `none` when it cannot be taken. -/
def step (p : Pool) : PoolEvent → Option Pool
  | .worker i a => p.modify i fun w => w.act p.cancelled a
  | .cancel => some { p with cancelled := true }

/-- A run of actions; `none` once one cannot be taken. -/
def run (p : Pool) : List PoolEvent → Option Pool
  | [] => some p
  | e :: es => (p.step e).bind fun p' => p'.run es

/-- A step of the pool, by any action. -/
def Steps (p p' : Pool) : Prop := ∃ e, p.step e = some p'

/-- The states that runs from `start size` reach. -/
def Reachable (size : ℕ) (p : Pool) : Prop := Relation.ReflTransGen Steps (start size) p

theorem modify_eq_some {p p' : Pool} {i : ℕ} {f : PoolWorker → Option PoolWorker} :
    p.modify i f = some p' ↔
      ∃ w w', p.workers[i]? = some w ∧ f w = some w' ∧
        p' = { p with workers := p.workers.set i w' } := by
  unfold modify
  cases hw : p.workers[i]? with
  | none => simp
  | some w => cases hf : f w <;> simp [hf, eq_comm]

/-- A run of actions is a sequence of steps. -/
theorem steps_of_run : ∀ {p p' : Pool} {es : List PoolEvent}, p.run es = some p' →
    Relation.ReflTransGen Steps p p'
  | _, _, [], h => by cases h; exact .refl
  | _, _, e :: _, h => by
    obtain ⟨p₁, h₁, h⟩ := Option.bind_eq_some.mp h
    exact .head ⟨e, h₁⟩ (steps_of_run h)

theorem reachable_of_run {size : ℕ} {p p' : Pool} {es : List PoolEvent}
    (hp : Relation.ReflTransGen Steps (start size) p) (h : p.run es = some p') :
    Reachable size p' :=
  hp.trans (steps_of_run h)

/-! ### What every worker satisfies -/

/-- What the status and the `run` of a worker say about its goroutines, in a pool whose
context is `cancelled` or not. -/
structure Sound (cancelled : Bool) (w : PoolWorker) : Prop where
  busy : w.status = .busy → 0 < w.running
  stopped : w.status = .stopped → w.run = .returned ∧ cancelled = true
  subscribing : w.run = .subscribing → w.pending = 0 ∧ w.running = 0 ∧ w.status = .idle

/-- Every worker of the pool is `Sound`. -/
def AllSound (p : Pool) : Prop := ∀ w ∈ p.workers, Sound p.cancelled w

theorem Sound.cancel {w : PoolWorker} {c : Bool} (h : Sound c w) : Sound true w :=
  ⟨h.busy, fun hs => ⟨(h.stopped hs).1, rfl⟩, h.subscribing⟩

/-- An action of one worker that keeps it `Sound` keeps the pool `AllSound`. -/
theorem AllSound.modify {p p' : Pool} {i : ℕ} {f : PoolWorker → Option PoolWorker}
    (hp : p.AllSound) (hf : ∀ w w', f w = some w' → Sound p.cancelled w → Sound p.cancelled w')
    (h : p.modify i f = some p') : p'.AllSound := by
  obtain ⟨w, w', hw, hw', rfl⟩ := modify_eq_some.mp h
  intro v hv
  rcases List.mem_or_eq_of_mem_set hv with hv | rfl
  · exact hp v hv
  · exact hf _ _ hw' (hp w (List.getElem?_mem hw))

/-- Every action of a worker keeps it `Sound`. -/
theorem Sound.act {c : Bool} {w w' : PoolWorker} {a : WorkerAction} (hs : Sound c w)
    (h : w.act c a = some w') : Sound c w' := by
  cases a <;> simp only [PoolWorker.act] at h <;> split_ifs at h with hg <;> cases h
  -- one goal left per action, in the order of the constructors
  · exact ⟨by simp [(hs.subscribing hg).2.2], by simp [(hs.subscribing hg).2.2], nofun⟩
  · exact ⟨by simp [(hs.subscribing hg).2.2], by simp [(hs.subscribing hg).2.2], nofun⟩
  · exact ⟨hs.busy, hs.stopped, fun hr => absurd hr (by rcases hg with hg | hg <;> simp [hg])⟩
  · exact ⟨fun _ => Nat.succ_pos _, nofun, fun hr => absurd (hs.subscribing hr).1 hg⟩
  · exact ⟨nofun, nofun, fun hr => absurd (hs.subscribing hr).2.1 hg⟩
  · exact ⟨nofun, fun _ => ⟨rfl, hg.1⟩, nofun⟩

/-- **Every action keeps every worker `Sound`.** -/
theorem AllSound.step {p p' : Pool} {e : PoolEvent} (hp : p.AllSound)
    (h : p.step e = some p') : p'.AllSound := by
  cases e with
  | worker i a => exact hp.modify (fun _ _ h hs => hs.act h) h
  | cancel =>
    cases h
    exact fun w hw => (hp w hw).cancel

theorem AllSound.start (size : ℕ) : (start size).AllSound := by
  intro w hw
  obtain ⟨-, rfl⟩ := List.mem_replicate.mp hw
  exact ⟨nofun, nofun, fun _ => ⟨rfl, rfl, rfl⟩⟩

theorem Reachable.allSound {size : ℕ} {p : Pool} (h : Reachable size p) : p.AllSound := by
  induction h with
  | refl => exact .start size
  | tail _ hs ih => exact ih.step hs.choose_spec

/-- **`Busy` means a handler runs.** In every reachable state, a worker that reports `Busy`
has a handler that set it so and has not returned. -/
theorem busy_running {size : ℕ} {p : Pool} (h : Reachable size p) {w : PoolWorker}
    (hw : w ∈ p.workers) (hb : w.status = .busy) : 0 < w.running :=
  (h.allSound w hw).busy hb

theorem busy_running_begun :
    ∃ p w, (start 1).run [.worker 0 .subscribed, .worker 0 .deliver, .worker 0 .begin] =
        some p ∧ w ∈ p.workers ∧ w.status = .busy ∧ 0 < w.running := by
  obtain ⟨p, hp, w, hw, hb⟩ : ∃ p, (start 1).run
      [.worker 0 .subscribed, .worker 0 .deliver, .worker 0 .begin] = some p ∧
      ∃ w, w ∈ p.workers ∧ w.status = .busy := ⟨_, rfl, ⟨.busy, .waiting, 0, 1⟩, by decide, rfl⟩
  exact ⟨p, w, hp, hw, hb, busy_running (reachable_of_run .refl hp) hw hb⟩

/-- The converse fails: two envelopes reach one worker, both handlers set it `Busy`, and the
first to return sets it `Idle` while the second runs. -/
example :
    (start 1).run [.worker 0 .subscribed, .worker 0 .deliver, .worker 0 .deliver,
        .worker 0 .begin, .worker 0 .begin, .worker 0 .finish] =
      some ⟨[⟨.idle, .waiting, 0, 1⟩], false⟩ := by
  decide

/-- **`Stopped` means shut down.** In every reachable state, a worker that reports `Stopped`
has returned from `run`, after `Shutdown` cancelled the pool. -/
theorem stopped_cancelled {size : ℕ} {p : Pool} (h : Reachable size p) {w : PoolWorker}
    (hw : w ∈ p.workers) (hs : w.status = .stopped) : w.run = .returned ∧ p.cancelled = true :=
  (h.allSound w hw).stopped hs

theorem stopped_cancelled_shutdown :
    ∃ p w, (start 1).run [.worker 0 .subscribed, .cancel, .worker 0 .stop] = some p ∧
      w ∈ p.workers ∧ w.status = .stopped ∧ w.run = .returned ∧ p.cancelled = true := by
  obtain ⟨p, hp, w, hw, hs⟩ : ∃ p, (start 1).run
      [.worker 0 .subscribed, .cancel, .worker 0 .stop] = some p ∧
      ∃ w, w ∈ p.workers ∧ w.status = .stopped :=
    ⟨_, rfl, ⟨.stopped, .returned, 0, 0⟩, by decide, rfl⟩
  exact ⟨p, w, hp, hw, hs, stopped_cancelled (reachable_of_run .refl hp) hw hs⟩

/-! ### A worker without a subscription -/

/-- A worker whose `Subscribe` failed, with no handler of it started: nothing can act on it. -/
def Idle (w : PoolWorker) : Prop :=
  w.status = .idle ∧ w.run = .failed ∧ w.pending = 0 ∧ w.running = 0

instance : DecidablePred Idle := fun _ => inferInstanceAs (Decidable (_ ∧ _ ∧ _ ∧ _))

/-- No action can be taken by an `Idle` worker. -/
theorem Idle.act_eq_none {c : Bool} {w : PoolWorker} (hi : Idle w) (a : WorkerAction) :
    w.act c a = none := by
  obtain ⟨-, hr, hn, hu⟩ := hi
  cases a <;> simp [PoolWorker.act, hr, hn, hu]

/-- No action changes an `Idle` worker. -/
theorem step_getElem_of_idle {p p' : Pool} {e : PoolEvent} (h : p.step e = some p') {i : ℕ}
    {w : PoolWorker} (hw : p.workers[i]? = some w) (hi : Idle w) : p'.workers[i]? = some w := by
  cases e with
  | cancel => cases h; exact hw
  | worker j a =>
    obtain ⟨v, v', hv, hv', rfl⟩ := modify_eq_some.mp h
    by_cases hji : j = i
    · subst hji
      rw [hw, Option.some.injEq] at hv
      subst hv
      rw [hi.act_eq_none] at hv'
      cases hv'
    · rw [List.getElem?_set_ne hji, hw]

/-- **A failed subscription leaves its worker `Idle` for good.** Once the `Subscribe` of a
worker has failed, the worker is never handed an envelope and reports `Idle` in every later
state, whatever the other goroutines do. -/
theorem subscribe_failed_idle {size : ℕ} {p p₁ p' : Pool} (h : Reachable size p) {i : ℕ}
    (hf : p.step (.worker i .subscribeFailed) = some p₁)
    (hrun : Relation.ReflTransGen Steps p₁ p') :
    ∃ w, p'.workers[i]? = some w ∧ Idle w := by
  obtain ⟨w, w', hw, hw', rfl⟩ := modify_eq_some.mp hf
  simp only [PoolWorker.act] at hw'
  split_ifs at hw' with hr
  cases hw'
  obtain ⟨hn, hu, hs⟩ := (h.allSound w (List.getElem?_mem hw)).subscribing hr
  have hi : p.workers.length > i := (List.getElem?_eq_some_iff.mp hw).1
  induction hrun with
  | refl => exact ⟨_, List.getElem?_set_self hi, hs, rfl, hn, hu⟩
  | tail _ hstep ih =>
    obtain ⟨v, hv, hidle⟩ := ih
    exact ⟨v, step_getElem_of_idle hstep.choose_spec hv hidle, hidle⟩

/-- Worker `0` of two fails to subscribe. Worker `1` subscribes and runs a handler, `Shutdown`
cancels the pool, and an envelope of the batch in hand still reaches worker `1` after it has
stopped. Worker `0` stays `Idle` throughout. -/
theorem subscribe_failed_idle_neighbour :
    ∃ p₁ p', (start 2).step (.worker 0 .subscribeFailed) = some p₁ ∧
      p₁.run [.worker 1 .subscribed, .worker 1 .deliver, .worker 1 .begin, .cancel,
        .worker 1 .stop, .worker 1 .deliver, .worker 1 .finish] = some p' ∧
      ∃ w, p'.workers[0]? = some w ∧ Idle w := by
  obtain ⟨p₁, hf, p', hp'⟩ : ∃ p₁, (start 2).step (.worker 0 .subscribeFailed) = some p₁ ∧
      ∃ p', p₁.run [.worker 1 .subscribed, .worker 1 .deliver, .worker 1 .begin, .cancel,
        .worker 1 .stop, .worker 1 .deliver, .worker 1 .finish] = some p' := ⟨_, rfl, _, rfl⟩
  exact ⟨p₁, p', hf, hp', subscribe_failed_idle .refl hf (steps_of_run hp')⟩

/-! ### The health monitor -/

/-- `HealthStatus`, without its timestamp. -/
structure HealthStatus where
  totalWorkers : ℕ
  idleWorkers : ℕ
  busyWorkers : ℕ
  stoppedWorkers : ℕ
  healthy : Bool
  deriving DecidableEq, Repr

/-- `Pool.GetStatus`: the status of every worker. -/
def getStatus (p : Pool) : List WorkerStatus := p.workers.map PoolWorker.status

/-- The loop of `HealthMonitor.GetStatus`: idle, busy and stopped workers counted. -/
def countStatuses : ℕ × ℕ × ℕ → List WorkerStatus → ℕ × ℕ × ℕ
  | counts, [] => counts
  | (idle, busy, stopped), status :: rest =>
    countStatuses
      (match status with
        | .idle => (idle + 1, busy, stopped)
        | .busy => (idle, busy + 1, stopped)
        | .stopped => (idle, busy, stopped + 1))
      rest

/-- `HealthMonitor.GetStatus`: healthy when some worker is idle and none is stopped. -/
def healthStatus (statuses : List WorkerStatus) : HealthStatus :=
  let (idle, busy, stopped) := countStatuses (0, 0, 0) statuses
  { totalWorkers := statuses.length, idleWorkers := idle, busyWorkers := busy,
    stoppedWorkers := stopped, healthy := idle > 0 && stopped == 0 }

/-- The loop counts each status. -/
theorem countStatuses_eq :
    ∀ (idle busy stopped : ℕ) (statuses : List WorkerStatus),
      countStatuses (idle, busy, stopped) statuses =
        (idle + statuses.count .idle, busy + statuses.count .busy,
          stopped + statuses.count .stopped)
  | _, _, _, [] => rfl
  | idle, busy, stopped, status :: rest => by
    cases status <;>
      simp only [countStatuses, countStatuses_eq, List.count_cons, beq_iff_eq, reduceCtorEq,
        if_true, if_false, Prod.mk.injEq] <;> omega

/-- No action but `Shutdown` can be taken in a pool whose workers are all `Idle`. -/
theorem workers_step_of_idle {p p' : Pool} {e : PoolEvent} (hall : ∀ w ∈ p.workers, Idle w)
    (h : p.step e = some p') : p'.workers = p.workers := by
  cases e with
  | cancel => cases h; rfl
  | worker i a =>
    obtain ⟨w, w', hw, hw', -⟩ := modify_eq_some.mp h
    rw [(hall w (List.getElem?_mem hw)).act_eq_none] at hw'
    cases hw'

/-- **A pool that runs nothing reports healthy.** Once the `Subscribe` of every worker has
failed, no envelope reaches the pool, and in every later state, after `Shutdown` too, the
health monitor counts every worker idle, none busy and none stopped, and finds the pool
healthy. -/
theorem unsubscribed_pool_healthy {p p' : Pool} (hall : ∀ w ∈ p.workers, Idle w)
    (hne : p.workers ≠ []) (hrun : Relation.ReflTransGen Steps p p') :
    healthStatus p'.getStatus = ⟨p.workers.length, p.workers.length, 0, 0, true⟩ := by
  have hw : p'.workers = p.workers := by
    induction hrun with
    | refl => rfl
    | tail _ hs ih =>
      exact (workers_step_of_idle (fun w hw => hall w (ih ▸ hw)) hs.choose_spec).trans ih
  have hidle : p'.getStatus = List.replicate p.workers.length .idle := by
    rw [getStatus, hw, List.eq_replicate_iff, List.length_map]
    exact ⟨rfl, fun st hst => by
      obtain ⟨w, hw, rfl⟩ := List.mem_map.mp hst
      exact (hall w hw).1⟩
  rw [hidle, healthStatus, countStatuses_eq]
  simp [List.count_replicate, List.length_pos.mpr hne]

/-- Both workers of a pool fail to subscribe, and the pool is shut down: it is still reported
healthy. -/
theorem unsubscribed_pool_healthy_shutdown :
    ∃ p p', (start 2).run [.worker 0 .subscribeFailed, .worker 1 .subscribeFailed] = some p ∧
      (∀ w ∈ p.workers, Idle w) ∧ p.workers ≠ [] ∧ p.run [.cancel] = some p' ∧
      healthStatus p'.getStatus = ⟨p.workers.length, p.workers.length, 0, 0, true⟩ := by
  obtain ⟨p, hp, hall, hne, p', hp'⟩ : ∃ p,
      (start 2).run [.worker 0 .subscribeFailed, .worker 1 .subscribeFailed] = some p ∧
      (∀ w ∈ p.workers, Idle w) ∧ p.workers ≠ [] ∧ ∃ p', p.run [.cancel] = some p' :=
    ⟨_, rfl, by decide, by decide, _, rfl⟩
  exact ⟨p, p', hp, hall, hne, hp', unsubscribed_pool_healthy hall hne (steps_of_run hp')⟩

/-- A stopped pool reports healthy as well: a handler runs when `Shutdown` cancels the pool; the
worker's `run` sets it `Stopped` and returns, so `Shutdown` returns, and then the handler returns
and sets the worker `Idle`. -/
example :
    ((start 1).run [.worker 0 .subscribed, .worker 0 .deliver, .worker 0 .begin, .cancel,
        .worker 0 .stop, .worker 0 .finish]).map
        (fun p => (p.workers.map PoolWorker.run, (healthStatus p.getStatus).healthy)) =
      some ([.returned], true) := by
  decide

end Pool

end Dago
