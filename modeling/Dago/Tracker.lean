import Dago.Discipline

/-!
# The Tracker of Active Executions

The manager's `executions` map holds one `executionContext` per execution in flight: its
status, and the context whose deadline `monitorExecution` waits on. Few writes touch it.
`SubmitGraph` stores a fresh entry, `Running` with a live context. `completeGraph` cancels the
entry's context and deletes the entry. `CancelExecution` cancels the context and marks the
entry `Cancelled`, and deletes it once the record is saved. `monitorExecution` marks an
expired context `DeadlineExceeded`, and `Shutdown` cancels every context.

The call discipline of `Dago.Discipline`, with no constraint on records and publications, is
the program logic of the tracker: `TrackerInv p` lifts a property `p` of single entries to the
tracker, and a property that each update of the code keeps (`EntryStable`) is kept by every
function of the manager and of the worker, and by `Shutdown`.

The first such property is `ExecutionContext.Consistent`: an entry is `Running` or
`Cancelled`, and a `Cancelled` entry's context is no longer active. No write ever marks an
entry `Completed` or `Failed`, since `completeGraph` deletes the entry instead. So of the three
terminal statuses that `CancelExecution` checks, only `Cancelled` ever occurs, and its refusal
always reads `execution already in terminal state: cancelled`. Once an entry is `Cancelled`
its deadline does nothing, however long the record stays `Running`: after a cancellation whose
load of the record failed, the record is never reaped.

## Main results

* `Reachable.trackerInv`: every stable property of entries that fresh entries have holds in
  every reachable world.
* `tracker_entry_running_or_cancelled`: the entries of every reachable world.
* `cancelled_entry_never_times_out`: the deadline of a cancelled entry does nothing.
* `submit_publish_failure_strands_record`, `failed_operations_leave_changes`: failed
  operations leave the store and the tracker out of step.
-/

namespace Dago

/-- With no discipline on records and publications, a world keeps the discipline exactly when
its tracker does. -/
theorem Sys.obeys_tracker_iff {G : Tracker → Prop} {w : Sys} :
    w.Obeys (fun _ => True) G (fun _ => True) ↔ G w.executions :=
  ⟨(·.tracker), fun h => ⟨fun _ _ _ => trivial, h, fun _ _ => trivial⟩⟩

/-- Every operation keeps a stable property of entries, a submission provided the fresh entry
it registers has it. -/
theorem Op.prog_guards_tracker {p : ExecId → ExecutionContext → Prop} (hp : EntryStable p)
    (fuel : ℕ) (op : Op) (hfresh : ∀ graphID g inputs, op = .submitGraph graphID g inputs →
      ∀ startedAt, p graphID ⟨graphID, .running, startedAt, .active⟩) :
    (op.prog fuel).Guards (fun _ => True) (TrackerInv p) (fun _ => True) :=
  Op.prog_guards ⟨fun _ _ _ => trivial, fun _ _ _ _ => trivial⟩ (fun _ _ _ => trivial) hp
    ⟨fun _ _ => trivial, fun _ => trivial⟩ (fun _ _ _ _ => trivial) fuel op
    (fun _ _ _ _ _ => trivial) hfresh

/-- A property of entries that the empty tracker has, that every step keeps, and that every
fresh entry has, holds of every entry of every reachable world. -/
theorem Reachable.trackerInv {env : Env} {p : ExecId → ExecutionContext → Prop}
    (hp : EntryStable p) (hfresh : ∀ graphID startedAt,
      p graphID ⟨graphID, .running, startedAt, .active⟩) {w : Sys} (h : Reachable env w) :
    TrackerInv p w.executions := by
  refine Sys.obeys_tracker_iff.mp <| Reachable.invariant (Sys.obeys_tracker_iff.mpr nofun) ?_ h
  rintro w w' - hw ⟨op, fuel, clock, faults, -, -, hrun⟩
  exact (Op.prog_guards_tracker hp fuel op fun _ _ _ _ => hfresh _).run (hw.answers clock faults)
    hrun

/-! ### The entries of a reachable world -/

/-- No update makes a context active again: cancelling one yields a context that is not
active. -/
theorem ContextState.cancel_ne_active (c : ContextState) : c.cancel ≠ .active := by
  cases c <;> decide

/-- An entry is `Running` or `Cancelled`, and a `Cancelled` entry's context is no longer
active. -/
def ExecutionContext.Consistent (e : ExecutionContext) : Prop :=
  (e.status = .running ∨ e.status = .cancelled) ∧ (e.status = .cancelled → e.ctx ≠ .active)

theorem ExecutionContext.consistent_stable : EntryStable fun _ e => e.Consistent where
  cancel h := ⟨h.1, fun _ => ContextState.cancel_ne_active _⟩
  cancelled _ := ⟨.inr rfl, fun _ => ContextState.cancel_ne_active _⟩
  expire h := ⟨h.1, fun _ => nofun⟩

theorem Reachable.consistent {env : Env} {w : Sys} (h : Reachable env w) :
    TrackerInv (fun _ e => e.Consistent) w.executions :=
  h.trackerInv ExecutionContext.consistent_stable fun _ _ => ⟨.inl rfl, nofun⟩

/-- **Tracker entries are `Running` or `Cancelled`.** In every reachable world, under any
answers of the store and the bus, each entry of the tracker is `Running` or `Cancelled`, and a
`Cancelled` entry's context is no longer active. So `CancelExecution` refuses as terminal only
a cancelled execution: the `Completed` and `Failed` cases of its check never occur. -/
theorem tracker_entry_running_or_cancelled {env : Env} {w : Sys} (hr : Reachable env w)
    {k : ExecId} {e : ExecutionContext} (he : w.executions k = some e) :
    (e.status = .running ∨ e.status = .cancelled) ∧ (e.status = .cancelled → e.ctx ≠ .active) :=
  hr.consistent k e he

/-- `x` of `linearGraph` is submitted, and its cancellation fails to load the record: the
entry is left `Cancelled` while the record stays `Running`. -/
def strandedCancel : List Call :=
  [⟨.submitGraph "x" Manager.linearGraph [], 0, []⟩,
    ⟨.cancelExecution "x", 1, [some "store unavailable"]⟩]

theorem tracker_entry_running_or_cancelled_stranded :
    ∃ w e, replay .faulty 3 Sys.init strandedCancel = some w ∧ w.executions "x" = some e ∧
      (e.status = .running ∨ e.status = .cancelled) ∧
        (e.status = .cancelled → e.ctx ≠ .active) := by
  obtain ⟨w, hw, e, he⟩ : ∃ w, replay .faulty 3 Sys.init strandedCancel = some w ∧
      ∃ e, w.executions "x" = some e := ⟨_, rfl, _, rfl⟩
  exact ⟨w, e, hw, he, tracker_entry_running_or_cancelled (reachable_of_replay .init hw) he⟩

/-- A deadline finds nothing to do when the entry is missing or its context is no longer
active: the world is left as it was. -/
theorem Manager.monitorExecution_run_of_inactive {v : Sys} {k : ExecId}
    (h : ∀ e, v.executions k = some e → e.ctx ≠ .active) :
    (monitorExecution k).run v = .ok ((), v) := by
  simp only [monitorExecution, Executions.load_bind, Executions.update_bind]
  cases he : v.executions k with
  | none => simp [Prog.run, he]
  | some e => simp [Prog.run, he, h e he]

/-- **A cancelled execution never times out.** In every reachable world, once the tracker entry
of an execution is `Cancelled`, the expiry of its deadline leaves the world as it was, at any
clock and under any answers of the store and the bus: the record is not failed, nothing is
published, and the entry stays. -/
theorem cancelled_entry_never_times_out {env : Env} {w : Sys} (hr : Reachable env w)
    {k : ExecId} {e : ExecutionContext} (he : w.executions k = some e)
    (hc : e.status = .cancelled) (clock : ℕ) (faults : List (Option String)) :
    (Manager.monitorExecution k).run { w with clock, faults } =
      .ok ((), { w with clock, faults }) :=
  Manager.monitorExecution_run_of_inactive fun e' he' =>
    (hr.consistent k e' he').2 (Option.some.inj (he'.symm.trans he) ▸ hc)

theorem cancelled_entry_never_times_out_stranded :
    ∃ w e, replay .faulty 3 Sys.init strandedCancel = some w ∧ w.executions "x" = some e ∧
      e.status = .cancelled ∧
      (Manager.monitorExecution "x").run { w with clock := 2, faults := [] } =
        .ok ((), { w with clock := 2, faults := [] }) := by
  obtain ⟨w, hw, e, he, hc⟩ : ∃ w, replay .faulty 3 Sys.init strandedCancel = some w ∧
      ∃ e, w.executions "x" = some e ∧ e.status = .cancelled := ⟨_, rfl, _, rfl, rfl⟩
  exact ⟨w, e, hw, he, hc,
    cancelled_entry_never_times_out (reachable_of_replay .init hw) he hc 2 []⟩

/-! ### Failed operations

`SubmitGraph` returns the publish error of `GraphSubmitted` after the record is saved and
before the tracker entry exists, and `CancelExecution` cancels the entry before it loads the
record: a failure at either point leaves the store and the tracker out of step. -/

namespace Manager

/-- The submission of `linearGraph` as `x` whose publication of `GraphSubmitted` fails. -/
def failedSubmit : Call := ⟨.submitGraph "x" linearGraph [], 0, [none, some "bus unavailable"]⟩

/-- The cancellation of `x` whose load of the record fails. -/
def failedCancel : Call := ⟨.cancelExecution "x", 1, [some "store unavailable"]⟩

/-- **A failed submission leaves its record behind, untracked.** After `failedSubmit` the
store holds the `Running` record of `x` and the tracker has no entry for it, so no deadline
reaps it: an expiry of the deadline of `x` finds no entry and leaves the record `Running`. -/
theorem submit_publish_failure_strands_record :
    (replay .faulty 3 Sys.init [failedSubmit]).map
        (fun w => (w.nodeStatus "x" "A", w.trackerStatus "x")) =
      some (some (.running, .pending), none) ∧
    (replay .faulty 3 Sys.init [failedSubmit, ⟨.deadlineExceeded "x", 1, []⟩]).map
        (fun w => (w.nodeStatus "x" "A", w.trackerStatus "x")) =
      some (some (.running, .pending), none) :=
  ⟨by decide, by decide⟩

/-- **Failed operations change the world.** `failedSubmit` returns the publish error, and
the record it saved stays in the store. `failedCancel` returns the load error, and the tracker
entry of `x`, `Running` with an active context before, is left `Cancelled` with its context
cancelled, so that the deadline monitor has returned without a timeout and a second
cancellation is refused as terminal, while the record stays `Running`. -/
theorem failed_operations_leave_changes :
    ((submitGraph 3 "x" linearGraph []).run
        { Sys.init with faults := failedSubmit.faults }).toOption.map
      (fun r => (r.1, r.2.nodeStatus "x" "A")) =
      some (("", some "bus unavailable"), some (.running, .pending)) ∧
    (replay .reliable 3 Sys.init [⟨.submitGraph "x" linearGraph [], 0, []⟩]).bind
        (fun w => ((cancelExecution "x").run
          { w with clock := 1, faults := failedCancel.faults }).toOption.map
          fun r => (r.1, w.trackerStatus "x")) =
      some (some "failed to get state: store unavailable", some (.running, .active)) ∧
    (replay .faulty 3 Sys.init [⟨.submitGraph "x" linearGraph [], 0, []⟩, failedCancel]).map
        (fun w => (w.trackerStatus "x", w.nodeStatus "x" "B")) =
      some (some (.cancelled, .canceled), some (.running, .running)) ∧
    (replay .faulty 3 Sys.init [⟨.submitGraph "x" linearGraph [], 0, []⟩, failedCancel]).bind
        (fun w => ((cancelExecution "x").run { w with clock := 2 }).toOption.map Prod.fst) =
      some (some "execution already in terminal state: cancelled") :=
  ⟨by decide, by decide, by decide, by decide⟩

end Manager

end Dago
