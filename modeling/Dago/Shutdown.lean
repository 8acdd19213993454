import Dago.Safety

/-!
# Runs after Shutdown

`cmd/dago/main.go` stops the service in order: the HTTP server, which waits for the requests in
progress, then the gRPC server and the worker pool, and last the manager. Its `Shutdown`
cancels the manager's subscriptions and calls the `cancelFunc` of every tracker entry, so that
each deadline monitor sees a cancelled context and returns without a timeout. Handlers that were
running go on.

The tracker logic of `Dago.Tracker`, specialised to one execution and lifted to interleavings
by `Dago.Safety`, makes this a property of every interleaving. Once `Shutdown` has cancelled
the contexts, an execution with a record has no active context from then on: a fresh entry for
it would need a submission under its id, and no admissible submission uses an id that the
store knows. So its deadline never fails it, under any interleaving of the operations that
follow and any answers of the store and the bus.

## Main results

* `Op.prog_guards_inactive`: an operation that arrives while the record of an execution is
  stored keeps the execution's context inactive.
* `shutdown_disarms_deadlines`: after `Shutdown`, no deadline of an execution with a record
  fires.
-/

namespace Dago

/-- The entry of `k`, if it is the entry of `k`, has a context that is no longer active. -/
def Inactive (k : ExecId) (j : ExecId) (e : ExecutionContext) : Prop := j = k → e.ctx ≠ .active

theorem inactive_stable (k : ExecId) : EntryStable (Inactive k) where
  cancel _ _ := ContextState.cancel_ne_active _
  cancelled _ _ := ContextState.cancel_ne_active _
  expire _ _ := nofun

/-- A call keeps a record stored: the store only grows. -/
theorem Prog.step_store_isSome {α : Type} {p p' : Prog α} {w w' : Sys}
    (h : p.step w = some (p', w')) {k : ExecId} (hk : (w.store k).isSome) :
    (w'.store k).isSome := by
  rcases Prog.step_store h with hst | ⟨s, hst⟩
  · rwa [hst]
  · rw [hst, Sys.save_store]
    split
    · rfl
    · exact hk

/-- An operation that arrives while the record of `k` is stored submits under another id, so it
keeps the entry of `k` inactive. -/
theorem Op.prog_guards_inactive {k : ExecId} {w : Sys} (hk : (w.store k).isSome) (fuel : ℕ)
    {op : Op} (hop : op.Admissible w) :
    (op.prog fuel).Guards (fun _ => True) (TrackerInv (Inactive k)) fun _ => True := by
  refine Op.prog_guards_tracker (inactive_stable k) fuel op fun graphID g inputs hop' _ hid _ =>
    absurd hk ?_
  subst hop' hid
  simp [hop.1]

/-- `Shutdown`, with no operation in progress, leaves the record of `k` stored and cancels the
context of its entry. -/
theorem shutdown_inactive {w w₁ : Sys} (hsd : Manager.shutdown.run w = .ok ((), w₁)) {k : ExecId}
    (hk : (w.store k).isSome) :
    (w₁.store k).isSome ∧ w₁.Obeys (fun _ => True) (TrackerInv (Inactive k)) fun _ => True := by
  simp only [Manager.shutdown, Prog.run, Except.ok.injEq, Prod.mk.injEq, true_and] at hsd
  subst hsd
  refine ⟨hk, Sys.obeys_tracker_iff.mpr fun j e he _ => ?_⟩
  obtain ⟨e₀, -, rfl⟩ := Option.map_eq_some'.mp he
  exact ContextState.cancel_ne_active _

/-- **After `Shutdown` no deadline fires.** From any world with no operation in progress, once
`Shutdown` has cancelled the contexts, every interleaving of the operations that arrive
afterwards (completions, cancellations, deadlines, workers, and submissions under fresh ids),
under any answers of the store and the bus that the environment allows, reaches only worlds
where the expiry of the deadline of an execution that had a record leaves the world as it was:
the record is not failed and nothing is published. -/
theorem shutdown_disarms_deadlines {env : Env} {fuel : ℕ} {w w₁ : Sys} {k : ExecId}
    (hsd : Manager.shutdown.run w = .ok ((), w₁)) (hk : (w.store k).isSome) {c : Conc}
    (hc : Relation.ReflTransGen (Conc.Step env fuel) ⟨w₁, []⟩ c) :
    (Manager.monitorExecution k).run c.world = .ok ((), c.world) := by
  have h : Conc.Holds (fun w => (w.store k).isSome ∧
      w.Obeys (fun _ => True) (TrackerInv (Inactive k)) fun _ => True)
      (·.Guards (fun _ => True) (TrackerInv (Inactive k)) fun _ => True) c :=
    (Conc.Holds.idle (shutdown_inactive hsd hk)).star
      (fun hw hp hs => ⟨⟨Prog.step_store_isSome hs hw.1, (hp.step hw.2 hs).1⟩, (hp.step hw.2 hs).2⟩)
      (fun hw hop => Op.prog_guards_inactive hw.1 _ hop) (fun _ _ _ hw => ⟨hw.1, hw.2.answers _ _⟩)
      hc
  exact Manager.monitorExecution_run_of_inactive fun e he => h.world.2.tracker k e he rfl

theorem shutdown_disarms_deadlines_submitted :
    ∃ w w₁, replay .reliable 3 Sys.init [⟨.submitGraph "x" Manager.linearGraph [], 0, []⟩] =
        some w ∧ Manager.shutdown.run w = .ok ((), w₁) ∧ (w.store "x").isSome ∧
      ∀ c, Relation.ReflTransGen (Conc.Step .reliable 3) ⟨w₁, []⟩ c →
        (Manager.monitorExecution "x").run c.world = .ok ((), c.world) := by
  obtain ⟨w, hw, w₁, hsd, hk⟩ : ∃ w, replay .reliable 3 Sys.init
      [⟨.submitGraph "x" Manager.linearGraph [], 0, []⟩] = some w ∧
      ∃ w₁, Manager.shutdown.run w = .ok ((), w₁) ∧ (w.store "x").isSome :=
    ⟨_, rfl, _, rfl, rfl⟩
  exact ⟨w, w₁, hw, hsd, hk, fun c hc => shutdown_disarms_deadlines hsd hk hc⟩

end Dago
