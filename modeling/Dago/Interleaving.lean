import Mathlib.Logic.Relation
import Dago.Redelivery

/-!
# Interleaved Operations

The coordinator runs its handlers concurrently: a completion handler, a cancellation and a
deadline may work on one execution at once, each by load-modify-save on the record, with no
lock and no version check. `Conc.Step` interleaves them call by call: an operation arrives
and its program joins the threads in progress, one thread makes its next call on the store,
the bus, the tracker or the clock (`Prog.step`), or the clock moves and the environment fixes
its answers to the next calls.

A handler that loaded the record before a concurrent write saves its stale copy over that
write: the specification accepts last-writer-wins (§5, §9). So interleavings are not
serializable. A completion that loaded the `Running` record before a cancellation saves
`Running` again after the cancellation has succeeded, which no sequential order of the two
does (`cancel_overwritten`). What holds is that the operations that arrive after a record has
ended leave it ended, under any interleaving and any answers of the store and the bus
(`ended_stays_ended`).

## Main results

* `cancel_overwritten`: a completion interleaved with a successful cancellation leaves the
  record `Running`, where both sequential orders leave it `Cancelled`.
* `ended_stays_ended`: from a world where the record of an execution is terminal and no
  operation is in progress, every interleaving keeps it terminal.
-/

namespace Dago

/-! ### Interleavings -/

/-- A world with the operations in progress, each as the rest of its program. -/
structure Conc where
  world : Sys
  threads : List (Prog Unit)

/-- One step of an interleaving, every dispatch with `fuel`. -/
inductive Conc.Step (env : Env) (fuel : ℕ) : Conc → Conc → Prop
  /-- An operation arrives: its program joins the threads. -/
  | spawn {w : Sys} {ts : List (Prog Unit)} (op : Op) :
      op.Admissible w → Conc.Step env fuel ⟨w, ts⟩ ⟨w, ts ++ [op.prog fuel]⟩
  /-- The thread `i` makes its next call. -/
  | call {w w' : Sys} {ts : List (Prog Unit)} {p p' : Prog Unit} (i : ℕ) :
      ts.get? i = some p → p.step w = some (p', w') →
      Conc.Step env fuel ⟨w, ts⟩ ⟨w', ts.set i p'⟩
  /-- The clock moves, and the environment fixes its answers to the next calls. -/
  | tick {w : Sys} {ts : List (Prog Unit)} (clock : ℕ) (faults : List (Option String)) :
      env.Allows faults → Conc.Step env fuel ⟨w, ts⟩ ⟨{ w with clock, faults }, ts⟩

/-- One move of a scripted interleaving with the store and the bus succeeding. -/
inductive Sched
  | spawn (op : Op)
  | call (i : ℕ)
  | tick (clock : ℕ)

/-- Run a scripted interleaving: `none` once a move is not possible. -/
def Conc.run (fuel : ℕ) : Conc → List Sched → Option Conc
  | c, [] => some c
  | c, .spawn op :: ss =>
    if op.Admissible c.world then Conc.run fuel ⟨c.world, c.threads ++ [op.prog fuel]⟩ ss
    else none
  | c, .call i :: ss =>
    match c.threads.get? i with
    | none => none
    | some p =>
      match p.step c.world with
      | none => none
      | some (p', w') => Conc.run fuel ⟨w', c.threads.set i p'⟩ ss
  | c, .tick t :: ss => Conc.run fuel ⟨{ c.world with clock := t, faults := [] }, c.threads⟩ ss

/-- A scripted interleaving is an interleaving. -/
theorem Conc.run_sound {fuel : ℕ} :
    ∀ {c c' : Conc} {ss : List Sched}, Conc.run fuel c ss = some c' →
      Relation.ReflTransGen (Conc.Step .reliable fuel) c c'
  | _, _, [], h => by cases h; exact .refl
  | ⟨w, ts⟩, c', .spawn op :: ss, h => by
    simp only [Conc.run] at h
    split at h
    · exact .head (.spawn op ‹_›) (Conc.run_sound h)
    · cases h
  | ⟨w, ts⟩, c', .call i :: ss, h => by
    simp only [Conc.run] at h
    split at h
    · cases h
    · split at h
      · cases h
      · exact .head (.call i ‹_› ‹_›) (Conc.run_sound h)
  | ⟨w, ts⟩, c', .tick t :: ss, h => .head (.tick t [] rfl) (Conc.run_sound h)

/-! ### A cancellation overwritten -/

open Manager

/-- The completion of `B` loads the `Running` record of `x`; a cancellation of `x` runs to its
end; the completion then saves the record it loaded, with `B` completed, and dispatches `D`. -/
def cancelDuringCompletion : List Sched :=
  [.spawn (.nodeCompleted (completionOf "B" [])), .call 0, .spawn (.cancelExecution "x")] ++
    List.replicate 7 (.call 1) ++ List.replicate 6 (.call 0)

/-- **A cancellation is overwritten.** After the submission of `pipelineGraph` as `x`, the
completion of `B` and a cancellation of `x` run one after the other, in either order, leave the
record `Cancelled`. Interleaved as in `cancelDuringCompletion`, the cancellation succeeds (it
publishes `GraphCancelled` and removes the tracker entry) and the record ends `Running`, with
`D` in flight and no tracker entry, so no deadline will fail it. -/
theorem cancel_overwritten :
    (replay .reliable 3 Sys.init
        [⟨.submitGraph "x" pipelineGraph [], 0, []⟩,
         ⟨.nodeCompleted (completionOf "B" []), 0, []⟩, ⟨.cancelExecution "x", 0, []⟩]).bind
      (·.nodeStatus "x" "B") = some (.cancelled, .completed) ∧
    (replay .reliable 3 Sys.init
        [⟨.submitGraph "x" pipelineGraph [], 0, []⟩,
         ⟨.cancelExecution "x", 0, []⟩, ⟨.nodeCompleted (completionOf "B" []), 0, []⟩]).bind
      (·.nodeStatus "x" "B") = some (.cancelled, .completed) ∧
    ∃ w c, replay .reliable 3 Sys.init [⟨.submitGraph "x" pipelineGraph [], 0, []⟩] = some w ∧
      Relation.ReflTransGen (Conc.Step .reliable 3) ⟨w, []⟩ c ∧
      c.world.nodeStatus "x" "B" = some (.running, .completed) ∧
      c.world.nodeStatus "x" "D" = some (.running, .running) ∧
      c.world.graphEvents = [.graphSubmitted, .nodeStarted, .graphCancelled, .nodeStarted] ∧
      c.world.trackerStatus "x" = none :=
  ⟨by decide, by decide, _, _, rfl,
    Conc.run_sound (show Conc.run 3 ⟨_, []⟩ cancelDuringCompletion = some _ from rfl),
    by decide, by decide, by decide, by decide⟩

/-! ### An ended record stays ended -/

/-- A call changes the store by one save at most. -/
theorem Prog.step_store {α : Type} {p p' : Prog α} {w w' : Sys} (h : p.step w = some (p', w')) :
    w'.store = w.store ∨ ∃ s, w'.store = (w.save s).store := by
  cases p <;> simp only [Prog.step, reduceCtorEq, Option.some.injEq, Prod.mk.injEq] at h <;>
    obtain ⟨-, rfl⟩ := h
  case saveState s _ =>
    unfold Sys.saveState
    split
    · exact .inl rfl
    · exact .inr ⟨s, rfl⟩
  case publish =>
    unfold Sys.publish
    split <;> exact .inl rfl
  all_goals exact .inl rfl

/-- A call keeps records under their own ids. -/
theorem Keyed.step {α : Type} {p p' : Prog α} {w w' : Sys} (hw : Keyed w)
    (h : p.step w = some (p', w')) : Keyed w' := by
  rcases Prog.step_store h with hst | ⟨s, hst⟩
  · exact hw.of_store_eq hst
  · exact (hw.save s).of_store_eq hst

/-- A covered record, terminal if it is a record of `id`. -/
def Ended (id : ExecId) (s : GraphState) : Prop :=
  Covered s ∧ (s.graphID = id → s.status.isTerminal)

theorem Ended.stable (id : ExecId) : Stable (Ended id) where
  covered h := h.1
  updateNode _ _ h := ⟨h.1.updateNode _ _, by simpa using h.2⟩
  ended _ _ ht h := ⟨h.1, fun _ => ht⟩

/-- What an interleaving keeps once the record of `id` has ended: records stay under their
ids, the record of `id` stays stored, every record is `Ended id`, and every thread saves only
such records. -/
structure Settled (id : ExecId) (c : Conc) : Prop where
  keyed : Keyed c.world
  stored : (c.world.store id).isSome
  records : StoreInv (Ended id) c.world
  threads : ∀ p ∈ c.threads, p.Keeps (Ended id) fun _ => True

/-- An operation that arrives while the record of `id` is stored submits under another id, so
it saves only `Ended id` records. -/
theorem Settled.spawn {id : ExecId} {c : Conc} (h : Settled id c) (fuel : ℕ) {op : Op}
    (hop : op.Admissible c.world) : (op.prog fuel).Keeps (Ended id) fun _ => True := by
  refine Op.prog_keeps (Ended.stable id) fuel op fun k g inputs hk now =>
    ⟨covered_initialState _ _ _ _, fun hid => absurd h.stored ?_⟩
  subst hk
  simp only [Manager.initialState] at hid
  simp [← hid, hop.1]

/-- **Every step of an interleaving keeps `Settled`.** -/
theorem Settled.step {env : Env} {fuel : ℕ} {id : ExecId} {c c' : Conc} (h : Settled id c)
    (hs : Conc.Step env fuel c c') : Settled id c' := by
  cases hs with
  | spawn op hop =>
    refine ⟨h.keyed, h.stored, h.records, fun p hp => ?_⟩
    rcases List.mem_append.mp hp with hp | hp
    · exact h.threads p hp
    · exact List.mem_singleton.mp hp ▸ h.spawn fuel hop
  | @call w w' ts p p' i hi hstep =>
    obtain ⟨hw', hp'⟩ := (h.threads p (List.get?_mem hi)).step h.records hstep
    refine ⟨h.keyed.step hstep, ?_, hw', fun q hq => ?_⟩
    · rcases Prog.step_store hstep with hst | ⟨s, hst⟩
      · simpa [hst] using h.stored
      · have := h.stored
        simp only [hst, Sys.save_store]
        split <;> simp_all
    · rcases List.mem_or_eq_of_mem_set hq with hq | rfl
      · exact h.threads q hq
      · exact hp'
  | tick => exact ⟨h.keyed.of_store_eq rfl, h.stored, h.records, h.threads⟩

/-- A world with no operation in progress, its records under their ids and covering their
graphs, where the record of `id` is terminal. -/
theorem Settled.init {id : ExecId} {w : Sys} {s : GraphState} (hk : Keyed w)
    (hcov : StoreInv Covered w) (hs : w.store id = some s) (ht : s.status.isTerminal) :
    Settled id ⟨w, []⟩ := by
  refine ⟨hk, by simp [hs], fun k r hr => ⟨hcov k r hr, fun hid => ?_⟩, by simp⟩
  obtain rfl : k = id := (hk k r hr).symm.trans hid
  obtain rfl : r = s := Option.some.inj (hr.symm.trans hs)
  exact ht

/-- **An ended record stays ended.** From any world with no operation in progress whose records
are stored under their ids and cover their graphs, as those of every reachable world are
(`Reachable.keyed`, `storeInv_covered`) and those of every world an interleaving reaches
(`covered_interleaved`), and where the record of `id` is terminal, every interleaving of the
operations that arrive afterwards, under any answers of the store and the bus that the
environment allows, leaves the record of `id` terminal. -/
theorem ended_stays_ended {env : Env} {fuel : ℕ} {id : ExecId} {w : Sys} {s : GraphState}
    (hk : Keyed w) (hcov : StoreInv Covered w) (hs : w.store id = some s)
    (ht : s.status.isTerminal) {c : Conc}
    (hc : Relation.ReflTransGen (Conc.Step env fuel) ⟨w, []⟩ c) :
    ∃ s', c.world.store id = some s' ∧ s'.status.isTerminal := by
  have h : Settled id c := by
    induction hc with
    | refl => exact Settled.init hk hcov hs ht
    | tail _ hstep ih => exact ih.step hstep
  obtain ⟨s', hs'⟩ := Option.isSome_iff_exists.mp h.stored
  exact ⟨s', hs', (h.records id s' hs').2 (h.keyed id s' hs')⟩

/-- A completion of `B` that arrives once `x` has ended, run to its end. -/
def lateCompletion : List Sched :=
  .spawn (.nodeCompleted (completionOf "B" [])) :: List.replicate 7 (.call 0)

theorem ended_stays_ended_late :
    ∃ w s c, replay .reliable 3 Sys.init
        [⟨.submitGraph "x" pipelineGraph [], 0, []⟩, ⟨.cancelExecution "x", 0, []⟩] = some w ∧
      w.store "x" = some s ∧ s.status.isTerminal ∧
      Relation.ReflTransGen (Conc.Step .reliable 3) ⟨w, []⟩ c ∧
      ∃ s', c.world.store "x" = some s' ∧ s'.status.isTerminal := by
  obtain ⟨w, hw, s, hs, ht, c, hc⟩ : ∃ w, replay .reliable 3 Sys.init
      [⟨.submitGraph "x" pipelineGraph [], 0, []⟩, ⟨.cancelExecution "x", 0, []⟩] = some w ∧
    ∃ s, w.store "x" = some s ∧ s.status.isTerminal ∧
    ∃ c, Conc.run 3 ⟨w, []⟩ lateCompletion = some c := ⟨_, rfl, _, rfl, rfl, _, rfl⟩
  exact ⟨w, s, c, hw, hs, ht, Conc.run_sound hc,
    ended_stays_ended (reachable_of_replay .init hw).keyed
      (storeInv_covered (reachable_of_replay .init hw)) hs ht (Conc.run_sound hc)⟩

end Dago
