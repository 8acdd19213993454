import Dago.Interleaving
import Dago.Tracker

/-!
# Invariants of Every Interleaving

`Dago.Interleaving` runs the coordinator's handlers concurrently, call by call. The invariants
that `Dago.Coverage` and `Dago.Tracker` prove of atomic runs hold there as well, because each
comes from a rule per call (`Prog.Keeps`, `Prog.Guards`): what a program keeps call by call,
every interleaving keeps, whatever the other threads do between two of its calls. A handler
that saves a stale copy of a record saves a record that had the property when it was loaded.

`Conc.Holds I T` says that the world satisfies `I` and every thread in progress satisfies `T`.
It holds along every interleaving once each call of a `T` thread keeps `I` and leaves a `T`
thread, every operation that can arrive starts a `T` thread, and the moves of the clock keep
`I` (`Conc.Holds.star`).

## Main results

* `Conc.Holds.star`: the invariance rule of interleavings.
* `covered_interleaved`: under every interleaving, every record is stored under its own id and
  has a node state for each node of its graph, and no handler halts on a missing node state.
* `tracker_consistent_interleaved`: under every interleaving, every tracker entry is `Running`
  or `Cancelled`, and a `Cancelled` entry's context is no longer active.
-/

namespace Dago

open Relation

/-- The world satisfies `I`, and every thread in progress satisfies `T`. -/
structure Conc.Holds (I : Sys → Prop) (T : Prog Unit → Prop) (c : Conc) : Prop where
  world : I c.world
  threads : ∀ p ∈ c.threads, T p

namespace Conc.Holds

variable {env : Env} {fuel : ℕ} {I : Sys → Prop} {T : Prog Unit → Prop}

/-- With no operation in progress, only the world has to satisfy `I`. -/
theorem idle {w : Sys} (hw : I w) : Holds I T ⟨w, []⟩ := ⟨hw, nofun⟩

section rule

variable
  (hcall : ∀ {p p' : Prog Unit} {w w' : Sys}, I w → T p → p.step w = some (p', w') →
    I w' ∧ T p')
  (hspawn : ∀ {w : Sys} {op : Op}, I w → op.Admissible w → T (op.prog fuel))
  (htick : ∀ {w : Sys} (clock : ℕ) (faults : List (Option String)), env.Allows faults →
    I w → I { w with clock, faults })
include hcall hspawn htick

/-- **Every step of an interleaving keeps `Holds I T`**: a call by the rule of its thread, an
arrival by the rule of operations, a move of the clock by the rule of the clock. -/
theorem step {c c' : Conc} (h : Holds I T c) (hs : Conc.Step env fuel c c') : Holds I T c' := by
  cases hs with
  | spawn op hop =>
    refine ⟨h.world, fun p hp => ?_⟩
    rcases List.mem_append.mp hp with hp | hp
    · exact h.threads p hp
    · exact List.mem_singleton.mp hp ▸ hspawn h.world hop
  | call i hi hstep =>
    obtain ⟨hw', hp'⟩ := hcall h.world (h.threads _ (List.get?_mem hi)) hstep
    refine ⟨hw', fun q hq => ?_⟩
    rcases List.mem_or_eq_of_mem_set hq with hq | rfl
    · exact h.threads q hq
    · exact hp'
  | tick clock faults hf => exact ⟨htick clock faults hf h.world, h.threads⟩

/-- **Invariance of interleavings.** -/
theorem star {c c' : Conc} (h : Holds I T c) (hc : ReflTransGen (Conc.Step env fuel) c c') :
    Holds I T c' := by
  induction hc with
  | refl => exact h
  | tail _ hs ih => exact ih.step hcall hspawn htick hs

end rule

end Conc.Holds

/-! ### Node states under interleavings -/

/-- A program that never dereferences a missing node state is not halted on one. -/
theorem Prog.Keeps.ne_halt {P : GraphState → Prop} {α : Type} {Q : α → Prop} {p : Prog α}
    (hp : p.Keeps P Q) : p ≠ .halt .nilDereference := by
  rintro rfl
  cases hp

/-- **Coverage under every interleaving.** From a reachable world with no operation in progress,
every interleaving of the operations that arrive, under any answers of the store and the bus
that the environment allows, reaches only worlds where every record is stored under its own id
and has a node state for each node of its graph, and where no handler in progress has halted on
a missing node state: the stale copies that concurrent handlers save are covered records too. -/
theorem covered_interleaved {env : Env} {fuel : ℕ} {w : Sys} (hr : Reachable env w) {c : Conc}
    (hc : ReflTransGen (Conc.Step env fuel) ⟨w, []⟩ c) :
    Keyed c.world ∧
    (∀ k s, c.world.store k = some s →
      ∀ n, (s.nodeStates.lookup n).isSome ↔ (s.graph.nodes.lookup n).isSome) ∧
    ∀ p ∈ c.threads, p ≠ .halt .nilDereference := by
  have h : Conc.Holds (fun v => Keyed v ∧ StoreInv Covered v)
      (·.Keeps Covered fun _ => True) c :=
    (Conc.Holds.idle ⟨hr.keyed, storeInv_covered hr⟩).star
      (fun hw hp hs => (hp.step hw.2 hs).imp_left (⟨hw.1.step hs, ·⟩))
      (fun _ _ => Op.prog_keeps Covered.stable _ _ fun _ _ _ _ => covered_initialState _ _ _)
      (fun _ _ _ hw => hw) hc
  exact ⟨h.world.1, fun k s hs => (h.world.2 k s hs).lookup_isSome_iff,
    fun p hp => (h.threads p hp).ne_halt⟩

/-- `x` of `linearGraph` is running, and a cancellation of it has made two calls: it has loaded
the entry and marked it `Cancelled`, and has not yet saved the record. -/
def cancelInProgress : List Sched :=
  [.spawn (.cancelExecution "x"), .call 0, .call 0]

theorem covered_interleaved_cancelling :
    ∃ w c, replay .reliable 3 Sys.init [⟨.submitGraph "x" Manager.linearGraph [], 0, []⟩] =
        some w ∧ ReflTransGen (Conc.Step .reliable 3) ⟨w, []⟩ c ∧ Keyed c.world ∧
      (∀ k s, c.world.store k = some s →
        ∀ n, (s.nodeStates.lookup n).isSome ↔ (s.graph.nodes.lookup n).isSome) ∧
      ∀ p ∈ c.threads, p ≠ .halt .nilDereference := by
  obtain ⟨w, hw, c, hc⟩ : ∃ w, replay .reliable 3 Sys.init
      [⟨.submitGraph "x" Manager.linearGraph [], 0, []⟩] = some w ∧
      ∃ c, Conc.run 3 ⟨w, []⟩ cancelInProgress = some c := ⟨_, rfl, _, rfl⟩
  exact ⟨w, c, hw, Conc.run_sound hc,
    covered_interleaved (reachable_of_replay .init hw) (Conc.run_sound hc)⟩

/-! ### Tracker entries under interleavings -/

/-- A stable property of entries that every entry of the world has, every thread keeping it,
holds along every interleaving: the tracker's map is guarded by the manager's mutex, so each of
its updates is one call. -/
theorem Conc.Holds.tracker {p : ExecId → ExecutionContext → Prop} (hp : EntryStable p)
    (hfresh : ∀ graphID startedAt, p graphID ⟨graphID, .running, startedAt, .active⟩)
    {env : Env} {fuel : ℕ} {w : Sys} (hw : TrackerInv p w.executions) {c : Conc}
    (hc : ReflTransGen (Conc.Step env fuel) ⟨w, []⟩ c) :
    Conc.Holds (Sys.Obeys (fun _ => True) (TrackerInv p) fun _ => True)
      (·.Guards (fun _ => True) (TrackerInv p) fun _ => True) c :=
  (Conc.Holds.idle (Sys.obeys_tracker_iff.mpr hw)).star (fun hw hq hs => hq.step hw hs)
    (fun _ _ => Op.prog_guards_tracker hp _ _ fun _ _ _ _ => hfresh _)
    (fun _ _ _ hw => hw.answers _ _) hc

/-- **Tracker entries under every interleaving.** From a reachable world with no operation in
progress, every interleaving of the operations that arrive, under any answers of the store and
the bus that the environment allows, reaches only worlds where each entry of the tracker is
`Running` or `Cancelled`, and a `Cancelled` entry's context is no longer active. A deadline
that loads a `Cancelled` entry in the middle of a cancellation finds it inactive and returns. -/
theorem tracker_consistent_interleaved {env : Env} {fuel : ℕ} {w : Sys} (hr : Reachable env w)
    {c : Conc} (hc : ReflTransGen (Conc.Step env fuel) ⟨w, []⟩ c) {k : ExecId}
    {e : ExecutionContext} (he : c.world.executions k = some e) :
    (e.status = .running ∨ e.status = .cancelled) ∧ (e.status = .cancelled → e.ctx ≠ .active) :=
  (Conc.Holds.tracker ExecutionContext.consistent_stable (fun _ _ => ⟨.inl rfl, nofun⟩)
    hr.consistent hc).world.tracker k e he

theorem tracker_consistent_interleaved_cancelling :
    ∃ w c e, replay .reliable 3 Sys.init [⟨.submitGraph "x" Manager.linearGraph [], 0, []⟩] =
        some w ∧ ReflTransGen (Conc.Step .reliable 3) ⟨w, []⟩ c ∧
      c.world.executions "x" = some e ∧ e.status = .cancelled ∧ e.ctx ≠ .active := by
  obtain ⟨w, hw, c, hc, e, he, hs⟩ : ∃ w, replay .reliable 3 Sys.init
      [⟨.submitGraph "x" Manager.linearGraph [], 0, []⟩] = some w ∧
      ∃ c, Conc.run 3 ⟨w, []⟩ cancelInProgress = some c ∧
      ∃ e, c.world.executions "x" = some e ∧ e.status = .cancelled := ⟨_, rfl, _, rfl, _, rfl, rfl⟩
  exact ⟨w, c, e, hw, Conc.run_sound hc, he, hs,
    (tracker_consistent_interleaved (reachable_of_replay .init hw) (Conc.run_sound hc) he).2 hs⟩

end Dago
