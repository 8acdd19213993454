import Dago.Effect

/-!
# A Completion Delivered Twice

The bus delivers at least once, so `handleNodeCompleted` may see a completion again. The
handler keeps no record of the envelopes it has handled: a duplicate is handled like the
first delivery. Handled right after it, the duplicate finds the record the first delivery
left and makes the same writes on it, which change nothing but timestamps, since every write
of a plan overwrites (`Write.apply_apply`); but it publishes everything again, the work
envelope of the successor or the terminal event included. Handled later, after the successor
has completed, it dispatches the successor once more.

Redis keeps a record `Sys.ttl` after its last save, and the store of the model keeps it for
ever; the two agree on a duplicate that arrives within that time of the first delivery, which
saved the record. One that arrives later finds no record in Redis, and is dropped.

## Main results

* `handleNodeCompleted_redelivered`: in every reachable world, a completion handled twice in a
  row, the second time within the record's time to live, leaves the store and the tracker as
  one handling does, up to timestamps, and the second handling publishes again what the first
  published.
* `duplicate_completion_republishes`: a duplicate publishes a second work envelope, and a late
  duplicate sets a completed node `Running` again.
-/

namespace Dago

namespace Manager

/-- A graph of two executors: the start node `A`, the executors `B` and `D`, and the end node
`C`. -/
def pipelineGraph : Graph :=
  { id := "p", version := "1",
    nodes := [("A", some ⟨.start, none⟩), ("B", some ⟨.executor, none⟩),
      ("D", some ⟨.executor, none⟩), ("C", some ⟨.«end», none⟩)],
    nodes_nodup := by decide, edges := [⟨"A", "B"⟩, ⟨"B", "D"⟩, ⟨"D", "C"⟩],
    entryNode := "A" }

/-- **A duplicate changes nothing but timestamps, and publishes again.** From a reachable world,
let a completion be handled at `t₁` with the store and the bus succeeding, and then handled
again at `t₂`, while the record the first handling saved still lives in Redis. The second
handling returns for enough fuel; whenever it returns, it leaves every record as the first left
it up to timestamps and the tracker as the first left it, and it publishes, up to timestamps,
what the first published. The store of the model keeps records for ever, so the bound on `t₂`
only marks where the model speaks for Redis. -/
theorem handleNodeCompleted_redelivered {env : Env} {w w₁ : Sys} (hr : Reachable env w)
    (event : Envelope) {fuel t₁ t₂ : ℕ} {r₁ : Option String}
    (h₁ : (handleNodeCompleted fuel event).run { w with clock := t₁, faults := [] } =
      .ok (r₁, w₁)) (_httl : t₂ < t₁ + Sys.ttl) :
    (∃ fuel₂ r₂ w₂, (handleNodeCompleted fuel₂ event).run { w₁ with clock := t₂ } =
      .ok (r₂, w₂)) ∧
    ∀ fuel₂ r₂ w₂, (handleNodeCompleted fuel₂ event).run { w₁ with clock := t₂ } =
        .ok (r₂, w₂) →
      (∀ k, (w₂.store k).map GraphState.untimed = (w₁.store k).map GraphState.untimed) ∧
      w₂.executions = w₁.executions ∧
      (w₂.bus.drop w₁.bus.length).map Publication.untimed =
        (w₁.bus.drop w.bus.length).map Publication.untimed := by
  by_cases hdrop : ∀ (v : Sys) (fuel : ℕ), v.faults = [] → v.store = w.store →
      (handleNodeCompleted fuel event).run v = .ok (none, v)
  · -- A completion that the handler drops changes nothing, delivered once or twice.
    obtain ⟨-, rfl⟩ := Prod.mk.inj (Except.ok.inj (h₁.symm.trans (hdrop _ fuel rfl rfl)))
    refine ⟨⟨0, none, _, hdrop _ 0 rfl rfl⟩, fun _ _ _ h₂ => ?_⟩
    obtain ⟨-, rfl⟩ := Prod.mk.inj (Except.ok.inj (h₂.symm.trans (hdrop _ _ rfl rfl)))
    simp
  cases hs : w.store event.executionID with
  | none =>
    exact absurd (fun v fuel hv hvs => handleNodeCompleted_run_of_store_none fuel hv (hvs ▸ hs))
      hdrop
  | some s =>
    cases hn : s.nodeStates.lookup (Completion.ofEnvelope event).nodeID with
    | none =>
      exact absurd (fun v fuel hv hvs =>
        handleNodeCompleted_run_of_lookup_none fuel hv (hvs ▸ hs) hn) hdrop
    | some ns =>
      have hkey : s.graphID = event.executionID := hr.keyed _ _ hs
      have hsome : (s.nodeStates.lookup (Completion.ofEnvelope event).nodeID).isSome := by
        simp [hn]
      obtain ⟨W, o, hp, final₁, hf₁, hid₁, hg₁, rfl⟩ :=
        (handleNodeCompleted_sound (w := { w with clock := t₁, faults := [] }) rfl hs rfl hsome
          h₁).plan
      -- The record the first handling leaves holds the same node states as `s`.
      have hkeys : final₁.nodeStates.map Prod.fst = s.nodeStates.map Prod.fst := by
        rw [← GraphState.untimed_keys, hf₁, Write.apply_keys, GraphState.untimed_keys]
      have hcov₁ : Covered final₁ := by
        rw [Covered, hkeys, hg₁]
        exact storeInv_covered hr _ _ hs
      -- The world of the second delivery holds the record the first left.
      set v : Sys := { Outcome.effect event.executionID final₁
        ({ w with clock := t₁, faults := [] }.save final₁) o with clock := t₂ } with hv
      have hvf : v.faults = [] := by simp [hv]
      have hvs : v.store event.executionID = some final₁ := by
        rw [hv, Outcome.effect_store, ← hkey, ← hid₁, Sys.save_store_self]
      have hsome₁ : (final₁.nodeStates.lookup (Completion.ofEnvelope event).nodeID).isSome := by
        rw [lookup_isSome_iff_mem_keys, hkeys, ← lookup_isSome_iff_mem_keys]
        exact hsome
      refine ⟨?_, fun fuel₂ r₂ w₂ h₂ => ?_⟩
      · obtain ⟨w₂, hh⟩ := (hg₁ ▸ hp).handles hcov₁ v
        exact (handleNodeCompleted_complete hvf hvs rfl hsome₁ hh).imp fun _ ⟨r₂, h⟩ =>
          ⟨r₂, w₂, h⟩
      · obtain ⟨W', o', hp', final₂, hf₂, hid₂, -, rfl⟩ :=
          (handleNodeCompleted_sound hvf hvs rfl hsome₁ h₂).plan
        obtain ⟨rfl, rfl⟩ := hp.deterministic (hg₁ ▸ hp')
        have hu : final₂.untimed = final₁.untimed := by
          rw [hf₂, hf₁, Write.apply_apply]
        refine ⟨fun k => ?_, by simp, ?_⟩
        · simp only [Outcome.effect_store, Sys.save, hid₂, hid₁]
          split
          · simp [hu]
          · rfl
        · simp [Outcome.untimed_pubs _ hu]

/-- The completion of `B` in a run of `pipelineGraph` dispatches `D`; its duplicate, a second
later, changes no record but timestamps and sends the work of `D` again. -/
theorem handleNodeCompleted_redelivered_pipeline :
    ∃ w w₁, replay .reliable 3 Sys.init [⟨.submitGraph "x" pipelineGraph [], 0, []⟩] = some w ∧
      (handleNodeCompleted 3 (completionOf "B" [])).run { w with clock := 1, faults := [] } =
        .ok (none, w₁) ∧ w₁.workSent = [("x", "B"), ("x", "D")] ∧ 2 < 1 + Sys.ttl ∧
      (∃ fuel₂ r₂ w₂, (handleNodeCompleted fuel₂ (completionOf "B" [])).run
          { w₁ with clock := 2 } = .ok (r₂, w₂)) ∧
      ∀ fuel₂ r₂ w₂, (handleNodeCompleted fuel₂ (completionOf "B" [])).run
          { w₁ with clock := 2 } = .ok (r₂, w₂) →
        (∀ k, (w₂.store k).map GraphState.untimed = (w₁.store k).map GraphState.untimed) ∧
        w₂.executions = w₁.executions ∧
        (w₂.bus.drop w₁.bus.length).map Publication.untimed =
          (w₁.bus.drop w.bus.length).map Publication.untimed := by
  obtain ⟨w, hw, w₁, h₁, hsent⟩ : ∃ w, replay .reliable 3 Sys.init
      [⟨.submitGraph "x" pipelineGraph [], 0, []⟩] = some w ∧ ∃ w₁,
      (handleNodeCompleted 3 (completionOf "B" [])).run { w with clock := 1, faults := [] } =
        .ok (none, w₁) ∧ w₁.workSent = [("x", "B"), ("x", "D")] := ⟨_, rfl, _, rfl, rfl⟩
  exact ⟨w, w₁, hw, h₁, hsent, by decide,
    handleNodeCompleted_redelivered (reachable_of_replay .init hw) _ h₁ (by decide)⟩

/-- **A duplicate publishes again.** The completion of `B` handled twice sends the work of `D`
twice. Delivered once more after `D` has completed and the graph with it, the completion of `B`
sets `D` `Running` again and sends its work a third time. -/
theorem duplicate_completion_republishes :
    (replay .reliable 3 Sys.init
        [⟨.submitGraph "x" pipelineGraph [], 0, []⟩,
         ⟨.nodeCompleted (completionOf "B" []), 1, []⟩,
         ⟨.nodeCompleted (completionOf "B" []), 2, []⟩]).map Sys.workSent =
      some [("x", "B"), ("x", "D"), ("x", "D")] ∧
    (replay .reliable 3 Sys.init
        [⟨.submitGraph "x" pipelineGraph [], 0, []⟩,
         ⟨.nodeCompleted (completionOf "B" []), 1, []⟩,
         ⟨.nodeCompleted (completionOf "D" []), 2, []⟩]).bind (·.nodeStatus "x" "D") =
      some (.completed, .completed) ∧
    (replay .reliable 3 Sys.init
        [⟨.submitGraph "x" pipelineGraph [], 0, []⟩,
         ⟨.nodeCompleted (completionOf "B" []), 1, []⟩,
         ⟨.nodeCompleted (completionOf "D" []), 2, []⟩,
         ⟨.nodeCompleted (completionOf "B" []), 3, []⟩]).bind (·.nodeStatus "x" "D") =
      some (.completed, .running) :=
  ⟨by decide, by decide, by decide⟩

end Manager

end Dago
