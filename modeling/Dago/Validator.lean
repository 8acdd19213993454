import Dago.Domain

/-!
# The Graph Validator

`Validator.Validate` of `internal/application/orchestrator/validator.go`, the admission gate
that `SubmitGraph` runs before anything is written. It checks, failing on the first
violation, the top-level fields, then every node (through `validateNode`), then the entry
node, then every edge, and returns the error text the code builds (`none` for a nil error).

Go ranges over `g.Nodes` in an unspecified order; the model ranges over the association list
of the graph, whose order is arbitrary, so every order the runtime may pick is covered. The
loop's duplicate-id check is kept as the code has it, although map keys make it dead
(`validateNodes_eq_of_nodup`).

Against it stands the spec's admission rule, stated in its own words: the graphs it admits
(`Admissible`) and the violations a graph can commit (`Violation`, `Violates`), grouped in the
order of the policy: top-level fields, node entries, entry node, edges. Each loop is related to
the rule by one lemma, and `Validate` follows it: it accepts exactly the admissible graphs, and
it reports a violation of the earliest failing group, on the first failing edge among the
edges. Within the node entries Go's iteration order picks which violation is reported, and the
rule leaves that open.

## Main results

* `validate_eq_none_iff_admissible`: `Validate` accepts exactly the admissible graphs.
* `validate_reports_earliest`: a rejection reports a violation that comes first.
* `validate_admission_policy`: the two together.
-/

namespace Dago

namespace Validator

/-- `validateNode`: the id must be non-empty and the node non-nil, and the node's own
`Validate()` hook must pass; the hook's error is returned verbatim. -/
def validateNode (nodeID : NodeId) (node : Option Node) : Option String :=
  if nodeID = "" then some "node ID is required"
  else
    match node with
    | none => some "node is nil"
    | some node => node.validate

/-- The loop over `g.Nodes`: each node is validated, then its id is checked against the ids
seen so far, and recorded. -/
def validateNodes (seen : List NodeId) : List (NodeId × Option Node) → Option String
  | [] => none
  | (nodeID, node) :: rest =>
    match validateNode nodeID node with
    | some err => some ("invalid node " ++ nodeID ++ ": " ++ err)
    | none =>
      if nodeID ∈ seen then some ("duplicate node ID: " ++ nodeID)
      else validateNodes (nodeID :: seen) rest

/-- The loop over `g.Edges`: both endpoints of every edge must be keys of `g.Nodes`. -/
def validateEdges (g : Graph) : List Edge → Option String
  | [] => none
  | edge :: rest =>
    if (g.nodes.lookup edge.«from»).isNone then
      some ("edge references non-existent source node: " ++ edge.«from»)
    else if (g.nodes.lookup edge.«to»).isNone then
      some ("edge references non-existent target node: " ++ edge.«to»)
    else validateEdges g rest

/-- `Validate(g)`; `none` is the graph pointer `nil`. -/
def validate : Option Graph → Option String
  | none => some "graph is nil"
  | some g =>
    if g.id = "" then some "graph ID is required"
    else if g.version = "" then some "graph version is required"
    else if g.nodes.isEmpty then some "graph must have at least one node"
    else
      match validateNodes [] g.nodes with
      | some err => some err
      | none =>
        if g.entryNode ≠ "" ∧ (g.nodes.lookup g.entryNode).isNone then
          some ("entry node " ++ g.entryNode ++ " not found in graph")
        else validateEdges g g.edges

/-! ### The admission rule

The spec's statement of what `Validate` is for, in its words rather than the code's: the
graphs it admits, and the violations it may report. -/

/-- A node entry the rule admits: a non-empty id, and a node that is not nil and whose own
`Validate()` passes. -/
def NodeAdmissible (nodeID : NodeId) (node : Option Node) : Prop :=
  nodeID ≠ "" ∧ ∃ n ∈ node, n.validate = none

/-- An edge the rule admits: its `From` and its `To` are keys of `Nodes`. -/
def EdgeAdmissible (g : Graph) (e : Edge) : Prop :=
  e.«from» ∈ g.nodes.map Prod.fst ∧ e.«to» ∈ g.nodes.map Prod.fst

/-- **The admissible graphs**: not nil, with a non-empty `ID` and `Version` and at least one
node; every node entry admitted; an entry node that is empty or a key of `Nodes`; every edge
admitted. -/
def Admissible : Option Graph → Prop
  | none => False
  | some g =>
    g.id ≠ "" ∧ g.version ≠ "" ∧ g.nodes ≠ [] ∧ (∀ p ∈ g.nodes, NodeAdmissible p.1 p.2) ∧
      (g.entryNode = "" ∨ g.entryNode ∈ g.nodes.map Prod.fst) ∧ ∀ e ∈ g.edges, EdgeAdmissible g e

instance (nodeID : NodeId) (node : Option Node) : Decidable (NodeAdmissible nodeID node) :=
  inferInstanceAs (Decidable (_ ∧ _))

instance (g : Graph) (e : Edge) : Decidable (EdgeAdmissible g e) :=
  inferInstanceAs (Decidable (_ ∧ _))

instance : DecidablePred Admissible
  | none => isFalse nofun
  | some _ => inferInstanceAs (Decidable (_ ∧ _ ∧ _ ∧ _ ∧ _ ∧ _))

/-- A violation of the rule, in the groups of the policy: a top-level field, a node entry, the
entry node, or an end of an edge, the edge given with its index in `Edges`. -/
inductive Violation
  | graphNil
  | idEmpty
  | versionEmpty
  | nodesEmpty
  | node (nodeID : NodeId) (node : Option Node)
  | entryNode (entry : NodeId)
  | edgeSource (index : ℕ) (edge : Edge)
  | edgeTarget (index : ℕ) (edge : Edge)
  deriving DecidableEq, Repr

/-- The violations a graph commits. -/
def Violates : Option Graph → Violation → Prop
  | none, .graphNil => True
  | some g, .idEmpty => g.id = ""
  | some g, .versionEmpty => g.version = ""
  | some g, .nodesEmpty => g.nodes = []
  | some g, .node nodeID node => (nodeID, node) ∈ g.nodes ∧ ¬NodeAdmissible nodeID node
  | some g, .entryNode entry =>
    entry = g.entryNode ∧ entry ≠ "" ∧ entry ∉ g.nodes.map Prod.fst
  | some g, .edgeSource i e => g.edges[i]? = some e ∧ e.«from» ∉ g.nodes.map Prod.fst
  | some g, .edgeTarget i e => g.edges[i]? = some e ∧ e.«to» ∉ g.nodes.map Prod.fst
  | _, _ => False

namespace Violation

/-- The group of a violation, numbered in the order of the policy: the top-level fields, the
nodes, the entry node, the edges. -/
def group : Violation → ℕ
  | graphNil | idEmpty | versionEmpty | nodesEmpty => 0
  | node .. => 1
  | entryNode _ => 2
  | edgeSource .. | edgeTarget .. => 3

/-- The index in `Edges` of the edge a violation is about; `0` in the other groups. -/
def edgeIndex : Violation → ℕ
  | edgeSource i _ | edgeTarget i _ => i
  | _ => 0

/-- `v` comes first among the violations of `g`: none of them is in an earlier group, and
none of its group is on an earlier edge. -/
def Earliest (g : Option Graph) (v : Violation) : Prop :=
  ∀ v', Violates g v' → v.group ≤ v'.group ∧ (v.group = v'.group → v.edgeIndex ≤ v'.edgeIndex)

/-- The error text `Validate` reports for a violation. -/
def message : Violation → String
  | graphNil => "graph is nil"
  | idEmpty => "graph ID is required"
  | versionEmpty => "graph version is required"
  | nodesEmpty => "graph must have at least one node"
  | node nodeID n => "invalid node " ++ nodeID ++ ": " ++ (validateNode nodeID n).getD ""
  | entryNode entry => "entry node " ++ entry ++ " not found in graph"
  | edgeSource _ e => "edge references non-existent source node: " ++ e.«from»
  | edgeTarget _ e => "edge references non-existent target node: " ++ e.«to»

end Violation

/-! ### The loops against the rule -/

/-- With distinct keys, none of them seen before, the duplicate check never fires: the
loop fails exactly on the first node that `validateNode` rejects. -/
theorem validateNodes_eq_of_nodup :
    ∀ {seen : List NodeId} {nodes : List (NodeId × Option Node)},
      (nodes.map Prod.fst).Nodup → (∀ p ∈ nodes, p.1 ∉ seen) →
      validateNodes seen nodes =
        nodes.findSome? fun p => (validateNode p.1 p.2).map
          fun err => "invalid node " ++ p.1 ++ ": " ++ err
  | _, [], _, _ => rfl
  | seen, (nodeID, node) :: rest, hnd, hseen => by
    rw [List.map_cons, List.nodup_cons] at hnd
    have hfresh : ∀ p ∈ rest, p.1 ∉ nodeID :: seen := by
      intro p hp hmem
      rcases List.mem_cons.mp hmem with h | h
      · exact hnd.1 (by simpa [← h] using List.mem_map_of_mem Prod.fst hp)
      · exact hseen p (List.mem_cons_of_mem _ hp) h
    have hnot : nodeID ∉ seen := hseen (nodeID, node) (List.mem_cons_self _ _)
    cases hv : validateNode nodeID node with
    | some err => simp [validateNodes, hv]
    | none =>
      simp only [validateNodes, hv, hnot, if_false, List.findSome?_cons, Option.map_none']
      exact validateNodes_eq_of_nodup hnd.2 hfresh

/-- The edge loop passes exactly when every edge has both endpoints among the keys. -/
theorem validateEdges_eq_none_iff (g : Graph) :
    ∀ {edges : List Edge}, validateEdges g edges = none ↔
      ∀ e ∈ edges, (g.nodes.lookup e.«from»).isSome ∧ (g.nodes.lookup e.«to»).isSome
  | [] => by simp [validateEdges]
  | e :: rest => by
    rw [List.forall_mem_cons, ← validateEdges_eq_none_iff g]
    simp only [validateEdges, ← Option.not_isSome]
    cases (g.nodes.lookup e.«from»).isSome <;> cases (g.nodes.lookup e.«to»).isSome <;> simp

theorem validateEdges_eq_none_iff_admissible (g : Graph) {edges : List Edge} :
    validateEdges g edges = none ↔ ∀ e ∈ edges, EdgeAdmissible g e := by
  simp only [validateEdges_eq_none_iff, lookup_isSome_iff_mem_keys, EdgeAdmissible]

theorem validateNode_eq_none_iff {nodeID : NodeId} {node : Option Node} :
    validateNode nodeID node = none ↔ NodeAdmissible nodeID node := by
  unfold validateNode NodeAdmissible
  split_ifs with h <;> cases node <;> simp [h]

/-- The node loop passes exactly when every node entry is admitted. -/
theorem validateNodes_eq_none_iff (g : Graph) :
    validateNodes [] g.nodes = none ↔ ∀ p ∈ g.nodes, NodeAdmissible p.1 p.2 := by
  rw [validateNodes_eq_of_nodup g.nodes_nodup (by simp), List.findSome?_eq_none_iff]
  simp [validateNode_eq_none_iff]

/-- The node loop fails on a node entry that is not admitted, with the text of its violation. -/
theorem validateNodes_eq_some {g : Graph} {err : String} (h : validateNodes [] g.nodes = some err) :
    ∃ p ∈ g.nodes, ¬NodeAdmissible p.1 p.2 ∧ err = (Violation.node p.1 p.2).message := by
  rw [validateNodes_eq_of_nodup g.nodes_nodup (by simp)] at h
  obtain ⟨p, hp, hmap⟩ := List.exists_of_findSome?_eq_some h
  obtain ⟨e, he, rfl⟩ := Option.map_eq_some'.mp hmap
  refine ⟨p, hp, fun hadm => ?_, by simp [Violation.message, he]⟩
  rw [validateNode_eq_none_iff.mpr hadm] at he
  cases he

/-- The edge loop fails on the first edge that is not admitted, naming its source when that is
not a key and its target otherwise. -/
theorem validateEdges_eq_some (g : Graph) :
    ∀ {edges : List Edge} {err : String}, validateEdges g edges = some err →
      ∃ i e, edges[i]? = some e ∧ (∀ j < i, ∀ e' ∈ edges[j]?, EdgeAdmissible g e') ∧
        (e.«from» ∉ g.nodes.map Prod.fst ∧ err = (Violation.edgeSource i e).message ∨
          e.«to» ∉ g.nodes.map Prod.fst ∧ err = (Violation.edgeTarget i e).message)
  | [], _, h => by cases h
  | e :: rest, err, h => by
    simp only [validateEdges, lookup_isNone_iff_not_mem_keys] at h
    by_cases hf : e.«from» ∈ g.nodes.map Prod.fst
    · by_cases ht : e.«to» ∈ g.nodes.map Prod.fst
      · simp only [hf, ht, not_true_eq_false, if_false] at h
        obtain ⟨i, e', hi, hbefore, hrep⟩ := validateEdges_eq_some g h
        refine ⟨i + 1, e', by simpa using hi, fun j hj e'' he'' => ?_, hrep⟩
        cases j with
        | zero =>
          obtain rfl : e = e'' := by simpa using he''
          exact ⟨hf, ht⟩
        | succ j => exact hbefore j (by omega) e'' (by simpa using he'')
      · simp only [hf, ht, not_true_eq_false, not_false_eq_true, if_false, if_true,
          Option.some.injEq] at h
        exact ⟨0, e, List.getElem?_cons_zero, nofun, .inr ⟨ht, h.symm⟩⟩
    · simp only [hf, not_false_eq_true, if_true, Option.some.injEq] at h
      exact ⟨0, e, List.getElem?_cons_zero, nofun, .inl ⟨hf, h.symm⟩⟩

/-! ### `Validate` against the rule -/

/-- Each violation of a graph is in a group whose check the graph fails: its top-level fields,
a node entry, the entry node, or the edge at the violation's index. -/
theorem Violates.group_cases {g : Graph} {v : Violation} (hv : Violates (some g) v) :
    v.group = 0 ∧ (g.id = "" ∨ g.version = "" ∨ g.nodes = []) ∨
      v.group = 1 ∧ (∃ p ∈ g.nodes, ¬NodeAdmissible p.1 p.2) ∨
      v.group = 2 ∧ (g.entryNode ≠ "" ∧ g.entryNode ∉ g.nodes.map Prod.fst) ∨
      v.group = 3 ∧ ∃ e ∈ g.edges[v.edgeIndex]?, ¬EdgeAdmissible g e := by
  cases v
  case graphNil => exact hv.elim
  case idEmpty => exact .inl ⟨rfl, .inl hv⟩
  case versionEmpty => exact .inl ⟨rfl, .inr (.inl hv)⟩
  case nodesEmpty => exact .inl ⟨rfl, .inr (.inr hv)⟩
  case node nodeID n => exact .inr (.inl ⟨rfl, _, hv.1, hv.2⟩)
  case entryNode => exact .inr (.inr (.inl ⟨rfl, hv.1 ▸ hv.2⟩))
  case edgeSource i e => exact .inr (.inr (.inr ⟨rfl, e, hv.1, fun h => hv.2 h.1⟩))
  case edgeTarget i e => exact .inr (.inr (.inr ⟨rfl, e, hv.1, fun h => hv.2 h.2⟩))

theorem Violation.group_le (v : Violation) : v.group ≤ 3 := by
  cases v <;> simp [Violation.group]

theorem Violation.edgeIndex_eq_zero {v : Violation} (h : v.group < 3) : v.edgeIndex = 0 := by
  cases v <;> simp only [Violation.group, Violation.edgeIndex] at h ⊢ <;> omega

/-- A violation of the first group comes first. -/
theorem Violation.earliest_of_group_eq_zero {v : Violation} (hv : v.group = 0)
    (g : Option Graph) : v.Earliest g := fun _ _ =>
  ⟨hv ▸ Nat.zero_le _, fun _ => (edgeIndex_eq_zero (v := v) (by omega)).symm ▸ Nat.zero_le _⟩

/-- A violation of a later group comes first when the graph passes the top-level checks, and
the checks of the node entries and of the entry node when they come before its group, and
every edge before its own. -/
theorem Violation.earliest_of_passes {g : Graph} {v : Violation}
    (htop : g.id ≠ "" ∧ g.version ≠ "" ∧ g.nodes ≠ [])
    (hnodes : 1 < v.group → ∀ p ∈ g.nodes, NodeAdmissible p.1 p.2)
    (hentry : 2 < v.group → g.entryNode = "" ∨ g.entryNode ∈ g.nodes.map Prod.fst)
    (hedges : ∀ j < v.edgeIndex, ∀ e ∈ g.edges[j]?, EdgeAdmissible g e) :
    v.Earliest (some g) := by
  intro v' hv'
  -- before the edges, a violation's index is `0`
  have hsmall : v.group ≤ v'.group → v'.group < 3 →
      v.group ≤ v'.group ∧ (v.group = v'.group → v.edgeIndex ≤ v'.edgeIndex) :=
    fun hle hlt => ⟨hle, fun _ => (edgeIndex_eq_zero (v := v) (by omega)).symm ▸ Nat.zero_le _⟩
  rcases hv'.group_cases with ⟨h', hc⟩ | ⟨h', p, hp, hbad⟩ | ⟨h', hne, hnot⟩ | ⟨h', e, he, hbad⟩
  · obtain ⟨hid, hver, hn⟩ := htop
    rcases hc with hc | hc | hc <;> contradiction
  · exact hsmall (Nat.le_of_not_lt fun hlt => hbad (hnodes (h' ▸ hlt) p hp)) (by omega)
  · exact hsmall (Nat.le_of_not_lt fun hlt => (hentry (h' ▸ hlt)).elim hne hnot) (by omega)
  · exact ⟨h' ▸ v.group_le, fun _ => Nat.le_of_not_lt fun hlt => hbad (hedges _ hlt e he)⟩

/-- **`Validate` accepts exactly the admissible graphs.** -/
theorem validate_eq_none_iff_admissible : ∀ g : Option Graph, validate g = none ↔ Admissible g
  | none => by simp [validate, Admissible]
  | some g => by
    simp only [validate, Admissible, List.isEmpty_iff, lookup_isNone_iff_not_mem_keys,
      ← validateNodes_eq_none_iff, ← validateEdges_eq_none_iff_admissible]
    by_cases hid : g.id = ""
    · simp [hid]
    by_cases hver : g.version = ""
    · simp [hid, hver]
    by_cases hn : g.nodes = []
    · simp [hid, hver, hn]
    simp only [hid, hver, hn, if_false, not_false_eq_true, true_and, ne_eq]
    cases validateNodes [] g.nodes with
    | some err => simp
    | none =>
      by_cases he : g.entryNode = "" <;> by_cases hk : g.entryNode ∈ g.nodes.map Prod.fst <;>
        simp [he, hk]

/-- **`Validate` reports the earliest violation.** When it rejects a graph, its error is the
text of a violation of that graph that comes first in the order of the policy. -/
theorem validate_reports_earliest : ∀ (g : Option Graph) (err : String), validate g = some err →
    ∃ v, Violates g v ∧ v.Earliest g ∧ err = v.message
  | none, _, h =>
    ⟨.graphNil, trivial, Violation.earliest_of_group_eq_zero (by rfl) _, (Option.some.inj h).symm⟩
  | some g, err, h => by
    simp only [validate, List.isEmpty_iff, lookup_isNone_iff_not_mem_keys] at h
    by_cases hid : g.id = ""
    · rw [if_pos hid] at h
      exact ⟨.idEmpty, hid, Violation.earliest_of_group_eq_zero (by rfl) _,
        (Option.some.inj h).symm⟩
    by_cases hver : g.version = ""
    · rw [if_neg hid, if_pos hver] at h
      exact ⟨.versionEmpty, hver, Violation.earliest_of_group_eq_zero (by rfl) _,
        (Option.some.inj h).symm⟩
    by_cases hnodes : g.nodes = []
    · rw [if_neg hid, if_neg hver, if_pos hnodes] at h
      exact ⟨.nodesEmpty, hnodes, Violation.earliest_of_group_eq_zero (by rfl) _,
        (Option.some.inj h).symm⟩
    rw [if_neg hid, if_neg hver, if_neg hnodes] at h
    have htop : g.id ≠ "" ∧ g.version ≠ "" ∧ g.nodes ≠ [] := ⟨hid, hver, hnodes⟩
    cases hfail : validateNodes [] g.nodes with
    | some errNodes =>
      rw [hfail, Option.some.injEq] at h
      obtain ⟨p, hp, hbad, hmsg⟩ := validateNodes_eq_some hfail
      refine ⟨.node p.1 p.2, ⟨hp, hbad⟩, Violation.earliest_of_passes htop ?_ ?_ ?_, h ▸ hmsg⟩
      all_goals simp [Violation.group, Violation.edgeIndex]
    | none =>
      have hn := (validateNodes_eq_none_iff g).mp hfail
      rw [hfail] at h
      dsimp only at h
      split_ifs at h with hentry
      · refine ⟨.entryNode g.entryNode, ⟨rfl, hentry⟩,
          Violation.earliest_of_passes htop (fun _ => hn) ?_ (by simp [Violation.edgeIndex]),
          (Option.some.inj h).symm⟩
        simp [Violation.group]
      · obtain ⟨i, e, hi, hbefore, hrep⟩ := validateEdges_eq_some g h
        have hentry' : g.entryNode = "" ∨ g.entryNode ∈ g.nodes.map Prod.fst :=
          or_iff_not_imp_left.mpr fun he => not_not.mp (not_and.mp hentry he)
        rcases hrep with ⟨hf, rfl⟩ | ⟨ht, rfl⟩
        · exact ⟨.edgeSource i e, ⟨hi, hf⟩,
            Violation.earliest_of_passes htop (fun _ => hn) (fun _ => hentry') hbefore, rfl⟩
        · exact ⟨.edgeTarget i e, ⟨hi, ht⟩,
            Violation.earliest_of_passes htop (fun _ => hn) (fun _ => hentry') hbefore, rfl⟩

/- Both edges of this graph dangle; the first is reported, by the end that is not a key. -/
example :
    validate (some
      { id := "g", version := "1", nodes := [("A", some ⟨.start, none⟩)],
        nodes_nodup := by decide, edges := [⟨"A", "Y"⟩, ⟨"X", "A"⟩], entryNode := "A" }) =
      some "edge references non-existent target node: Y" := by
  decide

/-- **`Validate` follows the admission rule.** It accepts exactly the admissible graphs, and
when it rejects one, its error is the text of a violation of that graph that comes first in the
order of the policy: in the earliest group that fails, and among the edges on the first edge
that fails. -/
theorem validate_admission_policy (g : Option Graph) :
    (validate g = none ↔ Admissible g) ∧
      ∀ err, validate g = some err → ∃ v, Violates g v ∧ v.Earliest g ∧ err = v.message :=
  ⟨validate_eq_none_iff_admissible g, validate_reports_earliest g⟩

/-! ### What an accepted graph satisfies -/

/-- An accepted graph has no nil node. -/
theorem validate_node_isSome {g : Graph} (h : validate (some g) = none) :
    ∀ p ∈ g.nodes, p.2.isSome := fun p hp => by
  obtain ⟨-, n, hn, -⟩ := ((validate_eq_none_iff_admissible _).mp h).2.2.2.1 p hp
  exact Option.isSome_iff_exists.mpr ⟨n, hn⟩

/-- In an accepted graph every key names a node, and `GetNode` finds it. -/
theorem validate_getNode_isSome {g : Graph} (h : validate (some g) = none) {nodeID : NodeId}
    (hk : (g.nodes.lookup nodeID).isSome) : (g.getNode nodeID).isSome := by
  obtain ⟨node, hnode⟩ := Option.isSome_iff_exists.mp hk
  obtain ⟨n, rfl⟩ :=
    Option.isSome_iff_exists.mp (validate_node_isSome h _ (Graph.mem_nodes_of_lookup hnode))
  simp [Graph.getNode, hnode]

/-- In an accepted graph every edge ends at a node. -/
theorem validate_getNode_to {g : Graph} (h : validate (some g) = none) :
    ∀ e ∈ g.edges, (g.getNode e.«to»).isSome := fun e he =>
  validate_getNode_isSome h ((lookup_isSome_iff_mem_keys _ _).mpr
    (((validate_eq_none_iff_admissible _).mp h).2.2.2.2.2 e he).2)

end Validator

end Dago
