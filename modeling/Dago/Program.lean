import Dago.Domain

/-!
# Programs over the Store, the Bus and the Tracker

The coordinator touches the world only through a handful of calls: `storage.GetState` and
`storage.SaveState` on the Redis store, `eventBus.Publish` on the bus, `Load`, `Store` and
`Delete` on the `sync.Map` of active executions, and `time.Now()`. A `Prog` is a program
built from exactly these calls, so that each function of the manager is written once, in
`do` notation that follows the Go code line by line, and read under two semantics:

* `Prog.run` runs a program to completion in one atomic step: the semantics of the
  operation-level results, where each operation is one step of the system;
* `Prog.step` performs only the next call, which is what the interleaving of concurrent
  handlers in `Dago.Interleaving` schedules.

`Prog.run_eq_of_step` ties the two together.

The store is the Redis adapter of `pkg/adapters/storage/redis`: `SaveState` writes a copy
under the record's `GraphID` and `GetState` returns a fresh copy, or `state not found`. A
store or bus call may fail: the list `Sys.faults` holds the environment's answers to the
next calls (`some cause` fails with `cause`), and every call past its end succeeds, so a
world with no pending faults is one where the store and the bus always succeed.

## Main results

* `Prog.run_bind`: running `p >>= f` runs `p`, then `f` on its result.
* `Prog.Keeps.run`, `Prog.Keeps.step`: a program that saves only records satisfying `P`
  whenever the records it loads satisfy `P` keeps `P` true of every stored record, run
  atomically or step by step, and `Prog.Keeps.run_ne_nilDereference`: such a program never
  dereferences a missing node state.
-/

namespace Dago

/-- The state of the `context.Context` that `SubmitGraph` makes with `context.WithTimeout`:
running, cancelled through its `CancelFunc`, or past its deadline. -/
inductive ContextState
  | active
  | canceled
  | deadlineExceeded
  deriving DecidableEq, Repr

/-- The `CancelFunc`: an active context becomes cancelled; a finished one keeps its error. -/
def ContextState.cancel : ContextState → ContextState
  | .active => .canceled
  | c => c

/-- `executionContext`, the tracker entry of one execution. `ctx` is the state of the
context its `cancelFunc` cancels, the context that `monitorExecution` waits on. -/
structure ExecutionContext where
  graphID : ExecId
  status : ExecutionStatus
  startedAt : ℕ
  ctx : ContextState

/-- Why a program stops without returning: a nil pointer is dereferenced (the handler
goroutine panics and the process dies), or the recursion has not returned within the fuel
it was given. -/
inductive Halt
  | nilDereference
  | outOfFuel
  deriving DecidableEq, Repr

/-- The world the coordinator acts on: the Redis store, the `executions` map of the
manager, every publication on the bus in order, the clock that `time.Now()` reads, and the
answers the environment will give to the next store and bus calls. -/
structure Sys where
  store : ExecId → Option GraphState
  executions : ExecId → Option ExecutionContext
  bus : List Publication
  clock : ℕ
  faults : List (Option String)

namespace Sys

/-- The initial world: an empty store, no active execution, nothing published. -/
def init : Sys :=
  { store := fun _ => none, executions := fun _ => none, bus := [], clock := 0, faults := [] }

/-- The environment's answer to the next store or bus call: `some cause` fails it. -/
def fault (w : Sys) : Option String := w.faults.head?.join

/-- The world once that answer has been given. -/
def next (w : Sys) : Sys := { w with faults := w.faults.tail }

/-- `GetState(graphID)` of the Redis store. -/
def getState (w : Sys) (graphID : ExecId) : Except String GraphState × Sys :=
  (match w.fault, w.store graphID with
    | some cause, _ => .error cause
    | none, some s => .ok s
    | none, none => .error ("state not found: " ++ graphID), w.next)

/-- The record written under its `GraphID`. -/
def save (w : Sys) (s : GraphState) : Sys :=
  { w with store := fun k => if k = s.graphID then some s else w.store k }

/-- The publication appended to the bus. -/
def emit (w : Sys) (topic : String) (event : Event) : Sys :=
  { w with bus := w.bus ++ [⟨topic, event⟩] }

/-- `SaveState(state)` of the Redis store. -/
def saveState (w : Sys) (s : GraphState) : Option String × Sys :=
  match w.fault with
  | some cause => (some cause, w.next)
  | none => (none, w.next.save s)

/-- The time to live of a record, in seconds of the clock: `main.go` gives the Redis store
`24*time.Hour`, and `SaveState` sets the key with it, so Redis drops a record a day after its
last save. The store of the model keeps every record; it agrees with Redis on the records saved
less than `ttl` ago. -/
def ttl : ℕ := 24 * 60 * 60

/-- `Publish(topic, event)` on the bus. -/
def publish (w : Sys) (topic : String) (event : Event) : Option String × Sys :=
  match w.fault with
  | some cause => (some cause, w.next)
  | none => (none, w.next.emit topic event)

@[simp] theorem next_store (w : Sys) : w.next.store = w.store := rfl
@[simp] theorem next_executions (w : Sys) : w.next.executions = w.executions := rfl
@[simp] theorem next_bus (w : Sys) : w.next.bus = w.bus := rfl
@[simp] theorem next_clock (w : Sys) : w.next.clock = w.clock := rfl

/-- A load changes nothing but the pending answers. -/
@[simp] theorem getState_snd (w : Sys) (id : ExecId) : (w.getState id).2 = w.next := rfl

/-- A successful load returns the stored record. -/
theorem store_of_getState_ok {w : Sys} {id : ExecId} {s : GraphState}
    (h : (w.getState id).1 = .ok s) : w.store id = some s := by
  simp only [getState] at h
  split at h <;> simp_all

/-- In a world where the store and the bus succeed, nothing is left to answer. -/
@[simp] theorem fault_of_faults_nil {w : Sys} (h : w.faults = []) : w.fault = none := by
  simp [fault, h]

@[simp] theorem next_of_faults_nil {w : Sys} (h : w.faults = []) : w.next = w := by
  cases w; simp_all [next]

@[simp] theorem save_store_self (w : Sys) (s : GraphState) :
    (w.save s).store s.graphID = some s := by
  simp [save]

theorem save_store (w : Sys) (s : GraphState) (k : ExecId) :
    (w.save s).store k = if k = s.graphID then some s else w.store k := rfl

theorem save_store_of_ne (w : Sys) (s : GraphState) {k : ExecId} (h : k ≠ s.graphID) :
    (w.save s).store k = w.store k := by
  simp [save, h]

@[simp] theorem save_executions (w : Sys) (s : GraphState) : (w.save s).executions = w.executions :=
  rfl
@[simp] theorem save_bus (w : Sys) (s : GraphState) : (w.save s).bus = w.bus := rfl
@[simp] theorem save_clock (w : Sys) (s : GraphState) : (w.save s).clock = w.clock := rfl
@[simp] theorem save_faults (w : Sys) (s : GraphState) : (w.save s).faults = w.faults := rfl
@[simp] theorem emit_store (w : Sys) (t : String) (e : Event) : (w.emit t e).store = w.store := rfl
@[simp] theorem emit_executions (w : Sys) (t : String) (e : Event) :
    (w.emit t e).executions = w.executions := rfl
@[simp] theorem emit_bus (w : Sys) (t : String) (e : Event) :
    (w.emit t e).bus = w.bus ++ [⟨t, e⟩] := rfl
@[simp] theorem emit_clock (w : Sys) (t : String) (e : Event) : (w.emit t e).clock = w.clock := rfl
@[simp] theorem emit_faults (w : Sys) (t : String) (e : Event) : (w.emit t e).faults = w.faults :=
  rfl

/-- With the store succeeding, a load answers the stored record. -/
theorem getState_of_faults_nil {w : Sys} (h : w.faults = []) (id : ExecId) :
    w.getState id =
      ((match w.store id with
        | some s => .ok s
        | none => .error ("state not found: " ++ id)), w) := by
  simp only [getState, fault_of_faults_nil h, next_of_faults_nil h]
  cases w.store id <;> rfl

/-- With the store succeeding, a save writes the record. -/
theorem saveState_of_faults_nil {w : Sys} (h : w.faults = []) (s : GraphState) :
    w.saveState s = (none, w.save s) := by
  simp [saveState, h]

/-- With the bus succeeding, a publication goes out. -/
theorem publish_of_faults_nil {w : Sys} (h : w.faults = []) (t : String) (e : Event) :
    w.publish t e = (none, w.emit t e) := by
  simp [publish, h]

end Sys

/-- A program of the coordinator: a tree of calls on the world, each continued by what the
code does with the call's result. -/
inductive Prog (α : Type) where
  | pure (a : α)
  | halt (h : Halt)
  | getState (graphID : ExecId) (k : Except String GraphState → Prog α)
  | saveState (state : GraphState) (k : Option String → Prog α)
  | publish (topic : String) (event : Event) (k : Option String → Prog α)
  | loadExecution (graphID : ExecId) (k : Option ExecutionContext → Prog α)
  | modifyExecutions
      (f : (ExecId → Option ExecutionContext) → ExecId → Option ExecutionContext) (k : Prog α)
  | now (k : ℕ → Prog α)

namespace Prog

/-- Sequencing: `p >>= f` continues every leaf `pure a` of `p` with `f a`. -/
def bind {α β : Type} : Prog α → (α → Prog β) → Prog β
  | .pure a, f => f a
  | .halt h, _ => .halt h
  | .getState id k, f => .getState id fun r => (k r).bind f
  | .saveState s k, f => .saveState s fun r => (k r).bind f
  | .publish t e k, f => .publish t e fun r => (k r).bind f
  | .loadExecution id k, f => .loadExecution id fun r => (k r).bind f
  | .modifyExecutions g k, f => .modifyExecutions g (k.bind f)
  | .now k, f => .now fun t => (k t).bind f

instance : Monad Prog where
  pure := .pure
  bind := Prog.bind

/-- **Atomic semantics**: run the program to its end, threading the world through its calls. -/
def run {α : Type} : Prog α → Sys → Except Halt (α × Sys)
  | .pure a, w => .ok (a, w)
  | .halt h, _ => .error h
  | .getState id k, w => (k (w.getState id).1).run (w.getState id).2
  | .saveState s k, w => (k (w.saveState s).1).run (w.saveState s).2
  | .publish t e k, w => (k (w.publish t e).1).run (w.publish t e).2
  | .loadExecution id k, w => (k (w.executions id)).run w
  | .modifyExecutions f k, w => k.run { w with executions := f w.executions }
  | .now k, w => (k w.clock).run w

/-- **Small-step semantics**: perform the next call only; `none` once the program has
returned or halted. -/
def step {α : Type} : Prog α → Sys → Option (Prog α × Sys)
  | .pure _, _ => none
  | .halt _, _ => none
  | .getState id k, w => some (k (w.getState id).1, (w.getState id).2)
  | .saveState s k, w => some (k (w.saveState s).1, (w.saveState s).2)
  | .publish t e k, w => some (k (w.publish t e).1, (w.publish t e).2)
  | .loadExecution id k, w => some (k (w.executions id), w)
  | .modifyExecutions f k, w => some (k, { w with executions := f w.executions })
  | .now k, w => some (k w.clock, w)

/-- A step does not change what the rest of the run computes. -/
theorem run_eq_of_step {α : Type} {p p' : Prog α} {w w' : Sys} (h : p.step w = some (p', w')) :
    p.run w = p'.run w' := by
  cases p <;> simp only [step, reduceCtorEq, Option.some.injEq, Prod.mk.injEq] at h <;>
    obtain ⟨rfl, rfl⟩ := h <;> rfl

@[simp] theorem pure_bind {α β : Type} (a : α) (f : α → Prog β) :
    (Prog.pure a >>= f) = f a := rfl

@[simp] theorem run_pure {α : Type} (a : α) (w : Sys) : (Prog.pure a).run w = .ok (a, w) := rfl

@[simp] theorem run_pure' {α : Type} (a : α) (w : Sys) : (pure a : Prog α).run w = .ok (a, w) :=
  rfl

/-- Running `p >>= f` runs `p`, then `f` on its result. -/
theorem run_bind {α β : Type} (p : Prog α) (f : α → Prog β) (w : Sys) :
    (p >>= f).run w = (p.run w).bind fun r => (f r.1).run r.2 := by
  induction p generalizing w with
  | pure a => rfl
  | halt h => rfl
  | getState id k ih => exact ih _ _
  | saveState s k ih => exact ih _ _
  | publish t e k ih => exact ih _ _
  | loadExecution id k ih => exact ih _ _
  | modifyExecutions g k ih => exact ih _
  | now k ih => exact ih _ _

end Prog

/-- A bound computation that returns ran its first part to an end. -/
theorem Except.exists_of_bind_eq_ok {ε α β : Type} {x : Except ε α} {f : α → Except ε β}
    {b : β} (h : x.bind f = .ok b) : ∃ a, x = .ok a ∧ f a = .ok b := by
  cases x with
  | error e => cases h
  | ok a => exact ⟨a, rfl, h⟩

/-- A program whose result is dropped has returned one. -/
theorem Prog.run_discard {α : Type} {p : Prog α} {v w' : Sys}
    (h : (do let _ ← p : Prog Unit).run v = .ok ((), w')) : ∃ a, p.run v = .ok (a, w') := by
  rw [Prog.run_bind] at h
  obtain ⟨⟨a, _⟩, hp, h⟩ := Except.exists_of_bind_eq_ok h
  obtain ⟨-, rfl⟩ := Prod.mk.inj (Except.ok.inj h)
  exact ⟨a, hp⟩

/-- A program whose result is dropped returns when the program does. -/
theorem Prog.run_discard_of_run {α : Type} {p : Prog α} {v w' : Sys} {a : α}
    (h : p.run v = .ok (a, w')) : (do let _ ← p : Prog Unit).run v = .ok ((), w') := by
  rw [Prog.run_bind, h]
  rfl

/-! ### The calls, one by one -/

/-- `m.storage.GetState(ctx, graphID)`. -/
def Storage.getState (graphID : ExecId) : Prog (Except String GraphState) :=
  .getState graphID .pure

/-- `m.storage.SaveState(ctx, state)`. -/
def Storage.saveState (s : GraphState) : Prog (Option String) := .saveState s .pure

/-- `m.eventBus.Publish(ctx, topic, event)`. -/
def EventBus.publish (topic : String) (event : Event) : Prog (Option String) :=
  .publish topic event .pure

/-- `m.executions.Load(graphID)`. -/
def Executions.load (graphID : ExecId) : Prog (Option ExecutionContext) :=
  .loadExecution graphID .pure

/-- `m.executions.Store(graphID, entry)`. -/
def Executions.store (graphID : ExecId) (e : ExecutionContext) : Prog Unit :=
  .modifyExecutions (fun t k => if k = graphID then some e else t k) (.pure ())

/-- `m.executions.Delete(graphID)`. -/
def Executions.delete (graphID : ExecId) : Prog Unit :=
  .modifyExecutions (fun t k => if k = graphID then none else t k) (.pure ())

/-- A write through the entry pointer that `Load` returned, such as `execCtx.cancelFunc()` or
`execCtx.status = …`: it reaches the map only while the map still holds the entry. -/
def Executions.update (graphID : ExecId) (f : ExecutionContext → ExecutionContext) : Prog Unit :=
  .modifyExecutions (fun t k => if k = graphID then (t k).map f else t k) (.pure ())

/-- `time.Now()`. -/
def Time.now : Prog ℕ := .now .pure

/-! ### Programs in normal form

The `do` blocks of the manager are sequences of binds on the calls above. These lemmas turn a
call followed by its continuation into the constructor it is, so that `simp` brings every
program to a tree of calls. -/

@[simp] theorem Prog.bind_assoc {α β γ : Type} (p : Prog α) (f : α → Prog β)
    (g : β → Prog γ) : (p >>= f) >>= g = p >>= fun a => f a >>= g := by
  induction p with
  | pure a => rfl
  | halt h => rfl
  | getState id k ih => exact congrArg (Prog.getState id) (funext ih)
  | saveState s k ih => exact congrArg (Prog.saveState s) (funext ih)
  | publish t e k ih => exact congrArg (Prog.publish t e) (funext ih)
  | loadExecution id k ih => exact congrArg (Prog.loadExecution id) (funext ih)
  | modifyExecutions f k ih => exact congrArg (Prog.modifyExecutions f) ih
  | now k ih => exact congrArg Prog.now (funext ih)

@[simp] theorem Prog.pure_eq {α : Type} (a : α) : (pure a : Prog α) = .pure a := rfl

@[simp] theorem Prog.halt_bind {α β : Type} (h : Halt) (f : α → Prog β) :
    (Prog.halt h >>= f) = .halt h := rfl

@[simp] theorem Storage.getState_bind {β : Type} (id : ExecId) (f : _ → Prog β) :
    Storage.getState id >>= f = .getState id f := rfl

@[simp] theorem Storage.saveState_bind {β : Type} (s : GraphState) (f : _ → Prog β) :
    Storage.saveState s >>= f = .saveState s f := rfl

@[simp] theorem EventBus.publish_bind {β : Type} (t : String) (e : Event) (f : _ → Prog β) :
    EventBus.publish t e >>= f = .publish t e f := rfl

@[simp] theorem Executions.load_bind {β : Type} (id : ExecId) (f : _ → Prog β) :
    Executions.load id >>= f = .loadExecution id f := rfl

@[simp] theorem Executions.store_bind {β : Type} (id : ExecId) (e : ExecutionContext)
    (f : Unit → Prog β) :
    Executions.store id e >>= f =
      .modifyExecutions (fun t k => if k = id then some e else t k) (f ()) := rfl

@[simp] theorem Executions.delete_bind {β : Type} (id : ExecId) (f : Unit → Prog β) :
    Executions.delete id >>= f =
      .modifyExecutions (fun t k => if k = id then none else t k) (f ()) := rfl

@[simp] theorem Executions.update_bind {β : Type} (id : ExecId)
    (g : ExecutionContext → ExecutionContext) (f : Unit → Prog β) :
    Executions.update id g >>= f =
      .modifyExecutions (fun t k => if k = id then (t k).map g else t k) (f ()) := rfl

@[simp] theorem Time.now_bind {β : Type} (f : ℕ → Prog β) : Time.now >>= f = .now f := rfl

/-! ### A program logic for store invariants -/

/-- Every stored record satisfies `P`. -/
def StoreInv (P : GraphState → Prop) (w : Sys) : Prop :=
  ∀ k s, w.store k = some s → P s

/-- `p.Keeps P Q`: provided every record `p` loads satisfies `P`, every record it saves
satisfies `P`, it never dereferences a missing node state (it may run out of fuel), and its
result satisfies `Q`. -/
inductive Prog.Keeps (P : GraphState → Prop) {α : Type} (Q : α → Prop) : Prog α → Prop
  | pure {a : α} : Q a → Keeps P Q (.pure a)
  | outOfFuel : Keeps P Q (.halt .outOfFuel)
  | getState {id k} : (∀ r, (∀ s, r = .ok s → P s) → Keeps P Q (k r)) →
      Keeps P Q (.getState id k)
  | saveState {s k} : P s → (∀ r, Keeps P Q (k r)) → Keeps P Q (.saveState s k)
  | publish {t e k} : (∀ r, Keeps P Q (k r)) → Keeps P Q (.publish t e k)
  | loadExecution {id k} : (∀ r, Keeps P Q (k r)) → Keeps P Q (.loadExecution id k)
  | modifyExecutions {f k} : Keeps P Q k → Keeps P Q (.modifyExecutions f k)
  | now {k} : (∀ t, Keeps P Q (k t)) → Keeps P Q (.now k)

namespace Prog.Keeps

variable {P : GraphState → Prop} {α β : Type} {Q : α → Prop} {R : β → Prop}

/-- The sequencing rule. -/
theorem bind {p : Prog α} {f : α → Prog β} (hp : p.Keeps P Q)
    (hf : ∀ a, Q a → (f a).Keeps P R) : (p >>= f).Keeps P R := by
  induction hp with
  | pure h => exact hf _ h
  | outOfFuel => exact .outOfFuel
  | getState _ ih => exact .getState fun r hr => ih r hr
  | saveState hs _ ih => exact .saveState hs ih
  | publish _ ih => exact .publish ih
  | loadExecution _ ih => exact .loadExecution ih
  | modifyExecutions _ ih => exact .modifyExecutions ih
  | now _ ih => exact .now ih

/-- The consequence rule on the result. -/
theorem mono {p : Prog α} {Q' : α → Prop} (hp : p.Keeps P Q) (h : ∀ a, Q a → Q' a) :
    p.Keeps P Q' := by
  induction hp with
  | pure hq => exact .pure (h _ hq)
  | outOfFuel => exact .outOfFuel
  | getState _ ih => exact .getState ih
  | saveState hs _ ih => exact .saveState hs ih
  | publish _ ih => exact .publish ih
  | loadExecution _ ih => exact .loadExecution ih
  | modifyExecutions _ ih => exact .modifyExecutions ih
  | now _ ih => exact .now ih

theorem storage_getState (id : ExecId) :
    (Storage.getState id).Keeps P (fun r => ∀ s, r = .ok s → P s) :=
  .getState fun _ hr => .pure hr

theorem storage_saveState {s : GraphState} (hs : P s) :
    (Storage.saveState s).Keeps P (fun _ => True) :=
  .saveState hs fun _ => .pure trivial

theorem eventBus_publish (t : String) (e : Event) :
    (EventBus.publish t e).Keeps P (fun _ => True) :=
  .publish fun _ => .pure trivial

theorem executions_load (id : ExecId) : (Executions.load id).Keeps P (fun _ => True) :=
  .loadExecution fun _ => .pure trivial

theorem executions_store (id : ExecId) (e : ExecutionContext) :
    (Executions.store id e).Keeps P (fun _ => True) := .modifyExecutions (.pure trivial)

theorem executions_delete (id : ExecId) : (Executions.delete id).Keeps P (fun _ => True) :=
  .modifyExecutions (.pure trivial)

theorem executions_update (id : ExecId) (f : ExecutionContext → ExecutionContext) :
    (Executions.update id f).Keeps P (fun _ => True) := .modifyExecutions (.pure trivial)

theorem time_now : Time.now.Keeps P (fun _ => True) := .now fun _ => .pure trivial

end Prog.Keeps

/-! ### Soundness of the logic -/

section soundness

variable {P : GraphState → Prop}

theorem StoreInv.next {w : Sys} (hw : StoreInv P w) : StoreInv P w.next := hw

theorem StoreInv.getState {w : Sys} (hw : StoreInv P w) (id : ExecId) :
    StoreInv P (w.getState id).2 ∧ ∀ s, (w.getState id).1 = .ok s → P s :=
  ⟨hw, fun _ h => hw _ _ (Sys.store_of_getState_ok h)⟩

theorem StoreInv.saveState {w : Sys} (hw : StoreInv P w) {s : GraphState} (hs : P s) :
    StoreInv P (w.saveState s).2 := by
  unfold Sys.saveState
  split
  · exact hw
  · intro k r h
    simp only [Sys.save, Sys.next_store] at h
    split at h
    · cases h; exact hs
    · exact hw k r h

theorem StoreInv.publish {w : Sys} (hw : StoreInv P w) (t : String) (e : Event) :
    StoreInv P (w.publish t e).2 := by
  unfold Sys.publish
  split <;> exact hw

variable {α : Type} {Q : α → Prop}

/-- **Run soundness**: a program that keeps `P`, run atomically from a world whose records
satisfy `P`, ends in such a world with a result satisfying `Q`. -/
theorem Prog.Keeps.run {p : Prog α} (hp : p.Keeps P Q) {w w' : Sys} {a : α}
    (hw : StoreInv P w) (h : p.run w = .ok (a, w')) : StoreInv P w' ∧ Q a := by
  induction hp generalizing w with
  | pure hq => cases h; exact ⟨hw, hq⟩
  | outOfFuel => cases h
  | getState _ ih =>
    exact ih _ (hw.getState _).2 (hw.getState _).1 h
  | saveState hs _ ih => exact ih _ (hw.saveState hs) h
  | publish _ ih => exact ih _ (hw.publish _ _) h
  | loadExecution _ ih => exact ih _ hw h
  | @modifyExecutions f _ _ ih => exact ih (w := { w with executions := f w.executions }) hw h
  | now _ ih => exact ih _ hw h

/-- **No nil dereference**: such a program, run from a world whose records satisfy `P`,
never halts on a missing node state. -/
theorem Prog.Keeps.run_ne_nilDereference {p : Prog α} (hp : p.Keeps P Q) {w : Sys}
    (hw : StoreInv P w) : p.run w ≠ .error .nilDereference := by
  induction hp generalizing w with
  | pure _ => simp
  | outOfFuel => simp [Prog.run]
  | getState _ ih => exact ih _ (hw.getState _).2 (hw.getState _).1
  | saveState hs _ ih => exact ih _ (hw.saveState hs)
  | publish _ ih => exact ih _ (hw.publish _ _)
  | loadExecution _ ih => exact ih _ hw
  | @modifyExecutions f _ _ ih => exact ih (w := { w with executions := f w.executions }) hw
  | now _ ih => exact ih _ hw

/-- **Step soundness**: one call of such a program keeps `P` of the store, and what is left
of the program still keeps `P`. -/
theorem Prog.Keeps.step {p p' : Prog α} (hp : p.Keeps P Q) {w w' : Sys} (hw : StoreInv P w)
    (h : p.step w = some (p', w')) : StoreInv P w' ∧ p'.Keeps P Q := by
  cases hp <;> simp only [Prog.step, reduceCtorEq, Option.some.injEq, Prod.mk.injEq] at h <;>
    obtain ⟨rfl, rfl⟩ := h
  case getState hk => exact ⟨(hw.getState _).1, hk _ (hw.getState _).2⟩
  case saveState hs hk => exact ⟨hw.saveState hs, hk _⟩
  case publish hk => exact ⟨hw.publish _ _, hk _⟩
  case loadExecution hk => exact ⟨hw, hk _⟩
  case modifyExecutions hk => exact ⟨hw, hk⟩
  case now hk => exact ⟨hw, hk _⟩

end soundness

end Dago
