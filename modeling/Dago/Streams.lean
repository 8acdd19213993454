import Mathlib.Data.List.Nodup
import Mathlib.Logic.Relation
import Dago.Domain

/-!
# The Redis Streams Bus

`StreamsEventBus` of `pkg/adapters/events/redis`, whose code the repository keeps in
`pkg/adapters/events/doc.go`. `main.go` builds one such bus and hands it to the manager, to
the worker pool and to the WebSocket handler, all with the consumer group `dago-workers` and
the consumer name `dago-<pid>`. A topic is the stream `dago:events:<topic>`.

* `Publish` appends an entry (`XADD`).
* `Subscribe` creates the group from the stream's start (`XGROUP CREATE … 0 MKSTREAM`), or
  finds it there (`BUSYGROUP`), and starts a reader goroutine, `readStream`.
* A reader asks for the next entries not yet delivered to the group (`XREADGROUP … COUNT 10
  STREAMS key >`), which Redis hands it and records as pending, and then runs the handler
  on each in turn (`processMessage`). A nil answer of the handler acknowledges the entry
  (`XACK`), which removes it from the pending list; any other answer leaves it pending.
* A reader whose context is done finishes its batch and reads no more.

The model is one stream with its group. Every subscription of the process is a reader of the
one group, as are the readers of other replicas of the service. What the handler answers and
whether `XACK` succeeds are parameters of each step, and the steps interleave in any order.
`json.Unmarshal` of an entry that `Publish` wrote cannot fail, so the two error branches of
`processMessage` before the handler are left out.

Three facts follow. The readers of a topic split its entries: each entry goes to one reader,
once, in stream order (`delivered_in_stream_order`, `delivered_to_one_reader`). A WebSocket
connection's reader of `graph.events` and that of another connection are two such readers,
so two clients of one graph never see the same event. Nothing is delivered twice: no reader
reads the pending list again, so an entry whose handler failed is never handled again and
stays pending for good (`failed_entry_never_retried`). The bus delivers at most once, where
§6.2 of the specification asks for consumer-group semantics with redelivery. And each reader
handles its entries in stream order (`handled_in_order`).

## Main results

* `Reachable.inv`: the invariant of every run.
* `delivered_in_stream_order`, `delivered_to_one_reader`: the group hands every entry out
  once, to one reader.
* `handled_in_order`: every reader handles its entries in stream order.
* `failed_entry_never_retried`: an entry whose handler failed stays pending and is never
  handled again.
-/

namespace Dago

namespace Streams

/-- `Count: 10` of the `XREADGROUP` call. -/
def readCount : ℕ := 10

/-- The `readStream` goroutine that one `Subscribe` starts. -/
structure Reader where
  /-- The ids of its last `XREADGROUP` answer not yet processed, in order. -/
  batch : List ℕ
  /-- Its context is done: it reads no more once its batch is processed. -/
  stopped : Bool
  deriving DecidableEq, Repr

/-- The stream of one topic with the group `dago-workers`, and what an observer records. An
entry's id is its position in the stream. -/
structure Stream where
  entries : List Event
  /-- The group's last-delivered id, as the count of entries delivered to the group; `none`
  until a `Subscribe` creates the group. -/
  group : Option ℕ
  /-- The group's pending entries list: delivered and not acknowledged. -/
  pending : List ℕ
  /-- The readers started, numbered in the order of their `Subscribe`. -/
  readers : List Reader
  /-- Every delivery, as the reader and the entry id, in order. -/
  delivered : List (ℕ × ℕ)
  /-- Every run of a handler, as the reader and the entry id, in order. -/
  handled : List (ℕ × ℕ)
  /-- Every acknowledgement that removed an entry from the pending list. -/
  acked : List ℕ

/-- What happens on a stream. -/
inductive Action
  /-- `Publish` of an event. -/
  | publish (e : Event)
  /-- `Subscribe`: `ok` when `XGROUP CREATE` succeeds or answers `BUSYGROUP`. -/
  | subscribe (ok : Bool)
  /-- A reader's `XREADGROUP`. -/
  | read (r : ℕ)
  /-- A reader runs its handler on the next entry of its batch: `ok` when the handler returns
  nil, `ackOk` when `XACK` then succeeds. -/
  | process (r : ℕ) (ok ackOk : Bool)
  /-- A reader's context is done. -/
  | stop (r : ℕ)

namespace Stream

/-- A stream no one has written to. -/
def empty : Stream := ⟨[], none, [], [], [], [], []⟩

/-- The count of entries delivered to the group. -/
def pointer (s : Stream) : ℕ := s.group.getD 0

/-- The unprocessed batch of reader `r`. -/
def batchOf (s : Stream) (r : ℕ) : List ℕ := (s.readers[r]?.map Reader.batch).getD []

/-- The ids delivered to reader `r`, in order. -/
def deliveredTo (s : Stream) (r : ℕ) : List ℕ := (s.delivered.filter (·.1 = r)).map Prod.snd

/-- The ids whose handler reader `r` has run, in order. -/
def handledBy (s : Stream) (r : ℕ) : List ℕ := (s.handled.filter (·.1 = r)).map Prod.snd

/-- `Publish`: the entry is appended. -/
def publish (s : Stream) (e : Event) : Stream := { s with entries := s.entries ++ [e] }

/-- `Subscribe`: the group is created at the stream's start unless it exists, and a reader
starts. A failed `XGROUP CREATE` returns its error and starts nothing. -/
def subscribe (s : Stream) (ok : Bool) : Stream :=
  if ok then { s with group := some s.pointer, readers := s.readers ++ [⟨[], false⟩] } else s

/-- `XREADGROUP … COUNT 10 STREAMS key >` by an idle reader: the next entries not yet
delivered to the group, ten at most, become its batch and pending. `none` when the reader
cannot read: it is missing, busy with a batch or stopped, or nothing new has come, so that the
read blocks and answers `redis.Nil`. -/
def read (s : Stream) (r : ℕ) : Option Stream :=
  match s.readers[r]?, s.group with
  | some ⟨[], false⟩, some d =>
    let n := min readCount (s.entries.length - d)
    if n = 0 then none
    else
      some { s with group := some (d + n), pending := s.pending ++ List.range' d n,
                    readers := s.readers.set r ⟨List.range' d n, false⟩,
                    delivered := s.delivered ++ (List.range' d n).map fun i => (r, i) }
  | _, _ => none

/-- `processMessage` of the next entry of a reader's batch: the handler runs, and a nil answer
followed by a successful `XACK` takes the entry off the pending list. -/
def process (s : Stream) (r : ℕ) (ok ackOk : Bool) : Option Stream :=
  match s.readers[r]? with
  | some ⟨i :: rest, stopped⟩ =>
    some { s with readers := s.readers.set r ⟨rest, stopped⟩, handled := s.handled ++ [(r, i)],
                  pending := if ok && ackOk then s.pending.erase i else s.pending,
                  acked := if ok && ackOk then s.acked ++ [i] else s.acked }
  | _ => none

/-- A reader's context is done. -/
def stop (s : Stream) (r : ℕ) : Option Stream :=
  match s.readers[r]? with
  | some rd => some { s with readers := s.readers.set r { rd with stopped := true } }
  | none => none

/-- One action; `none` when it cannot happen. -/
def step (s : Stream) : Action → Option Stream
  | .publish e => some (s.publish e)
  | .subscribe ok => some (s.subscribe ok)
  | .read r => s.read r
  | .process r ok ackOk => s.process r ok ackOk
  | .stop r => s.stop r

/-- A step of the stream, by any action. -/
def Steps (s s' : Stream) : Prop := ∃ a, s.step a = some s'

/-- The states that runs from the empty stream reach. -/
def Reachable (s : Stream) : Prop := Relation.ReflTransGen Steps empty s

/-- Run a script of actions: `none` once an action cannot happen. -/
def run (s : Stream) : List Action → Option Stream
  | [] => some s
  | a :: as => (s.step a).bind fun s' => s'.run as

/-- A script runs through steps. -/
theorem steps_of_run : ∀ {s s' : Stream} {as : List Action}, s.run as = some s' →
    Relation.ReflTransGen Steps s s'
  | _, _, [], h => by cases h; exact .refl
  | s, s', a :: as, h => by
    simp only [run, Option.bind_eq_some] at h
    obtain ⟨s₁, h₁, h⟩ := h
    exact .head ⟨a, h₁⟩ (steps_of_run h)

/-! ### What each action can do -/

variable {s s' : Stream} {r : ℕ}

theorem read_inv (h : s.read r = some s') :
    ∃ d n, s.readers[r]? = some ⟨[], false⟩ ∧ s.group = some d ∧
      n = min readCount (s.entries.length - d) ∧ 0 < n ∧
      s' = { s with group := some (d + n), pending := s.pending ++ List.range' d n,
                    readers := s.readers.set r ⟨List.range' d n, false⟩,
                    delivered := s.delivered ++ (List.range' d n).map fun i => (r, i) } := by
  unfold read at h
  split at h
  · rename_i d hr hg
    dsimp only at h
    split at h
    · cases h
    · exact ⟨d, _, hr, hg, rfl, Nat.pos_of_ne_zero ‹_›, (Option.some.inj h).symm⟩
  · cases h

theorem process_inv {ok ackOk : Bool} (h : s.process r ok ackOk = some s') :
    ∃ i rest stopped, s.readers[r]? = some ⟨i :: rest, stopped⟩ ∧
      s' = { s with readers := s.readers.set r ⟨rest, stopped⟩, handled := s.handled ++ [(r, i)],
                    pending := if ok && ackOk then s.pending.erase i else s.pending,
                    acked := if ok && ackOk then s.acked ++ [i] else s.acked } := by
  unfold process at h
  split at h
  · exact ⟨_, _, _, ‹_›, (Option.some.inj h).symm⟩
  · cases h

theorem stop_inv (h : s.stop r = some s') :
    ∃ rd, s.readers[r]? = some rd ∧
      s' = { s with readers := s.readers.set r { rd with stopped := true } } := by
  unfold stop at h
  split at h
  · exact ⟨_, ‹_›, (Option.some.inj h).symm⟩
  · cases h

/-! ### The invariant of every run -/

theorem mem_deliveredTo {i : ℕ} : i ∈ s.deliveredTo r ↔ (r, i) ∈ s.delivered := by
  simp [deliveredTo]

theorem mem_handledBy {i : ℕ} : i ∈ s.handledBy r ↔ (r, i) ∈ s.handled := by
  simp [handledBy]

/-- What holds of the stream after any run: the group has handed out the first `pointer`
entries, each once and in order, each to a reader that exists; each reader has handled a
prefix of what it was handed, the rest being its batch; no entry was handled twice; and the
pending entries are those handed out and not acknowledged. -/
structure Inv (s : Stream) : Prop where
  pointer_le : s.pointer ≤ s.entries.length
  delivered_ids : s.delivered.map Prod.snd = List.range s.pointer
  delivered_readers : ∀ p ∈ s.delivered, p.1 < s.readers.length
  batches : ∀ r, s.deliveredTo r = s.handledBy r ++ s.batchOf r
  handled_nodup : (s.handled.map Prod.snd).Nodup
  pending_iff : ∀ i, i ∈ s.pending ↔ i < s.pointer ∧ i ∉ s.acked
  pending_nodup : s.pending.Nodup
  acked_lt : ∀ i ∈ s.acked, i < s.pointer

theorem batchOf_set {t : Stream} {x : Reader} (ht : t.readers = s.readers.set r x)
    (hr : r < s.readers.length) (r' : ℕ) :
    t.batchOf r' = if r' = r then x.batch else s.batchOf r' := by
  by_cases hr' : r' = r
  · subst hr'
    simp [batchOf, ht, hr]
  · simp [batchOf, ht, hr', Ne.symm hr']

theorem range_append_range' (d n : ℕ) : List.range d ++ List.range' d n = List.range (d + n) := by
  simpa [List.range_eq_range', Nat.add_comm] using List.range'_append_1 0 d n

namespace Inv

variable {i : ℕ}

theorem deliveredTo_nodup (h : s.Inv) : (s.deliveredTo r).Nodup :=
  (h.delivered_ids ▸ List.nodup_range _ : (s.delivered.map Prod.snd).Nodup).sublist
    ((List.filter_sublist _).map _)

/-- Two deliveries of one entry went to one reader. -/
theorem reader_eq (h : s.Inv) {r₁ r₂ : ℕ} (h₁ : (r₁, i) ∈ s.delivered)
    (h₂ : (r₂, i) ∈ s.delivered) : r₁ = r₂ :=
  congrArg Prod.fst <| List.inj_on_of_nodup_map
    (h.delivered_ids ▸ List.nodup_range _ : (s.delivered.map Prod.snd).Nodup) h₁ h₂ rfl

theorem lt_pointer_of_delivered (h : s.Inv) (hd : (r, i) ∈ s.delivered) : i < s.pointer := by
  have : i ∈ s.delivered.map Prod.snd := List.mem_map_of_mem Prod.snd hd
  simpa [h.delivered_ids] using this

theorem delivered_of_handled (h : s.Inv) (hh : (r, i) ∈ s.handled) : (r, i) ∈ s.delivered :=
  mem_deliveredTo.mp (h.batches r ▸ List.mem_append_left _ (mem_handledBy.mpr hh))

theorem publish (h : s.Inv) (e : Event) : (s.publish e).Inv :=
  ⟨h.pointer_le.trans (by simp [Stream.publish]), h.delivered_ids, h.delivered_readers,
    h.batches, h.handled_nodup, h.pending_iff, h.pending_nodup, h.acked_lt⟩

theorem subscribe (h : s.Inv) (ok : Bool) : (s.subscribe ok).Inv := by
  unfold Stream.subscribe
  split
  · refine ⟨h.pointer_le, h.delivered_ids, fun p hp => ?_, fun r' => ?_, h.handled_nodup,
      h.pending_iff, h.pending_nodup, h.acked_lt⟩
    · simpa using Nat.lt_succ_of_lt (h.delivered_readers p hp)
    · show s.deliveredTo r' = s.handledBy r' ++ _
      rw [h.batches r']
      congr 1
      -- the new reader's batch is empty, as is that of a reader that does not exist
      by_cases hr : r' < s.readers.length
      · simp [batchOf, List.getElem?_append_left hr]
      · simp only [batchOf, List.getElem?_append_right (not_lt.mp hr),
          List.getElem?_eq_none (not_lt.mp hr)]
        cases r' - s.readers.length <;> rfl
  · exact h

theorem read (h : s.Inv) (hs : s.read r = some s') : s'.Inv := by
  obtain ⟨d, n, hr, hg, hn, hpos, rfl⟩ := read_inv hs
  have hp : s.pointer = d := by simp [pointer, hg]
  have hrlen : r < s.readers.length := (List.getElem?_eq_some_iff.mp hr).1
  have hb : s.batchOf r = [] := by simp [batchOf, hr]
  have hle := h.pointer_le
  have hacked : ∀ i ∈ s.acked, i < d := hp ▸ h.acked_lt
  refine ⟨?_, ?_, fun p hp' => ?_, fun r' => ?_, h.handled_nodup, fun i => ?_, ?_, fun i hi =>
    Nat.lt_add_right n (hacked i hi)⟩
  · show d + n ≤ s.entries.length
    omega
  · show _ = List.range (d + n)
    simp [h.delivered_ids, hp, Function.comp_def, range_append_range']
  · simp only [List.length_set]
    rcases List.mem_append.mp hp' with hp' | hp'
    · exact h.delivered_readers p hp'
    · obtain ⟨i, -, rfl⟩ := List.mem_map.mp hp'
      exact hrlen
  · -- the reader's new batch is what it was just handed
    rw [batchOf_set rfl hrlen r']
    by_cases hr' : r' = r
    · subst hr'
      simp [deliveredTo, handledBy, List.filter_append, List.filter_map, Function.comp_def]
      simpa [deliveredTo, handledBy, hb] using h.batches r'
    · simp [deliveredTo, handledBy, List.filter_append, List.filter_map, Function.comp_def,
        Ne.symm hr', hr']
      simpa [deliveredTo, handledBy] using h.batches r'
  · show i ∈ s.pending ++ List.range' d n ↔ i < d + n ∧ i ∉ s.acked
    rw [List.mem_append, h.pending_iff, hp, List.mem_range'_1]
    constructor
    · rintro (⟨hi, ha⟩ | ⟨hi, hi'⟩)
      · exact ⟨by omega, ha⟩
      · exact ⟨hi', fun ha => absurd (hacked i ha) (by omega)⟩
    · rintro ⟨hi, ha⟩
      by_cases hd : i < d
      · exact .inl ⟨hd, ha⟩
      · exact .inr ⟨by omega, hi⟩
  · refine List.Nodup.append h.pending_nodup (List.nodup_range' _ _) fun i hi hi' => ?_
    have := ((h.pending_iff i).mp hi).1
    rw [List.mem_range'_1] at hi'
    omega

theorem process (h : s.Inv) {ok ackOk : Bool} (hs : s.process r ok ackOk = some s') : s'.Inv := by
  obtain ⟨i, rest, stopped, hr, rfl⟩ := process_inv hs
  have hrlen : r < s.readers.length := (List.getElem?_eq_some_iff.mp hr).1
  have hb : s.batchOf r = i :: rest := by simp [batchOf, hr]
  have hdel : (r, i) ∈ s.delivered :=
    mem_deliveredTo.mp (h.batches r ▸ List.mem_append_right _ (hb ▸ List.mem_cons_self i rest))
  have hlt : i < s.pointer := h.lt_pointer_of_delivered hdel
  -- the entry has not been handled: by its own reader it comes after what that reader handled,
  -- and no other reader was handed it
  have hnew : i ∉ s.handled.map Prod.snd := by
    intro hi
    obtain ⟨⟨r', i'⟩, hh, rfl⟩ := List.mem_map.mp hi
    obtain rfl := h.reader_eq (h.delivered_of_handled hh) hdel
    have hnd := h.deliveredTo_nodup (r := r')
    rw [h.batches r', hb] at hnd
    exact List.disjoint_of_nodup_append hnd (mem_handledBy.mpr hh) (List.mem_cons_self _ _)
  refine ⟨h.pointer_le, h.delivered_ids, fun p hp => by simpa using h.delivered_readers p hp,
    fun r' => ?_, ?_, fun i' => ?_, ?_, ?_⟩
  · rw [batchOf_set rfl hrlen r']
    by_cases hr' : r' = r
    · subst hr'
      simpa [deliveredTo, handledBy, List.filter_append, hb] using h.batches r'
    · simpa [deliveredTo, handledBy, List.filter_append, hr', Ne.symm hr'] using h.batches r'
  · simpa [List.nodup_append] using And.intro h.handled_nodup hnew
  · show i' ∈ (if ok && ackOk then s.pending.erase i else s.pending) ↔
      i' < s.pointer ∧ i' ∉ (if ok && ackOk then s.acked ++ [i] else s.acked)
    split
    · rw [h.pending_nodup.mem_erase_iff, h.pending_iff]
      simp only [List.mem_append, List.mem_singleton, not_or]
      exact and_comm.trans and_assoc
    · exact h.pending_iff i'
  · show (if ok && ackOk then s.pending.erase i else s.pending).Nodup
    split
    · exact h.pending_nodup.erase i
    · exact h.pending_nodup
  · show ∀ i' ∈ (if ok && ackOk then s.acked ++ [i] else s.acked), i' < s.pointer
    split
    · simpa [or_imp, forall_and, hlt] using h.acked_lt
    · exact h.acked_lt

theorem stop (h : s.Inv) (hs : s.stop r = some s') : s'.Inv := by
  obtain ⟨rd, hr, rfl⟩ := stop_inv hs
  have hrlen : r < s.readers.length := (List.getElem?_eq_some_iff.mp hr).1
  refine ⟨h.pointer_le, h.delivered_ids, fun p hp => by simpa using h.delivered_readers p hp,
    fun r' => ?_, h.handled_nodup, h.pending_iff, h.pending_nodup, h.acked_lt⟩
  rw [batchOf_set rfl hrlen r']
  by_cases hr' : r' = r
  · subst hr'
    simpa [batchOf, hr] using h.batches r'
  · simpa [hr'] using h.batches r'

/-- **Every action keeps the invariant.** -/
theorem step (h : s.Inv) {a : Action} (hs : s.step a = some s') : s'.Inv := by
  cases a with
  | publish e => cases hs; exact h.publish e
  | subscribe ok => cases hs; exact h.subscribe ok
  | read r => exact h.read hs
  | process r ok ackOk => exact h.process hs
  | stop r => exact h.stop hs

end Inv

theorem Inv.empty : empty.Inv :=
  ⟨Nat.le_refl _, rfl, nofun, fun _ => rfl, List.nodup_nil,
    fun _ => by simp [Stream.empty, pointer], List.nodup_nil, nofun⟩

theorem Reachable.inv (h : s.Reachable) : s.Inv := by
  induction h with
  | refl => exact Inv.empty
  | tail _ hs ih =>
    obtain ⟨a, hs⟩ := hs
    exact ih.step hs

/-! ### What only grows -/

/-- From `s` to `s'` the group's pointer has not moved back, and the handler runs and the
acknowledgements of `s'` extend those of `s`, every new acknowledgement being of an entry
handled in between. -/
def Grows (s s' : Stream) : Prop :=
  s.pointer ≤ s'.pointer ∧ ∃ H A, s'.handled = s.handled ++ H ∧ s'.acked = s.acked ++ A ∧
    ∀ i ∈ A, i ∈ H.map Prod.snd

theorem Grows.of_eq (hp : s.pointer ≤ s'.pointer) (hh : s'.handled = s.handled)
    (ha : s'.acked = s.acked) : Grows s s' :=
  ⟨hp, [], [], by simp [hh], by simp [ha], nofun⟩

theorem Grows.trans {s₁ s₂ s₃ : Stream} (h₁ : Grows s₁ s₂) (h₂ : Grows s₂ s₃) : Grows s₁ s₃ := by
  obtain ⟨hp₁, H₁, A₁, hH₁, hA₁, hAH₁⟩ := h₁
  obtain ⟨hp₂, H₂, A₂, hH₂, hA₂, hAH₂⟩ := h₂
  refine ⟨hp₁.trans hp₂, H₁ ++ H₂, A₁ ++ A₂, by simp [hH₂, hH₁], by simp [hA₂, hA₁],
    fun i hi => ?_⟩
  rcases List.mem_append.mp hi with hi | hi
  · simpa using Or.inl (hAH₁ i hi)
  · simpa using Or.inr (hAH₂ i hi)

theorem Grows.step {a : Action} (hs : s.step a = some s') : Grows s s' := by
  cases a with
  | publish e => cases hs; exact .of_eq le_rfl rfl rfl
  | subscribe ok =>
    cases hs
    unfold subscribe
    split <;> exact .of_eq le_rfl rfl rfl
  | read r =>
    obtain ⟨d, n, -, hg, -, -, rfl⟩ := read_inv hs
    exact .of_eq (by simp [pointer, hg]) rfl rfl
  | process r ok ackOk =>
    obtain ⟨i, rest, stopped, -, rfl⟩ := process_inv hs
    refine ⟨le_rfl, [(r, i)], if ok && ackOk then [i] else [], rfl, by split <;> simp, ?_⟩
    split <;> simp
  | stop r =>
    obtain ⟨rd, -, rfl⟩ := stop_inv hs
    exact .of_eq le_rfl rfl rfl

theorem Grows.of_steps (h : Relation.ReflTransGen Steps s s') : Grows s s' := by
  induction h with
  | refl => exact .of_eq le_rfl rfl rfl
  | tail _ hs ih =>
    obtain ⟨a, hs⟩ := hs
    exact ih.trans (.step hs)

/-! ### Delivery -/

/-- **Every entry once, in stream order.** In every state of a run the deliveries of the
group, in order, are of the entries `0, 1, …, pointer - 1`, and the stream holds at least
that many: each of the first `pointer` entries was handed to a reader exactly once, and no
other entry was. -/
theorem delivered_in_stream_order (h : s.Reachable) :
    s.delivered.map Prod.snd = List.range s.pointer ∧ s.pointer ≤ s.entries.length :=
  ⟨h.inv.delivered_ids, h.inv.pointer_le⟩

/-- Two readers subscribe; each reads one of the two entries published, and the handler of
the first one fails. -/
def splitScript : List Action :=
  let e : Event := ⟨.graphCompleted, "x", .fields []⟩
  [.publish e, .subscribe true, .subscribe true, .read 0, .publish e, .read 1,
    .process 0 false true, .process 1 true true]

theorem delivered_in_stream_order_split :
    ∃ s, empty.run splitScript = some s ∧
      s.delivered.map Prod.snd = List.range s.pointer ∧ s.pointer ≤ s.entries.length := by
  obtain ⟨s, hs⟩ : ∃ s, empty.run splitScript = some s := ⟨_, rfl⟩
  exact ⟨s, hs, delivered_in_stream_order (steps_of_run hs)⟩

/-- **The readers split the entries.** Two deliveries of one entry went to one reader: no
entry reaches two subscribers of a topic. -/
theorem delivered_to_one_reader (h : s.Reachable) {r₁ r₂ i : ℕ} (h₁ : (r₁, i) ∈ s.delivered)
    (h₂ : (r₂, i) ∈ s.delivered) : r₁ = r₂ :=
  h.inv.reader_eq h₁ h₂

theorem delivered_to_one_reader_split :
    ∃ s, empty.run splitScript = some s ∧ (1, 1) ∈ s.delivered ∧ (1 : ℕ) = 1 := by
  obtain ⟨s, hs, h₁⟩ : ∃ s, empty.run splitScript = some s ∧ (1, 1) ∈ s.delivered :=
    ⟨_, rfl, by decide⟩
  exact ⟨s, hs, h₁, delivered_to_one_reader (steps_of_run hs) h₁ h₁⟩

open List in
/-- **Each reader in stream order.** The entries a reader has handled are in increasing
order: a prefix of those it was handed, which come in stream order. -/
theorem handled_in_order (h : s.Reachable) (r : ℕ) : (s.handledBy r).Pairwise (· < ·) := by
  have hi := h.inv
  have hsub : s.handledBy r <+ List.range s.pointer :=
    calc s.handledBy r <+ s.handledBy r ++ s.batchOf r := sublist_append_left _ _
      _ = s.deliveredTo r := (hi.batches r).symm
      _ <+ s.delivered.map Prod.snd := (filter_sublist _).map _
      _ = List.range s.pointer := hi.delivered_ids
  exact (pairwise_lt_range _).sublist hsub

theorem handled_in_order_split :
    ∃ s, empty.run splitScript = some s ∧ (s.handledBy 0).Pairwise (· < ·) := by
  obtain ⟨s, hs⟩ : ∃ s, empty.run splitScript = some s := ⟨_, rfl⟩
  exact ⟨s, hs, handled_in_order (steps_of_run hs) 0⟩

/-- **At most once.** An entry whose handler has run without an acknowledgement, because the
handler failed or `XACK` did, stays pending in every later state, and its handler has run
exactly once: no reader is ever handed it again. -/
theorem failed_entry_never_retried (h : s.Reachable) (hss' : Relation.ReflTransGen Steps s s')
    {r i : ℕ} (hh : (r, i) ∈ s.handled) (hp : i ∈ s.pending) :
    i ∈ s'.pending ∧ (s'.handled.map Prod.snd).count i = 1 := by
  obtain ⟨hle, H, A, hH, hA, hAH⟩ := Grows.of_steps hss'
  have hi' : s'.Inv := Reachable.inv (h.trans hss')
  have hi : i ∈ s.handled.map Prod.snd := List.mem_map_of_mem Prod.snd hh
  -- the one run of its handler is the one before `s`, so no acknowledgement came after
  have hiH : i ∉ H.map Prod.snd := by
    have hnd := hi'.handled_nodup
    rw [hH, List.map_append] at hnd
    exact List.disjoint_of_nodup_append hnd hi
  obtain ⟨hlt, hna⟩ := (h.inv.pending_iff i).mp hp
  refine ⟨(hi'.pending_iff i).mpr ⟨hlt.trans_le hle, ?_⟩, ?_⟩
  · rw [hA, List.mem_append, not_or]
    exact ⟨hna, fun ha => hiH (hAH i ha)⟩
  · exact List.count_eq_one_of_mem hi'.handled_nodup (by simp [hH, List.mem_map_of_mem _ hh])

/-- After `splitScript`, a third entry is published, and the first reader reads and handles
it: the entry whose handler failed is still pending, handled once. -/
theorem failed_entry_never_retried_split :
    ∃ s s', empty.run splitScript = some s ∧
      s.run [.publish ⟨.graphCompleted, "x", .fields []⟩, .read 0, .process 0 true true] =
        some s' ∧ (0, 0) ∈ s.handled ∧ 0 ∈ s.pending ∧
      0 ∈ s'.pending ∧ (s'.handled.map Prod.snd).count 0 = 1 := by
  obtain ⟨s, hs, s', hs', hh, hp⟩ : ∃ s, empty.run splitScript = some s ∧
      ∃ s', s.run [.publish ⟨.graphCompleted, "x", .fields []⟩, .read 0, .process 0 true true] =
        some s' ∧ (0, 0) ∈ s.handled ∧ 0 ∈ s.pending :=
    ⟨_, rfl, _, rfl, by decide, by decide⟩
  exact ⟨s, s', hs, hs', hh, hp,
    failed_entry_never_retried (steps_of_run hs) (steps_of_run hs') hh hp⟩

end Stream

end Streams

end Dago
