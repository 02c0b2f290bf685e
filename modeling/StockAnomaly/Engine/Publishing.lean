import StockAnomaly.Aggregation.Candle
import StockAnomaly.Core.BufferOwnership

/-!
# Publishing through the buffer pool

The three `publish_*` functions of `main.cpp`, and the `HIGH` alert that its callback publishes itself. Each
takes a buffer for one message; its local handle is destroyed on every return. **`accounted_of_reachable`**: in
every run of these functions and of the operations on handles no buffer is leaked or returned twice.

The functions are runs of operations (`reachable_of_step`), so a call that other threads interrupt is the same
operations among others.
-/

namespace StockAnomaly.Engine

open Theory StockAnomaly.Core Aggregation

/-- A value of a published object. -/
inductive JsonValue (K : Type)
  | text (s : String)
  | number (x : K)
  | integer (n : ℤ)

abbrev Json (K : Type) := List (String × JsonValue K)

/-- What the library that writes JSON makes of an object; none is its exception for a text that is not UTF-8. -/
abbrev Dump (K : Type) := Json K → Option (List UInt8)

section Bodies

variable {K : Type}

def scalpingBody (sig : AggregatorSignal K) : Json K :=
  [("ticker", .text sig.ticker), ("zscore", .number sig.zscore), ("price_change_pct", .number sig.priceChangePct),
    ("current_price", .number sig.candle.close), ("timestamp_ms", .integer sig.timestampMs)]

def alertBody (severity : String) (sig : AggregatorSignal K) : Json K :=
  [("ticker", .text sig.ticker), ("zscore", .number sig.zscore), ("price_change_pct", .number sig.priceChangePct),
    ("current_price", .number sig.candle.close), ("severity", .text severity),
    ("timestamp_ms", .integer sig.timestampMs)]

def candleBody (c : Candle K) : Json K :=
  [("ticker", .text c.ticker), ("open", .number c.open), ("high", .number c.high), ("low", .number c.low),
    ("close", .number c.close), ("volume", .number c.volume), ("open_time_ms", .integer c.openTimeMs),
    ("close_time_ms", .integer c.closeTimeMs), ("window_minutes", .integer c.windowMinutes),
    ("tick_count", .integer c.tickCount)]

end Bodies

/-- The addresses of the two handles of a call, the local and the parameter of `publish`, and the broker
library's answer. -/
structure PublishCall (H : Type) where
  handle : H
  param : H
  ok : Bool

section Calls

variable {K H : Type} [DecidableEq H]

/-- The buffer is filled, `producer.publish(std::move(handle))`, and the scope of the local ends. -/
def handOver (s : KafkaProducer H) (call : PublishCall H) (b : MessageBuffer) : Option (KafkaProducer H) := do
  let s ← s.fill call.handle b
  let s ← s.moveConstruct call.param call.handle
  let (_, s) ← s.publish call.param call.ok
  s.destroy call.handle

/-- The shape of the `publish_*` functions. -/
def publishMessage (poolSize : ℕ) (topic : String) (ticker : Ticker) (body : Option (List UInt8))
    (s : KafkaProducer H) (call : PublishCall H) : Option (KafkaProducer H) := do
  let s ← s.acquireBuffer poolSize call.handle
  match s.buffer call.handle with
  | none => s.destroy call.handle
  | some buffer =>
    match body with
    -- the exception leaves the function
    | none => s.destroy call.handle
    | some data =>
      match buffer.write data with
      | none => s.destroy call.handle
      | some written => handOver s call (written.address topic ticker)

def publishScalpingSignal (dump : Dump K) (poolSize : ℕ) (s : KafkaProducer H) (sig : AggregatorSignal K)
    (call : PublishCall H) : Option (KafkaProducer H) :=
  publishMessage poolSize "urgent-signals" sig.ticker (dump (scalpingBody sig)) s call

def publishAnomalyAlert (dump : Dump K) (poolSize : ℕ) (s : KafkaProducer H) (sig : AggregatorSignal K)
    (call : PublishCall H) : Option (KafkaProducer H) :=
  let severity := if sig.type = .alertMedium then "MEDIUM" else "LOW"
  publishMessage poolSize "anomaly-alerts" sig.ticker (dump (alertBody severity sig)) s call

def publishCandle (dump : Dump K) (poolSize : ℕ) (s : KafkaProducer H) (sig : AggregatorSignal K)
    (call : PublishCall H) : Option (KafkaProducer H) :=
  publishMessage poolSize "candle-data" sig.candle.ticker (dump (candleBody sig.candle)) s call

/-- The callback's own alert. The text is made before there is a buffer, and the answer of `write` is not
looked at: a message that does not fit goes out empty. -/
def publishHighAlert (dump : Dump K) (poolSize : ℕ) (s : KafkaProducer H) (sig : AggregatorSignal K)
    (call : PublishCall H) : Option (KafkaProducer H) :=
  match dump (alertBody "HIGH" sig) with
  | none => some s
  | some data => do
    let s ← s.acquireBuffer poolSize call.handle
    match s.buffer call.handle with
    | none => s.destroy call.handle
    | some buffer => handOver s call (((buffer.write data).getD buffer).address "anomaly-alerts" sig.ticker)

/-- An operation on a handle, or a call that publishes a signal. -/
inductive ProducerAction (H K : Type)
  | op (op : KafkaProducer.Op H)
  | publishScalpingSignal (sig : AggregatorSignal K) (call : PublishCall H)
  | publishAnomalyAlert (sig : AggregatorSignal K) (call : PublishCall H)
  | publishCandle (sig : AggregatorSignal K) (call : PublishCall H)
  | publishHighAlert (sig : AggregatorSignal K) (call : PublishCall H)

def producerStep (dump : Dump K) (poolSize : ℕ) (s : KafkaProducer H) :
    ProducerAction H K → Option (KafkaProducer H)
  | .op op => s.apply poolSize op
  | .publishScalpingSignal sig call => Engine.publishScalpingSignal dump poolSize s sig call
  | .publishAnomalyAlert sig call => Engine.publishAnomalyAlert dump poolSize s sig call
  | .publishCandle sig call => Engine.publishCandle dump poolSize s sig call
  | .publishHighAlert sig call => Engine.publishHighAlert dump poolSize s sig call

/-- The producer with its callers, in any order. -/
def producerMachine (H : Type) [DecidableEq H] (dump : Dump K) (poolSize : ℕ) (memory : ℕ → MessageBuffer) :
    Machine (KafkaProducer H) (ProducerAction H K) where
  init := .fresh memory
  step := producerStep dump poolSize

/-- Every slot is free or owned by one live handle, and came to where it is by being acquired and released in
turn. -/
structure Accounted (dump : Dump K) (poolSize : ℕ) (s : KafkaProducer H) (free : List ℕ) (owners : Finset H) : Prop where
  free_list : Chain s.pool.next poolSize s.pool.head free
  owners_iff : ∀ h, h ∈ owners ↔ (s.owned h).isSome
  one_owner : ∀ g h i, s.owned g = some i → s.owned h = some i → g = h
  owned_in_pool : ∀ h i, s.owned h = some i → i < poolSize
  free_iff : ∀ i, i ∈ free ↔ i < poolSize ∧ ∀ h, s.owned h ≠ some i
  /-- Only an owned slot was ever released. -/
  leases : ∃ held, Leases s.pool.log held ∧ ∀ i, i ∈ held ↔ ∃ h, s.owned h = some i
  /-- Each acquire of a slot was answered by one release, but for the one whose handle is alive. -/
  answered : ∀ i, ∃ n out, LeaseEvent.about i s.pool.log = LeaseEvent.turns i n out ∧
    (out = true ↔ ∃ h, s.owned h = some i)
  total : free.length + owners.card = poolSize
  /-- `acquire_buffer` gives an empty handle exactly when no slot is free. -/
  exhausted : ∀ h s', s.acquireBuffer poolSize h = some s' → (s'.owned h = none ↔ free = [])
  /-- No call leaves a handle behind, or changes another. -/
  returned : ∀ (a : ProducerAction H K) s', (∀ op, a ≠ .op op) → producerStep dump poolSize s a = some s' →
    s'.handles = s.handles

variable {dump : Dump K} {poolSize : ℕ} {memory : ℕ → MessageBuffer} {s s' : KafkaProducer H} {call : PublishCall H}

/-- What a call does once it has taken a buffer: it drops it or hands it over. -/
def Ends (call : PublishCall H) (s s' : KafkaProducer H) : Prop :=
  s.destroy call.handle = some s' ∨ ∃ b, handOver s call b = some s'

theorem publishMessage_cases {topic : String} {ticker : Ticker} {body : Option (List UInt8)}
    (step : publishMessage poolSize topic ticker body s call = some s') :
    ∃ s₁, s.acquireBuffer poolSize call.handle = some s₁ ∧ Ends call s₁ s' := by
  obtain ⟨s₁, acquired, step⟩ := Option.bind_eq_some_iff.1 step
  refine ⟨s₁, acquired, ?_⟩
  split at step
  · exact .inl step
  split at step
  · exact .inl step
  split at step
  · exact .inl step
  · exact .inr ⟨_, step⟩

/-- What an action does. Only the callback's own alert can end before it takes a buffer. -/
theorem producerStep_cases {a : ProducerAction H K} (step : producerStep dump poolSize s a = some s') :
    (∃ op, a = .op op ∧ s.apply poolSize op = some s') ∨ s' = s ∨
      ∃ call s₁, s.acquireBuffer poolSize call.handle = some s₁ ∧ Ends call s₁ s' := by
  cases a with
  | op op => exact .inl ⟨op, rfl, step⟩
  | publishScalpingSignal sig call => exact .inr (.inr ⟨call, publishMessage_cases step⟩)
  | publishAnomalyAlert sig call => exact .inr (.inr ⟨call, publishMessage_cases step⟩)
  | publishCandle sig call => exact .inr (.inr ⟨call, publishMessage_cases step⟩)
  | publishHighAlert sig call =>
    simp only [producerStep, Engine.publishHighAlert] at step
    split at step
    · cases step
      exact .inr (.inl rfl)
    · obtain ⟨s₁, acquired, step⟩ := Option.bind_eq_some_iff.1 step
      refine .inr (.inr ⟨call, s₁, acquired, ?_⟩)
      split at step
      · exact .inl step
      · exact .inr ⟨_, step⟩

section Runs

open KafkaProducer (opMachine)

theorem reachable_of_apply (op : KafkaProducer.Op H) (reach : (opMachine H poolSize memory).Reachable s)
    (step : s.apply poolSize op = some s') : (opMachine H poolSize memory).Reachable s' :=
  reach.step step

theorem reachable_of_handOver {b : MessageBuffer} (reach : (opMachine H poolSize memory).Reachable s)
    (step : handOver s call b = some s') : (opMachine H poolSize memory).Reachable s' := by
  obtain ⟨s₁, filled, step⟩ := Option.bind_eq_some_iff.1 step
  obtain ⟨s₂, moved, step⟩ := Option.bind_eq_some_iff.1 step
  obtain ⟨⟨result, s₃⟩, published, step⟩ := Option.bind_eq_some_iff.1 step
  have reach := reachable_of_apply (.fill call.handle b) reach filled
  have reach := reachable_of_apply (.moveConstruct call.param call.handle) reach moved
  have reach := reachable_of_apply (.publish call.param call.ok) reach (Option.map_eq_some_iff.2 ⟨_, published, rfl⟩)
  exact reachable_of_apply (.destroy call.handle) reach step

/-- Every action is a run of operations. -/
theorem reachable_of_step {a : ProducerAction H K} (reach : (opMachine H poolSize memory).Reachable s)
    (step : producerStep dump poolSize s a = some s') : (opMachine H poolSize memory).Reachable s' := by
  rcases producerStep_cases step with ⟨op, rfl, step⟩ | rfl | ⟨call, s₁, acquired, ends⟩
  · exact reachable_of_apply op reach step
  · exact reach
  · have reach := reachable_of_apply (.acquireBuffer call.handle) reach acquired
    rcases ends with dropped | ⟨b, handed⟩
    · exact reachable_of_apply (.destroy call.handle) reach dropped
    · exact reachable_of_handOver reach handed

theorem reachable_ops (reach : (producerMachine H dump poolSize memory).Reachable s) :
    (opMachine H poolSize memory).Reachable s := by
  refine Machine.Reachable.induct (M := producerMachine H dump poolSize memory)
    (I := (opMachine H poolSize memory).Reachable) ⟨[], rfl⟩ ?_ reach
  intro s a s' reach step
  exact reachable_of_step reach step

end Runs

section Handles

open KafkaProducer

/-- The parameter takes over from the local and is gone, and then the local is. -/
theorem handOver_handles {b : MessageBuffer} (step : handOver s call b = some s') :
    s'.handles = Function.update s.handles call.handle none := by
  obtain ⟨s₁, filled, step⟩ := Option.bind_eq_some_iff.1 step
  obtain ⟨s₂, moved, step⟩ := Option.bind_eq_some_iff.1 step
  obtain ⟨⟨result, s₃⟩, published, step⟩ := Option.bind_eq_some_iff.1 step
  obtain ⟨dead, v, alive, eq⟩ := moveConstruct_handles moved
  rw [fill_handles filled] at dead eq
  have other : call.param ≠ call.handle := by
    intro same
    rw [fill_handles filled, ← same, dead] at alive
    cases alive
  rw [destroy_handles step, publish_handles published, eq]
  funext g
  by_cases at_handle : g = call.handle
  · rw [at_handle, Function.update_self, Function.update_self]
  rw [Function.update_of_ne at_handle, Function.update_of_ne at_handle]
  by_cases at_param : g = call.param
  · rw [at_param, Function.update_self]
    exact dead.symm
  · rw [Function.update_of_ne at_param, Function.update_of_ne at_handle, Function.update_of_ne at_param]

/-- After a call every address is as before. -/
theorem producerStep_handles {a : ProducerAction H K} (no_op : ∀ op, a ≠ .op op)
    (step : producerStep dump poolSize s a = some s') : s'.handles = s.handles := by
  rcases producerStep_cases step with ⟨op, eq, -⟩ | rfl | ⟨call, s₁, acquired, ends⟩
  · exact absurd eq (no_op op)
  · rfl
  have gone : s'.handles = Function.update s₁.handles call.handle none := by
    rcases ends with dropped | ⟨b, handed⟩
    · exact destroy_handles dropped
    · exact handOver_handles handed
  obtain ⟨dead, v, eq⟩ := acquireBuffer_handles acquired
  rw [gone, eq, Function.update_idem, ← dead, Function.update_eq_self]

end Handles

/-- What the invariant says in terms of the handles. -/
theorem accounted_of_inv {free held : List ℕ} {owners : Finset H} (inv : KafkaProducer.OwnershipInv poolSize s free held)
    (owners_iff : ∀ h, h ∈ owners ↔ (s.owned h).isSome) (card : owners.card = held.length) :
    Accounted dump poolSize s free owners where
  free_list := inv.chain
  owners_iff := owners_iff
  one_owner := inv.unique
  owned_in_pool h i own := (inv.mem_split i).1 (.inr ((inv.owned_iff i).1 ⟨h, own⟩))
  free_iff i := by
    rw [← inv.mem_split i, ← not_exists, inv.owned_iff i]
    constructor
    · intro mem
      exact ⟨.inl mem, fun out => inv.not_free_of_held out mem⟩
    · rintro ⟨mem, not_out⟩
      exact mem.resolve_right not_out
  leases := ⟨held, inv.leases, fun i => (inv.owned_iff i).symm⟩
  answered i := by
    obtain ⟨n, turns⟩ := inv.leases.alternating i
    refine ⟨n, _, turns, ?_⟩
    rw [decide_eq_true_iff, inv.owned_iff i]
  total := by
    rw [card, ← List.length_append, inv.split.length_eq, List.length_range]
  exhausted h s' step := (inv.acquireBuffer step).1
  returned a s' no_op step := producerStep_handles no_op step

/-- **No buffer is leaked or returned twice**, in any run of operations on handles and of the functions that
publish. -/
theorem accounted_of_reachable (dump : Dump K) (poolSize : ℕ) (memory : ℕ → MessageBuffer) {s : KafkaProducer H}
    (reach : (producerMachine H dump poolSize memory).Reachable s) :
    ∃ free owners, Accounted dump poolSize s free owners := by
  obtain ⟨free, held, inv⟩ := KafkaProducer.OwnershipInv.reachable (reachable_ops reach)
  obtain ⟨owners, owners_iff, card⟩ := inv.exists_owners
  exact ⟨free, owners, accounted_of_inv inv owners_iff card⟩

/-- On a pool of two: both buffers out, a candle dropped, one handle assigned onto the other, a candle published,
an alert whose text throws, and the other buffer published with failure. -/
theorem accounted_of_reachable_two :
    ∃ s : KafkaProducer ℕ, s.produced.map Prod.snd = [true, false] ∧ s.pool.log.length = 8 ∧
      ∃ free owners, Accounted (fun j : Json ℤ => if j.length = 10 then some [1] else none) 2 s free owners := by
  obtain ⟨s, run, found⟩ := (producerMachine ℕ (fun j : Json ℤ => if j.length = 10 then some [1] else none) 2
      fun _ => ⟨[], "", "", Nat.zero_le _⟩).exists_of_any
    [.op (.acquireBuffer 0), .op (.acquireBuffer 1),
      .publishCandle ⟨.swing, "A", 0, 0, .zero, 0⟩ ⟨2, 3, true⟩,
      .op (.moveAssign 0 1),
      .publishCandle ⟨.swing, "A", 0, 0, .zero, 0⟩ ⟨2, 3, true⟩,
      .publishAnomalyAlert ⟨.alertLow, "A", 2, 0, .zero, 0⟩ ⟨2, 3, true⟩,
      .op (.moveAssign 0 0), .op (.moveConstruct 4 0), .op (.publish 4 false), .op (.destroy 0)]
    (fun s => s.produced.map Prod.snd = [true, false] ∧ s.pool.log.length = 8) (by decide)
  obtain ⟨produced, log⟩ := of_decide_eq_true found
  exact ⟨s, produced, log, accounted_of_reachable _ 2 _ ⟨_, run⟩⟩

end Calls

end StockAnomaly.Engine
