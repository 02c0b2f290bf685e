import Mathlib.Data.Option.Basic
import StockAnomaly.Core.ObjectPool
import StockAnomaly.Theory.Lease

/-!
# Pool handles and the producer's buffers

`MessageBuffer` of `message_pool.hpp`, `PoolHandle` of `object_pool.hpp`, and the part of `KafkaProducer`
that takes buffers from the pool and gives them back. `acquire` and `release` are one step each here:
`acquire_uninterrupted` and `release_uninterrupted` are the runs of `ObjectPool` that they stand for. A handle
is an object at an address, alive from its construction to its destruction; a pointer is its `slot_index`.
-/

namespace StockAnomaly.Core

open Theory

/-- 4 KB per message buffer. -/
def kPayloadCapacity : ℕ := 4096

/-- `payload` is the part up to `payload_size`, and `key` up to `key_size`: nothing reads the rest. -/
structure MessageBuffer where
  payload : List UInt8
  topic : String
  key : String
  fits : payload.length ≤ kPayloadCapacity

namespace MessageBuffer

def reset (b : MessageBuffer) : MessageBuffer where
  payload := []
  topic := b.topic
  key := ""
  fits := Nat.zero_le _

/-- None is the answer `false`: too long, and nothing is written. -/
def write (b : MessageBuffer) (data : List UInt8) : Option MessageBuffer :=
  if fits : data.length ≤ kPayloadCapacity then some ⟨data, b.topic, b.key, fits⟩ else none

/-- The two `strncpy` and `key_size = strlen(ticker)`: a topic name and a `char ticker[12]` fit. -/
def address (b : MessageBuffer) (topic ticker : String) : MessageBuffer :=
  { b with topic := topic, key := ticker }

end MessageBuffer

/-- `head_`, `free_list_[i].next` and `slots_`. The ghost `log` is the successful calls of `acquire` and
the calls of `release`. -/
structure MessagePool where
  head : ℕ
  next : ℕ → ℕ
  slots : ℕ → MessageBuffer
  log : List (LeaseEvent ℕ)

namespace MessagePool

/-- The constructor; `memory` is what the slots contain before. -/
def fresh (memory : ℕ → MessageBuffer) : MessagePool where
  head := 0
  next i := i + 1
  slots := memory
  log := []

def acquire (poolSize : ℕ) (p : MessagePool) : Option (ℕ × MessagePool) :=
  if p.head = poolSize then none
  else some (p.head, { p with head := p.next p.head, log := p.log ++ [.acquired p.head] })

def release (p : MessagePool) (ptr : ℕ) : MessagePool :=
  { p with
    next := Function.update p.next ptr p.head
    head := ptr
    log := p.log ++ [.released ptr] }

/-- Writing to the buffer at `ptr`. -/
def store (p : MessagePool) (ptr : ℕ) (b : MessageBuffer) : MessagePool :=
  { p with slots := Function.update p.slots ptr b }

end MessagePool

/-- `pool_`, of which there is one, so only whether it is set, and `ptr_`. -/
structure PoolHandle where
  pool : Bool
  ptr : Option ℕ

/-- `PoolHandle() = default`. -/
def PoolHandle.empty : PoolHandle := ⟨false, none⟩

/-- A producer's pool, and the handle objects of its callers by address. `produced` is the buffers handed
to the broker library with its answers. -/
structure KafkaProducer (H : Type) where
  pool : MessagePool
  handles : H → Option PoolHandle
  produced : List (MessageBuffer × Bool)

namespace KafkaProducer

variable {H : Type} [DecidableEq H]

omit [DecidableEq H] in
def fresh (memory : ℕ → MessageBuffer) : KafkaProducer H where
  pool := .fresh memory
  handles _ := none
  produced := []

/-- The slot that the handle at an address owns. -/
def owned (s : KafkaProducer H) (h : H) : Option ℕ := (s.handles h).bind PoolHandle.ptr

/-- `*handle`. -/
def buffer (s : KafkaProducer H) (h : H) : Option MessageBuffer := (s.owned h).map s.pool.slots

/-- What is at an address from now on. -/
def put (s : KafkaProducer H) (h : H) (v : Option PoolHandle) : KafkaProducer H :=
  { s with handles := Function.update s.handles h v }

/-- `PoolHandle() = default`. -/
def construct (s : KafkaProducer H) (h : H) : Option (KafkaProducer H) :=
  match s.handles h with
  | none => some (s.put h (some .empty))
  | some _ => none

/-- `acquire_buffer`, with its result built at `h`. -/
def acquireBuffer (poolSize : ℕ) (s : KafkaProducer H) (h : H) : Option (KafkaProducer H) :=
  match s.handles h with
  | none =>
    match s.pool.acquire poolSize with
    | none => some (s.put h (some .empty))
    | some (buf, pool) =>
      some { s.put h (some ⟨true, some buf⟩) with pool := pool.store buf (pool.slots buf).reset }
  | some _ => none

/-- The caller writes to its buffer; a null pointer is not followed. -/
def fill (s : KafkaProducer H) (h : H) (b : MessageBuffer) : Option (KafkaProducer H) :=
  (s.owned h).map fun ptr => { s with pool := s.pool.store ptr b }

def reset (s : KafkaProducer H) (h : H) : Option (KafkaProducer H) :=
  match s.handles h with
  | some ⟨true, some ptr⟩ => some { s.put h (some .empty) with pool := s.pool.release ptr }
  | some _ => some s
  | none => none

/-- `PoolHandle h(std::move(other))`. -/
def moveConstruct (s : KafkaProducer H) (h other : H) : Option (KafkaProducer H) :=
  match s.handles h, s.handles other with
  | none, some v => some ((s.put h (some v)).put other (some .empty))
  | _, _ => none

/-- `h = std::move(other)`. -/
def moveAssign (s : KafkaProducer H) (h other : H) : Option (KafkaProducer H) :=
  if h = other then (s.handles h).map fun _ => s
  else do
    let s ← s.reset h
    let v ← s.handles other
    some ((s.put h (some v)).put other (some .empty))

/-- `~PoolHandle()`. -/
def destroy (s : KafkaProducer H) (h : H) : Option (KafkaProducer H) :=
  (s.reset h).map fun s => s.put h none

/-- `publish`, its parameter being the handle at `h`, which goes out of scope at the end; `ok` is the answer
of `produce`. -/
def publish (s : KafkaProducer H) (h : H) (ok : Bool) : Option (Bool × KafkaProducer H) :=
  match s.buffer h with
  | none => (s.destroy h).map fun s => (false, s)
  | some b => (({ s with produced := s.produced ++ [(b, ok)] } : KafkaProducer H).destroy h).map fun s => (ok, s)

/-- The operations on handles. -/
inductive Op (H : Type)
  | construct (h : H)
  | acquireBuffer (h : H)
  | fill (h : H) (b : MessageBuffer)
  | moveConstruct (h other : H)
  | moveAssign (h other : H)
  | reset (h : H)
  | destroy (h : H)
  | publish (h : H) (ok : Bool)

def apply (poolSize : ℕ) (s : KafkaProducer H) : Op H → Option (KafkaProducer H)
  | .construct h => s.construct h
  | .acquireBuffer h => s.acquireBuffer poolSize h
  | .fill h b => s.fill h b
  | .moveConstruct h other => s.moveConstruct h other
  | .moveAssign h other => s.moveAssign h other
  | .reset h => s.reset h
  | .destroy h => s.destroy h
  | .publish h ok => (s.publish h ok).map Prod.snd

/-- A producer of which anything may be asked that its callers' handles allow. -/
def opMachine (H : Type) [DecidableEq H] (poolSize : ℕ) (memory : ℕ → MessageBuffer) :
    Machine (KafkaProducer H) (Op H) where
  init := fresh memory
  step := apply poolSize

end KafkaProducer

namespace MessagePool

variable {p p' : MessagePool} {poolSize ptr : ℕ}

theorem acquire_eq_none_iff : p.acquire poolSize = none ↔ p.head = poolSize := by
  unfold acquire
  split <;> simp_all

theorem acquire_eq_some (h : p.acquire poolSize = some (ptr, p')) :
    p.head = ptr ∧ ptr ≠ poolSize ∧ p' = { p with head := p.next ptr, log := p.log ++ [.acquired ptr] } := by
  unfold acquire at h
  split at h
  · cases h
  · cases h
    exact ⟨rfl, ‹_›, rfl⟩

end MessagePool

namespace ObjectPool

variable {Tid : Type} [DecidableEq Tid] {poolSize ptr : ℕ} {s : ObjectPool Tid} {p p' : MessagePool} {t : Tid}

/-- A failing `acquire` is its load of `head_`. -/
theorem acquire_uninterrupted_none (idle : s.pc t = .idle) (head : p.head = s.head)
    (acquire : p.acquire poolSize = none) : step poolSize s (.acquire t) = some (s.goto t .idle) := by
  have null : s.head = poolSize := head.symm.trans (MessagePool.acquire_eq_none_iff.1 acquire)
  simp [step, idle, acquireLoop, null]

/-- A successful `acquire` is its run without interruption and spurious failure. -/
theorem acquire_uninterrupted (idle : s.pc t = .idle) (head : p.head = s.head) (next : p.next = s.next)
    (acquire : p.acquire poolSize = some (ptr, p')) :
    ∃ s', (machine Tid poolSize).runFrom s [.acquire t, .loadNext t, .casAcquire t false] = some s' ∧
      s'.head = p'.head ∧ s'.next = p'.next ∧ s'.held = (t, ptr) :: s.held := by
  obtain ⟨rfl, ne, rfl⟩ := MessagePool.acquire_eq_some acquire
  rw [head] at ne
  refine ⟨{ s with
    head := s.next s.head
    held := (t, s.head) :: s.held
    pc := Function.update s.pc t .idle }, ?_, ?_⟩
  · simp [Machine.runFrom, machine, step, idle, acquireLoop, ne, goto]
  · exact ⟨by rw [head, next], next.symm, by rw [head]⟩

theorem release_uninterrupted (idle : s.pc t = .idle) (held : (t, ptr) ∈ s.held) (head : p.head = s.head)
    (next : p.next = s.next) :
    ∃ s', (machine Tid poolSize).runFrom s [.release t ptr, .storeNext t, .casRelease t false] = some s' ∧
      s'.head = (p.release ptr).head ∧ s'.next = (p.release ptr).next ∧ s'.held = s.held.erase (t, ptr) := by
  refine ⟨{ s with
    head := ptr
    next := Function.update s.next ptr s.head
    held := s.held.erase (t, ptr)
    pc := Function.update s.pc t .idle }, ?_, rfl, ?_, rfl⟩
  · simp [Machine.runFrom, machine, step, idle, held, goto]
  · simp only [MessagePool.release, head, next]

end ObjectPool

end StockAnomaly.Core
