import Mathlib.Data.List.Basic
import Mathlib.Logic.Function.Basic
import StockAnomaly.Theory.Machine

/-!
# `EventBus`

Each event type has its own queue, mutex, condition variable, handlers and dispatch thread:
a `Channel`. The two channels share the flag `running_` only. A step of a thread is one
access to the shared state; `cv.wait(lock, pred)` is `while (!pred()) wait(lock)`, where
`wait` enters the wait set and releases the mutex in one step and may return without a
notification. The handlers are those subscribed before the first event.

`ChannelInv` says what each control point of the dispatch thread knows. It gives
**`delivers_in_order`**: what a handler has received is a prefix of what was pushed, and no
event stays in the queue while the dispatch thread sleeps with no notification to come.
-/

namespace StockAnomaly.Events

open StockAnomaly.Theory

/-- The event types of the bus. -/
inductive Kind
  | scalping
  | swing
deriving DecidableEq

/-- Where a dispatch thread stands in `dispatch_loop`. -/
inductive DispatchPc (E : Type)
  /-- At `while (running_)`. -/
  | check
  | locking
  /-- Holds the mutex, about to evaluate the predicate of the wait. -/
  | testing
  /-- The predicate was false; still holds the mutex. -/
  | blocking
  /-- In the wait set. -/
  | blocked
  /-- Out of the wait set, to take the mutex again. -/
  | waking
  /-- Holds the mutex, at `while (!queue.empty())`. -/
  | draining
  /-- Holds the mutex, with the event it popped. -/
  | unlocking (event : E)
  /-- In the loop over the handlers. -/
  | calling (event : E) (handler : ℕ)
  | relocking
  | exited
deriving DecidableEq

/-- Where a thread stands in `publish`. -/
inductive PublisherPc (E : Type)
  | idle
  | locking (event : E)
  | pushing (event : E)
  | unlocking
  | notifying
deriving DecidableEq

inductive Owner (Tid : Type)
  | dispatcher
  | publisher (t : Tid)

/-- The part of the bus for one event type, with `n` handlers. -/
structure Channel (E Tid : Type) (n : ℕ) where
  queue : List E
  mtx : Option (Owner Tid)
  dispatcher : DispatchPc E
  publisher : Tid → PublisherPc E
  /-- The events each handler was called with. -/
  received : Fin n → List E
  /-- All events pushed so far. -/
  pushed : List E
  /-- All events popped so far. -/
  popped : List E

inductive ChannelAction (E Tid : Type)
  /-- A step of the dispatch thread. -/
  | dispatch
  /-- The dispatch thread wakes without a notification. -/
  | spurious
  /-- The thread calls `publish`. -/
  | publish (t : Tid) (event : E)
  /-- The next step of the thread's `publish`. -/
  | publisher (t : Tid)

def DispatchPc.holds {E : Type} : DispatchPc E → Bool
  | .testing | .blocking | .draining | .unlocking _ => true
  | _ => false

def PublisherPc.holds {E : Type} : PublisherPc E → Bool
  | .pushing _ | .unlocking => true
  | _ => false

/-- Its event is in the queue and its notification is still to be sent. -/
def PublisherPc.toNotify {E : Type} : PublisherPc E → Bool
  | .unlocking | .notifying => true
  | _ => false

namespace Channel

variable {E Tid : Type} {n : ℕ}

def start : Channel E Tid n := ⟨[], none, .check, fun _ => .idle, fun _ => [], [], []⟩

/-- `notify_one` and `notify_all`: only the dispatch thread ever waits. -/
def notify (c : Channel E Tid n) : Channel E Tid n :=
  { c with dispatcher := match c.dispatcher with
    | .blocked => .waking
    | pc => pc }

/-- `dispatch_loop`. -/
def dispatchStep (c : Channel E Tid n) (running : Bool) : Option (Channel E Tid n) :=
  match c.dispatcher with
  | .check => some { c with dispatcher := if running then .locking else .exited }
  | .locking => if c.mtx.isNone then some { c with mtx := some .dispatcher, dispatcher := .testing } else none
  | .testing => some { c with dispatcher := if !c.queue.isEmpty || !running then .draining else .blocking }
  | .blocking => some { c with mtx := none, dispatcher := .blocked }
  | .blocked => none
  | .waking => if c.mtx.isNone then some { c with mtx := some .dispatcher, dispatcher := .testing } else none
  | .draining =>
    match c.queue with
    | [] => some { c with mtx := none, dispatcher := .check }
    | event :: rest =>
      some { c with queue := rest, popped := c.popped ++ [event], dispatcher := .unlocking event }
  | .unlocking event => some { c with mtx := none, dispatcher := .calling event 0 }
  | .calling event i =>
    if more : i < n then
      some { c with
        received := Function.update c.received ⟨i, more⟩ (c.received ⟨i, more⟩ ++ [event])
        dispatcher := .calling event (i + 1) }
    else some { c with dispatcher := .relocking }
  | .relocking => if c.mtx.isNone then some { c with mtx := some .dispatcher, dispatcher := .draining } else none
  | .exited => none

variable [DecidableEq Tid]

def goto (c : Channel E Tid n) (t : Tid) (pc : PublisherPc E) : Channel E Tid n :=
  { c with publisher := Function.update c.publisher t pc }

/-- `publish`, after the call. -/
def publisherStep (c : Channel E Tid n) (t : Tid) : Option (Channel E Tid n) :=
  match c.publisher t with
  | .idle => none
  | .locking event =>
    if c.mtx.isNone then some ({ c with mtx := some (.publisher t) }.goto t (.pushing event)) else none
  | .pushing event =>
    some ({ c with queue := c.queue ++ [event], pushed := c.pushed ++ [event] }.goto t .unlocking)
  | .unlocking => some ({ c with mtx := none }.goto t .notifying)
  | .notifying => some (c.notify.goto t .idle)

def step (c : Channel E Tid n) (running : Bool) : ChannelAction E Tid → Option (Channel E Tid n)
  | .dispatch => c.dispatchStep running
  | .spurious =>
    match c.dispatcher with
    | .blocked => some { c with dispatcher := .waking }
    | _ => none
  | .publish t event =>
    match c.publisher t with
    | .idle => some (c.goto t (.locking event))
    | _ => none
  | .publisher t => c.publisherStep t

end Channel

/-- Where the thread that destroys the bus stands. -/
inductive DestructorPc
  | alive
  /-- `running_` is false. -/
  | stored
  /-- `scalping_cv_` was notified. -/
  | notified
  /-- Both were. -/
  | joining (kind : Kind)
  | destroyed
deriving DecidableEq

structure EventBus (E : Kind → Type) (Tid : Type) (n : Kind → ℕ) where
  running : Bool
  channel : (kind : Kind) → Channel (E kind) Tid (n kind)
  destructor : DestructorPc

inductive BusAction (E : Kind → Type) (Tid : Type)
  | channel (kind : Kind) (a : ChannelAction (E kind) Tid)
  | destructor

namespace EventBus

variable {E : Kind → Type} {Tid : Type} {n : Kind → ℕ}

def start : EventBus E Tid n := ⟨true, fun _ => .start, .alive⟩

def setChannel (s : EventBus E Tid n) (kind : Kind) (c : Channel (E kind) Tid (n kind)) :
    EventBus E Tid n :=
  { s with channel := Function.update s.channel kind c }

/-- `t.join()` of the channel's dispatch thread returns. -/
def joined (s : EventBus E Tid n) (kind : Kind) : Bool :=
  match (s.channel kind).dispatcher with
  | .exited => true
  | _ => false

/-- `~EventBus`. -/
def destructorStep (s : EventBus E Tid n) : Option (EventBus E Tid n) :=
  match s.destructor with
  | .alive => some { s with running := false, destructor := .stored }
  | .stored => some { s.setChannel .scalping (s.channel .scalping).notify with destructor := .notified }
  | .notified =>
    some { s.setChannel .swing (s.channel .swing).notify with destructor := .joining .scalping }
  | .joining .scalping => if s.joined .scalping then some { s with destructor := .joining .swing } else none
  | .joining .swing => if s.joined .swing then some { s with destructor := .destroyed } else none
  | .destroyed => none

variable [DecidableEq Tid]

def step (s : EventBus E Tid n) : BusAction E Tid → Option (EventBus E Tid n)
  | .channel kind a => ((s.channel kind).step s.running a).map (s.setChannel kind)
  | .destructor => s.destructorStep

def machine (E : Kind → Type) (Tid : Type) (n : Kind → ℕ) [DecidableEq Tid] :
    Machine (EventBus E Tid n) (BusAction E Tid) where
  init := start
  step := step

end EventBus

namespace Channel

variable {E Tid : Type} {n : ℕ}

/-- How far the event popped last has got. -/
def Delivered (c : Channel E Tid n) : Prop :=
  match c.dispatcher with
  | .unlocking event => ∃ before, c.popped = before ++ [event] ∧ ∀ i, c.received i = before
  | .calling event next => ∃ before, c.popped = before ++ [event] ∧
      ∀ i : Fin n, c.received i = if i < next then c.popped else before
  | _ => ∀ i, c.received i = c.popped

structure ChannelInv (c : Channel E Tid n) : Prop where
  dispatcherHolds : c.mtx = some .dispatcher ↔ c.dispatcher.holds = true
  publisherHolds : ∀ t, c.mtx = some (.publisher t) ↔ (c.publisher t).holds = true
  fifo : c.pushed = c.popped ++ c.queue
  delivered : c.Delivered
  /-- Nobody can push between the test and the wait. -/
  blocking : c.dispatcher = .blocking → c.queue = []
  blocked : c.dispatcher = .blocked → c.queue = [] ∨ ∃ t, (c.publisher t).toNotify = true

theorem ChannelInv.start : ChannelInv (start : Channel E Tid n) := by
  constructor <;> simp [Channel.start, DispatchPc.holds, PublisherPc.holds, Delivered]

/-- A free mutex has no holder. -/
theorem ChannelInv.free {c : Channel E Tid n} (h : ChannelInv c) (free : c.mtx.isNone = true) :
    c.dispatcher.holds = false ∧ ∀ t, (c.publisher t).holds = false := by
  rw [Option.isNone_iff_eq_none] at free
  constructor
  · have := h.dispatcherHolds
    simpa [free] using this
  · intro t
    have := h.publisherHolds t
    simpa [free] using this

/-- While the dispatch thread holds the mutex, no publisher does. -/
theorem ChannelInv.exclusive {c : Channel E Tid n} (h : ChannelInv c) (held : c.dispatcher.holds = true)
    (t : Tid) : (c.publisher t).holds = false := by
  have own := h.dispatcherHolds.2 held
  have := h.publisherHolds t
  simpa [own] using this

/-- A step of the dispatch thread that takes the free mutex. -/
theorem ChannelInv.acquire {c : Channel E Tid n} (h : ChannelInv c) (free : c.mtx.isNone = true)
    {pc : DispatchPc E} (holds : pc.holds = true) (settled : ∀ i, c.received i = c.popped)
    (at_head : pc = .testing ∨ pc = .draining) :
    ChannelInv { c with mtx := some .dispatcher, dispatcher := pc } where
  dispatcherHolds := by simp [holds]
  publisherHolds t := by simp [(h.free free).2 t]
  fifo := h.fifo
  delivered := by rcases at_head with rfl | rfl <;> exact settled
  blocking := by rcases at_head with rfl | rfl <;> exact nofun
  blocked := by rcases at_head with rfl | rfl <;> exact nofun

/-- A step of the dispatch thread that gives the mutex back. -/
theorem ChannelInv.release {c : Channel E Tid n} (h : ChannelInv c) (held : c.dispatcher.holds = true)
    {pc : DispatchPc E} (free : pc.holds = false)
    (delivered : Delivered { c with mtx := none, dispatcher := pc }) (awake : pc ≠ .blocking)
    (blocked : pc = .blocked → c.queue = []) :
    ChannelInv { c with mtx := none, dispatcher := pc } where
  dispatcherHolds := by simp [free]
  publisherHolds t := by simp [h.exclusive held t]
  fifo := h.fifo
  delivered := delivered
  blocking sleeping := absurd sleeping awake
  blocked sleeping := .inl (blocked sleeping)

/-- A step of the dispatch thread that leaves the mutex as it is. -/
theorem ChannelInv.move {c : Channel E Tid n} (h : ChannelInv c) {pc : DispatchPc E}
    (same : pc.holds = c.dispatcher.holds) (delivered : Delivered { c with dispatcher := pc })
    (blocking : pc = .blocking → c.queue = []) (awake : pc ≠ .blocked) :
    ChannelInv { c with dispatcher := pc } where
  dispatcherHolds := by
    rw [same]
    exact h.dispatcherHolds
  publisherHolds := h.publisherHolds
  fifo := h.fifo
  delivered := delivered
  blocking := blocking
  blocked sleeping := absurd sleeping awake

/-- One more handler was called with the event popped last. -/
theorem Delivered.call {c : Channel E Tid n} {event : E} {next : ℕ} (h : c.Delivered)
    (pc : c.dispatcher = .calling event next) (more : next < n) :
    Delivered { c with
      received := Function.update c.received ⟨next, more⟩ (c.received ⟨next, more⟩ ++ [event])
      dispatcher := .calling event (next + 1) } := by
  simp only [Delivered, pc] at h
  obtain ⟨before, popped, received⟩ := h
  refine ⟨before, popped, ?_⟩
  intro i
  simp only [received]
  rcases Nat.lt_trichotomy i next with called | now | later
  · have other : i ≠ ⟨next, more⟩ := fun same => by simp [same] at called
    rw [Function.update_of_ne other, received, if_pos called, if_pos (by omega)]
  · obtain rfl : i = ⟨next, more⟩ := Fin.ext now
    simp [popped]
  · have other : i ≠ ⟨next, more⟩ := fun same => by simp [same] at later
    rw [Function.update_of_ne other, received, if_neg (by omega), if_neg (by omega)]

/-- Every step of the dispatch thread keeps the invariant. -/
theorem ChannelInv.dispatch {c c' : Channel E Tid n} {running : Bool} (h : ChannelInv c)
    (step : c.dispatchStep running = some c') : ChannelInv c' := by
  have delivered := h.delivered
  cases pc : c.dispatcher with
  | check =>
    simp only [dispatchStep, pc, Option.some.injEq] at step
    subst step
    simp only [Delivered, pc] at delivered
    cases running with
    | true => exact h.move (by rw [pc]; rfl) delivered nofun nofun
    | false => exact h.move (by rw [pc]; rfl) delivered nofun nofun
  | locking =>
    simp only [dispatchStep, pc, Option.ite_none_right_eq_some, Option.some.injEq] at step
    obtain ⟨free, rfl⟩ := step
    simp only [Delivered, pc] at delivered
    exact h.acquire free rfl delivered (.inl rfl)
  | testing =>
    simp only [dispatchStep, pc, Option.some.injEq] at step
    subst step
    simp only [Delivered, pc] at delivered
    split
    case isTrue => exact h.move (by rw [pc]; rfl) delivered nofun nofun
    case isFalse failed =>
      have empty : c.queue = [] := by
        simp at failed
        exact failed.1
      exact h.move (by rw [pc]; rfl) delivered (fun _ => empty) nofun
  | blocking =>
    simp only [dispatchStep, pc, Option.some.injEq] at step
    subst step
    simp only [Delivered, pc] at delivered
    exact h.release (by rw [pc]; rfl) rfl delivered nofun fun _ => h.blocking pc
  | blocked => simp [dispatchStep, pc] at step
  | waking =>
    simp only [dispatchStep, pc, Option.ite_none_right_eq_some, Option.some.injEq] at step
    obtain ⟨free, rfl⟩ := step
    simp only [Delivered, pc] at delivered
    exact h.acquire free rfl delivered (.inl rfl)
  | draining =>
    have held : c.dispatcher.holds = true := by rw [pc]; rfl
    have fifo := h.fifo
    simp only [dispatchStep, pc] at step
    simp only [Delivered, pc] at delivered
    split at step
    case h_1 empty =>
      cases step
      exact h.release held rfl delivered nofun nofun
    case h_2 event rest more =>
      cases step
      constructor
      case dispatcherHolds => simp [h.dispatcherHolds.2 held, DispatchPc.holds]
      case publisherHolds => exact h.publisherHolds
      case fifo => simpa [more] using fifo
      case delivered => exact ⟨c.popped, rfl, delivered⟩
      case blocking => exact nofun
      case blocked => exact nofun
  | unlocking event =>
    simp only [dispatchStep, pc, Option.some.injEq] at step
    subst step
    simp only [Delivered, pc] at delivered
    obtain ⟨before, popped, received⟩ := delivered
    refine h.release (by rw [pc]; rfl) rfl ⟨before, popped, ?_⟩ nofun nofun
    intro i
    rw [if_neg (Nat.not_lt_zero _)]
    exact received i
  | calling event next =>
    simp only [dispatchStep, pc] at step
    split at step
    case isTrue more =>
      cases step
      constructor
      case dispatcherHolds => simpa [pc, DispatchPc.holds] using h.dispatcherHolds
      case publisherHolds => exact h.publisherHolds
      case fifo => exact h.fifo
      case delivered => exact delivered.call pc more
      case blocking => exact nofun
      case blocked => exact nofun
    case isFalse done =>
      cases step
      simp only [Delivered, pc] at delivered
      obtain ⟨before, popped, received⟩ := delivered
      refine h.move (by rw [pc]; rfl) ?_ nofun nofun
      -- every handler has been called
      intro i
      rw [received, if_pos (by omega)]
  | relocking =>
    simp only [dispatchStep, pc, Option.ite_none_right_eq_some, Option.some.injEq] at step
    obtain ⟨free, rfl⟩ := step
    simp only [Delivered, pc] at delivered
    exact h.acquire free rfl delivered (.inr rfl)
  | exited => simp [dispatchStep, pc] at step

/-- A notification leaves everything but the wait set. -/
theorem ChannelInv.notify {c : Channel E Tid n} (h : ChannelInv c) : ChannelInv c.notify := by
  have delivered := h.delivered
  rw [Channel.notify]
  split
  case h_1 pc =>
    simp only [Delivered, pc] at delivered
    exact h.move (by rw [pc]; rfl) delivered nofun nofun
  case h_2 => exact h

/-- A notified dispatch thread is not in the wait set. -/
theorem notify_not_blocked (c : Channel E Tid n) : c.notify.dispatcher ≠ .blocked := by
  rw [Channel.notify]
  split
  case h_1 => exact nofun
  case h_2 awake => exact awake

/-- The mutex has at most one publisher. -/
theorem ChannelInv.sole {c : Channel E Tid n} (h : ChannelInv c) {t u : Tid}
    (held : (c.publisher t).holds = true) (other : u ≠ t) : (c.publisher u).holds = false := by
  have own := (h.publisherHolds t).2 held
  have := h.publisherHolds u
  simpa [own, other.symm] using this

/-- While a publisher holds the mutex, the dispatch thread does not. -/
theorem ChannelInv.outside {c : Channel E Tid n} (h : ChannelInv c) {t : Tid}
    (held : (c.publisher t).holds = true) : c.dispatcher.holds = false := by
  have own := (h.publisherHolds t).2 held
  have := h.dispatcherHolds
  simpa [own] using this

section Publishers

variable [DecidableEq Tid]

/-- A thread moves on in `publish`. A sleeping dispatch thread loses no notification if the
thread had none to send, or has one now. -/
theorem ChannelInv.advance {c : Channel E Tid n} (h : ChannelInv c) {t : Tid} {pc : PublisherPc E}
    {mtx : Option (Owner Tid)} {queue pushed : List E}
    (own : mtx = some (.publisher t) ↔ pc.holds = true)
    (others : ∀ u, u ≠ t → (mtx = some (.publisher u) ↔ (c.publisher u).holds = true))
    (dispatcher : mtx = some .dispatcher ↔ c.dispatcher.holds = true)
    (fifo : pushed = c.popped ++ queue) (blocking : c.dispatcher = .blocking → queue = [])
    (blocked : c.dispatcher = .blocked →
      queue = c.queue ∧ (c.publisher t).toNotify = false ∨ pc.toNotify = true) :
    ChannelInv ({ c with mtx := mtx, queue := queue, pushed := pushed }.goto t pc) where
  dispatcherHolds := dispatcher
  publisherHolds u := by
    by_cases same : u = t
    · subst same
      simpa [goto] using own
    · simpa [goto, same] using others u same
  fifo := fifo
  delivered := h.delivered
  blocking := blocking
  blocked sleeping := by
    obtain ⟨rfl, none⟩ | pending := blocked sleeping
    · refine (h.blocked sleeping).imp_right ?_
      rintro ⟨u, pending⟩
      have other : u ≠ t := by
        rintro rfl
        rw [none] at pending
        cases pending
      exact ⟨u, by simp [goto, other, pending]⟩
    · exact .inr ⟨t, by simp [goto, pending]⟩

/-- The thread calls `publish`. -/
theorem ChannelInv.publish {c : Channel E Tid n} {t : Tid} (h : ChannelInv c) (event : E)
    (idle : c.publisher t = .idle) : ChannelInv (c.goto t (.locking event)) := by
  refine h.advance ?_ (fun u _ => h.publisherHolds u) h.dispatcherHolds h.fifo h.blocking ?_
  · rw [h.publisherHolds t, idle]
    rfl
  · intro _
    rw [idle]
    exact .inl ⟨rfl, rfl⟩

/-- Every step of `publish` keeps the invariant. -/
theorem ChannelInv.publisher {c c' : Channel E Tid n} {t : Tid} (h : ChannelInv c)
    (step : c.publisherStep t = some c') : ChannelInv c' := by
  cases pc : c.publisher t with
  | idle => simp [publisherStep, pc] at step
  | locking event =>
    simp only [publisherStep, pc, Option.ite_none_right_eq_some, Option.some.injEq] at step
    obtain ⟨free, rfl⟩ := step
    obtain ⟨dispatcher_free, publishers_free⟩ := h.free free
    refine h.advance ?_ ?_ ?_ h.fifo h.blocking ?_
    · simp [PublisherPc.holds]
    · intro u other
      simp [publishers_free u, other.symm]
    · simp [dispatcher_free]
    · intro _
      rw [pc]
      exact .inl ⟨rfl, rfl⟩
  | pushing event =>
    simp only [publisherStep, pc, Option.some.injEq] at step
    subst step
    have held : (c.publisher t).holds = true := by rw [pc]; rfl
    refine h.advance ?_ (fun u _ => h.publisherHolds u) h.dispatcherHolds ?_ ?_ ?_
    · rw [h.publisherHolds t, pc]
      rfl
    · rw [h.fifo, List.append_assoc]
    · intro blocking
      have outside := h.outside held
      rw [blocking] at outside
      cases outside
    · exact fun _ => .inr rfl
  | unlocking =>
    simp only [publisherStep, pc, Option.some.injEq] at step
    subst step
    have held : (c.publisher t).holds = true := by rw [pc]; rfl
    refine h.advance ?_ ?_ ?_ h.fifo h.blocking ?_
    · simp [PublisherPc.holds]
    · intro u other
      simp [h.sole held other]
    · simp [h.outside held]
    · exact fun _ => .inr rfl
  | notifying =>
    simp only [publisherStep, pc, Option.some.injEq] at step
    subst step
    have notified := h.notify
    have same : c.notify.publisher t = .notifying := pc
    refine notified.advance ?_ (fun u _ => notified.publisherHolds u) notified.dispatcherHolds notified.fifo
      notified.blocking ?_
    · have own := notified.publisherHolds t
      rw [same] at own
      exact own
    · exact fun sleeping => absurd sleeping (notify_not_blocked c)

/-- **Every step of a channel keeps the invariant**, whatever `running_` is. -/
theorem ChannelInv.step {c c' : Channel E Tid n} {running : Bool} {a : ChannelAction E Tid}
    (h : ChannelInv c) (step : c.step running a = some c') : ChannelInv c' := by
  cases a with
  | dispatch => exact h.dispatch step
  | spurious =>
    simp only [Channel.step] at step
    split at step
    case h_1 pc =>
      cases step
      have delivered := h.delivered
      simp only [Delivered, pc] at delivered
      exact h.move (by rw [pc]; rfl) delivered nofun nofun
    case h_2 => cases step
  | publish t event =>
    simp only [Channel.step] at step
    split at step
    case h_1 idle =>
      cases step
      exact h.publish event idle
    case h_2 => cases step
  | publisher t => exact h.publisher step

/-- Only the loop over the queue pops. -/
theorem popped_step {c c' : Channel E Tid n} {running : Bool} {a : ChannelAction E Tid}
    (step : c.step running a = some c') : c'.popped = c.popped ∨ c.dispatcher = .draining := by
  cases a with
  | dispatch =>
    cases pc : c.dispatcher with
    | draining => exact .inr rfl
    | _ => grind [Channel.step, dispatchStep]
  | spurious => grind [Channel.step]
  | publish t event => grind [Channel.step, goto]
  | publisher t => grind [Channel.step, publisherStep, goto, Channel.notify]

/-- An event is popped only when every handler has got the ones before it. -/
theorem ChannelInv.settled_of_pop {c c' : Channel E Tid n} {running : Bool} {a : ChannelAction E Tid}
    {event : E} (h : ChannelInv c) (step : c.step running a = some c')
    (pop : c'.popped = c.popped ++ [event]) (i : Fin n) : c.received i = c.popped := by
  obtain same | draining := popped_step step
  · simp [same] at pop
  · have delivered := h.delivered
    simp only [Delivered, draining] at delivered
    exact delivered i

omit [DecidableEq Tid] in
/-- What a handler has received is what was popped, perhaps without the event popped last. -/
theorem ChannelInv.received_prefix {c : Channel E Tid n} (h : ChannelInv c) (i : Fin n) :
    c.received i <+: c.pushed := by
  have to_popped : c.received i <+: c.popped := by
    have delivered := h.delivered
    simp only [Delivered] at delivered
    split at delivered
    case h_1 =>
      obtain ⟨before, popped, received⟩ := delivered
      rw [received, popped]
      exact List.prefix_append before _
    case h_2 =>
      obtain ⟨before, popped, received⟩ := delivered
      rw [received]
      split
      · exact List.prefix_rfl
      · rw [popped]
        exact List.prefix_append before _
    case h_3 => exact delivered i ▸ List.prefix_rfl
  rw [h.fifo]
  exact to_popped.trans (List.prefix_append _ _)

end Publishers

end Channel

namespace EventBus

variable {E : Kind → Type} {Tid : Type} {n : Kind → ℕ} [DecidableEq Tid] {s s' : EventBus E Tid n}

omit [DecidableEq Tid] in
@[simp] theorem setChannel_self (kind : Kind) (c : Channel (E kind) Tid (n kind)) :
    (s.setChannel kind c).channel kind = c := Function.update_self ..

omit [DecidableEq Tid] in
theorem setChannel_other {kind other : Kind} (ne : other ≠ kind) (c : Channel (E kind) Tid (n kind)) :
    (s.setChannel kind c).channel other = s.channel other := Function.update_of_ne ne ..

omit [DecidableEq Tid] in
/-- All the destructor does to a channel is to notify it. -/
theorem destructorStep_channel (step : s.destructorStep = some s') (kind : Kind) :
    s'.channel kind = (s.channel kind).notify ∨ s'.channel kind = s.channel kind := by
  have notify (other : Kind) : (s.setChannel other (s.channel other).notify).channel kind =
      (s.channel kind).notify ∨
      (s.setChannel other (s.channel other).notify).channel kind = s.channel kind := by
    by_cases same : kind = other
    · subst same
      exact .inl (setChannel_self ..)
    · exact .inr (setChannel_other same _)
  rw [destructorStep] at step
  split at step
  case h_1 => cases step; exact .inr rfl
  case h_2 => cases step; exact notify .scalping
  case h_3 => cases step; exact notify .swing
  case h_4 => obtain ⟨-, same⟩ := Option.ite_none_right_eq_some.1 step; cases same; exact .inr rfl
  case h_5 => obtain ⟨-, same⟩ := Option.ite_none_right_eq_some.1 step; cases same; exact .inr rfl
  case h_6 => cases step

/-- A step of the bus is a step of one channel, a notification to it, or leaves it. -/
theorem channel_step {a : BusAction E Tid} (step : s.step a = some s') (kind : Kind) :
    (∃ b, (s.channel kind).step s.running b = some (s'.channel kind)) ∨
      s'.channel kind = (s.channel kind).notify ∨ s'.channel kind = s.channel kind := by
  cases a with
  | channel other b =>
    obtain ⟨c, moved, rfl⟩ := Option.map_eq_some_iff.1 step
    by_cases same : kind = other
    · subst same
      refine .inl ⟨b, ?_⟩
      rw [setChannel_self, moved]
    · exact .inr (.inr (setChannel_other same c))
  | destructor => exact .inr (destructorStep_channel step kind)

/-- **What each channel's control points know**, in every state of the bus. -/
theorem channelInv (reach : (machine E Tid n).Reachable s) (kind : Kind) : (s.channel kind).ChannelInv := by
  refine reach.induct (I := fun s => (s.channel kind).ChannelInv) .start ?_
  intro s a s' inv step
  obtain ⟨b, step⟩ | notified | same := channel_step step kind
  · exact inv.step step
  · rw [notified]
    exact inv.notify
  · rw [same]
    exact inv

/-- **Events are delivered once and in order, and none is slept through**, while the bus runs
and after. -/
theorem delivers_in_order (reach : (machine E Tid n).Reachable s) (kind : Kind) :
    (∀ i, (s.channel kind).received i <+: (s.channel kind).pushed) ∧
    (∀ a s' event, s.step a = some s' →
      (s'.channel kind).popped = (s.channel kind).popped ++ [event] →
      ∀ i, (s.channel kind).received i = (s.channel kind).popped) ∧
    ¬ ((s.channel kind).queue ≠ [] ∧ (s.channel kind).dispatcher = .blocked ∧
      ∀ t, ((s.channel kind).publisher t).toNotify = false) := by
  have inv := channelInv reach kind
  refine ⟨inv.received_prefix, ?_, ?_⟩
  · intro a s' event step pop
    obtain ⟨b, step⟩ | notified | same := channel_step step kind
    · exact inv.settled_of_pop step pop
    · simp [notified, Channel.notify] at pop
    · simp [same] at pop
  · rintro ⟨waiting, asleep, none⟩
    obtain empty | ⟨t, pending⟩ := inv.blocked asleep
    · exact waiting empty
    · rw [none t] at pending
      cases pending

/-- An event that is pushed while the dispatch thread sleeps, and reaches the handler. -/
theorem delivers_in_order_once :
    ∃ s, (machine (fun _ => ℕ) Unit (fun _ => 1)).Reachable s ∧ (s.channel .scalping).received 0 = [7] ∧
      (s.channel .scalping).received 0 <+: (s.channel .scalping).pushed := by
  obtain ⟨s, run, got⟩ := Machine.exists_of_any (M := machine (fun _ => ℕ) Unit (fun _ => 1))
    ([.dispatch, .dispatch, .dispatch, .dispatch, .publish () 7, .publisher (), .publisher (),
      .publisher (), .publisher (), .dispatch, .dispatch, .dispatch, .dispatch, .dispatch].map
        (.channel .scalping))
    (fun s => (s.channel .scalping).received 0 = [7]) (by decide)
  exact ⟨s, ⟨_, run⟩, of_decide_eq_true got, (delivers_in_order ⟨_, run⟩ .scalping).1 0⟩

end EventBus

end StockAnomaly.Events
