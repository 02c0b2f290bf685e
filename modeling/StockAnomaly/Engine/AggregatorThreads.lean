import StockAnomaly.Aggregation.TickerIsolation
import StockAnomaly.Core.MpscFifo
import StockAnomaly.Engine.Wiring

/-!
# `TickAggregator` and its threads

`push_tick` may be called by any number of threads. It pushes the tick into the queue, one
atomic step at a time, and then updates the ticker's candles under the mutex of its state.
The drain thread loads `running_`, pops and handles until `stop` clears the flag.
Whatever the interleaving, the drain thread does what the plain loop does on a prefix of the
accepted ticks: **`drains_of_reachable`**.

The aggregator is started once, as `main` does it; a `start` after `stop`, which would run
another drain loop with fresh statistics, is not modelled.
-/

namespace StockAnomaly.Engine

open StockAnomaly.Theory StockAnomaly.Core StockAnomaly.Aggregation

instance instInhabitedTick {K : Type*} [Zero K] : Inhabited (Tick K) := ⟨⟨"", 0, 0, 0⟩⟩

/-- Where a caller stands inside `push_tick`. -/
inductive PushTickPc (K : Type)
  | outside
  /-- Inside `scalping_queue_.push(tick)`. -/
  | queueing (tick : Tick K)
  /-- At `get_or_create_state`. -/
  | looking (tick : Tick K)
  /-- At the mutex of the ticker's state. -/
  | locking (tick : Tick K)
  /-- Under that mutex, with `rest` still to be handed to `on_signal_`. -/
  | emitting (ticker : Ticker) (rest : List (AggregatorSignal K))

/-- Where the drain thread stands in `scalping_drain_loop`. -/
inductive DrainPc (K : Type)
  | unstarted
  /-- At the load of `running_`. -/
  | testing
  /-- Inside `scalping_queue_.pop()`. -/
  | popping
  | handling (tick : Tick K)
  | exited

/-- The tick that has left the queue and is not handled yet. -/
def DrainPc.inHand {K : Type} : DrainPc K → List (Tick K)
  | .handling tick => [tick]
  | _ => []

/-- The members of the aggregator, the threads, and the record of what they did: the ticks
the loop handled, the ticks whose update took the mutex, and the signals of the two paths. -/
structure TickAggregator (Tid K : Type) where
  queue : MpscQueue Tid (Tick K)
  running : Bool
  thread : DrainPc K
  stats : Scalping.Stats K
  swingPath : SwingPath K
  mutex : Ticker → Option Tid
  caller : Tid → PushTickPc K
  handled : List (Tick K)
  scalpingSignals : List (AggregatorSignal K)
  updates : List (Tick K)
  swingSignals : List (AggregatorSignal K)

/-- A step of `push` after its first load. -/
inductive PushStep
  | loadSequence
  | casEnqueue (spurious : Bool)
  | writeData
  | publish
  | reloadPos

def PushStep.by {Tid T : Type} (t : Tid) : PushStep → MpscAction Tid T
  | .loadSequence => .loadSequence t
  | .casEnqueue spurious => .casEnqueue t spurious
  | .writeData => .writeData t
  | .publish => .publish t
  | .reloadPos => .reloadPos t

/-- A step of `pop`. -/
inductive PopStep
  | pop
  | loadSequence
  | moveData
  | storeSequence
  | storeDequeue

def PopStep.act {Tid T : Type} : PopStep → MpscAction Tid T
  | .pop => .pop
  | .loadSequence => .popLoadSequence
  | .moveData => .moveData
  | .storeSequence => .storeSequence
  | .storeDequeue => .storeDequeue

inductive AggregatorAction (Tid K : Type)
  | start
  | stop
  /-- A call of `push_tick`. -/
  | pushTick (t : Tid) (tick : Tick K)
  | pushStep (t : Tid) (a : PushStep)
  | getState (t : Tid)
  | lock (t : Tid)
  | emit (t : Tid)
  | unlock (t : Tid)
  /-- The drain thread loads `running_`. -/
  | testRunning
  | popStep (a : PopStep)
  | handle

namespace TickAggregator

variable {Tid K : Type} [DecidableEq Tid]

def setCaller (s : TickAggregator Tid K) (t : Tid) (pc : PushTickPc K) : TickAggregator Tid K :=
  { s with caller := Function.update s.caller t pc }

/-- Where a step of `push` leaves its caller. -/
def afterPush (queue : MpscQueue Tid (Tick K)) (t : Tid) (tick : Tick K) : PushTickPc K :=
  match queue.producer t with
  | .idle => .looking tick
  | _ => .queueing tick

/-- What the answer of `get_or_create_state` means for its caller: without a state the tick
is dropped. -/
def afterLook (tick : Tick K) : Option (SwingTickerState K) → PushTickPc K
  | none => .outside
  | some _ => .locking tick

/-- Where a step of `pop` leaves the drain thread: at its next test when the queue was
empty, with a tick when it was not. -/
def afterPop (before after : PopPc (Tick K)) : DrainPc K :=
  match before, after with
  | .released _ tick, .idle => .handling tick
  | _, .idle => .testing
  | _, _ => .popping

section Definitions

variable [Field K] [LinearOrder K] [Sqrt K]

def init : TickAggregator Tid K where
  queue := MpscQueue.fresh
  running := false
  thread := .unstarted
  stats := Scalping.Stats.zero
  swingPath := SwingPath.zero
  mutex _ := none
  caller _ := .outside
  handled := []
  scalpingSignals := []
  updates := []
  swingSignals := []

/-- The body of the loop for a popped tick. -/
def handleTick (s : TickAggregator Tid K) (tick : Tick K) : TickAggregator Tid K :=
  { s with
    thread := .testing
    stats := (Scalping.drainTick s.stats tick).1
    handled := s.handled ++ [tick]
    scalpingSignals := s.scalpingSignals ++ (Scalping.drainTick s.stats tick).2.toList }

omit [Sqrt K] in
/-- `update_swing_state` from its `lock_guard` on, up to the callbacks. -/
def takeLock (s : TickAggregator Tid K) (t : Tid) (tick : Tick K) (state : SwingTickerState K) :
    TickAggregator Tid K :=
  { s with
    swingPath.registry := Function.update s.swingPath.registry tick.ticker (some (state.update tick).1)
    mutex := Function.update s.mutex tick.ticker (some t)
    caller := Function.update s.caller t (.emitting tick.ticker ((state.update tick).2.map emitSwingCandle))
    updates := s.updates ++ [tick] }

def step (s : TickAggregator Tid K) : AggregatorAction Tid K → Option (TickAggregator Tid K)
  | .start =>
    match s.thread with
    | .unstarted => some { s with running := true, thread := .testing }
    | _ => none
  | .stop => some { s with running := false }
  | .pushTick t tick =>
    match s.caller t with
    | .outside =>
      (MpscQueue.step kQueueCapacity s.queue (.push t tick)).map fun queue =>
        { s.setCaller t (.queueing tick) with queue }
    | _ => none
  | .pushStep t a =>
    match s.caller t with
    | .queueing tick =>
      (MpscQueue.step kQueueCapacity s.queue (a.by t)).map fun queue =>
        { s.setCaller t (afterPush queue t tick) with queue }
    | _ => none
  | .getState t =>
    match s.caller t with
    | .looking tick =>
      let (state, swingPath) := s.swingPath.getOrCreateState tick.ticker
      some { s.setCaller t (afterLook tick state) with swingPath }
    | _ => none
  | .lock t =>
    match s.caller t with
    | .locking tick =>
      match s.mutex tick.ticker, s.swingPath.registry tick.ticker with
      | none, some state => some (s.takeLock t tick state)
      | _, _ => none
    | _ => none
  | .emit t =>
    match s.caller t with
    | .emitting ticker (sig :: rest) =>
      some { s.setCaller t (.emitting ticker rest) with swingSignals := s.swingSignals ++ [sig] }
    | _ => none
  | .unlock t =>
    match s.caller t with
    | .emitting ticker [] =>
      some { s.setCaller t .outside with mutex := Function.update s.mutex ticker none }
    | _ => none
  | .testRunning =>
    match s.thread with
    | .testing => some { s with thread := if s.running then .popping else .exited }
    | _ => none
  | .popStep a =>
    match s.thread with
    | .popping =>
      (MpscQueue.step kQueueCapacity s.queue a.act).map fun queue =>
        { s with queue, thread := afterPop s.queue.consumer queue.consumer }
    | _ => none
  | .handle =>
    match s.thread with
    | .handling tick => some (s.handleTick tick)
    | _ => none

/-- The aggregator as a machine: any callers, its drain thread, any interleaving. -/
def machine (Tid K : Type) [DecidableEq Tid] [Field K] [LinearOrder K] [Sqrt K] :
    Machine (TickAggregator Tid K) (AggregatorAction Tid K) where
  init := init
  step := step

/-- The steps of the aggregator, one constructor for each branch of `step`. -/
inductive Step (s : TickAggregator Tid K) : AggregatorAction Tid K → TickAggregator Tid K → Prop
  | start (unstarted : s.thread = .unstarted) : Step s .start { s with running := true, thread := .testing }
  | stop : Step s .stop { s with running := false }
  | pushTick {t : Tid} {tick : Tick K} {queue : MpscQueue Tid (Tick K)} (outside : s.caller t = .outside)
      (taken : MpscQueue.step kQueueCapacity s.queue (.push t tick) = some queue) :
      Step s (.pushTick t tick) { s.setCaller t (.queueing tick) with queue }
  | pushStep {t : Tid} {a : PushStep} {tick : Tick K} {queue : MpscQueue Tid (Tick K)}
      (inside : s.caller t = .queueing tick)
      (taken : MpscQueue.step kQueueCapacity s.queue (a.by t) = some queue) :
      Step s (.pushStep t a) { s.setCaller t (afterPush queue t tick) with queue }
  | getState {t : Tid} {tick : Tick K} (inside : s.caller t = .looking tick) :
      Step s (.getState t) { s.setCaller t (afterLook tick (s.swingPath.getOrCreateState tick.ticker).1) with
        swingPath := (s.swingPath.getOrCreateState tick.ticker).2 }
  | lock {t : Tid} {tick : Tick K} {state : SwingTickerState K} (inside : s.caller t = .locking tick)
      (free : s.mutex tick.ticker = none) (found : s.swingPath.registry tick.ticker = some state) :
      Step s (.lock t) (s.takeLock t tick state)
  | emit {t : Tid} {ticker : Ticker} {sig : AggregatorSignal K} {rest : List (AggregatorSignal K)}
      (inside : s.caller t = .emitting ticker (sig :: rest)) :
      Step s (.emit t) { s.setCaller t (.emitting ticker rest) with swingSignals := s.swingSignals ++ [sig] }
  | unlock {t : Tid} {ticker : Ticker} (inside : s.caller t = .emitting ticker []) :
      Step s (.unlock t) { s.setCaller t .outside with mutex := Function.update s.mutex ticker none }
  | testRunning (testing : s.thread = .testing) :
      Step s .testRunning { s with thread := if s.running then .popping else .exited }
  | popStep {a : PopStep} {queue : MpscQueue Tid (Tick K)} (popping : s.thread = .popping)
      (taken : MpscQueue.step kQueueCapacity s.queue a.act = some queue) :
      Step s (.popStep a) { s with queue, thread := afterPop s.queue.consumer queue.consumer }
  | handle {tick : Tick K} (handling : s.thread = .handling tick) : Step s .handle (s.handleTick tick)

/-- **All that one step of the aggregator can do.** -/
theorem step_cases {s s' : TickAggregator Tid K} {a : AggregatorAction Tid K}
    (taken : (machine Tid K).step s a = some s') : Step s a s' := by
  cases a with
  | stop =>
    cases taken
    exact .stop
  | pushTick t tick =>
    simp only [machine, step] at taken
    split at taken
    · obtain ⟨queue, stepped, rfl⟩ := Option.map_eq_some_iff.1 taken
      exact .pushTick ‹_› stepped
    · cases taken
  | pushStep t a =>
    simp only [machine, step] at taken
    split at taken
    · obtain ⟨queue, stepped, rfl⟩ := Option.map_eq_some_iff.1 taken
      exact .pushStep ‹_› stepped
    · cases taken
  | popStep a =>
    simp only [machine, step] at taken
    split at taken
    · obtain ⟨queue, stepped, rfl⟩ := Option.map_eq_some_iff.1 taken
      exact .popStep ‹_› stepped
    · cases taken
  | getState t =>
    simp only [machine, step] at taken
    split at taken <;> cases taken
    exact .getState ‹_›
  | lock t =>
    simp only [machine, step] at taken
    split at taken
    · split at taken <;> cases taken
      exact .lock ‹_› ‹_› ‹_›
    · cases taken
  | start =>
    simp only [machine, step] at taken
    split at taken <;> cases taken
    exact .start ‹_›
  | emit t =>
    simp only [machine, step] at taken
    split at taken <;> cases taken
    exact .emit ‹_›
  | unlock t =>
    simp only [machine, step] at taken
    split at taken <;> cases taken
    exact .unlock ‹_›
  | testRunning =>
    simp only [machine, step] at taken
    split at taken <;> cases taken
    exact .testRunning ‹_›
  | handle =>
    simp only [machine, step] at taken
    split at taken <;> cases taken
    exact .handle ‹_›

end Definitions

section Queue

variable {q q' : MpscQueue Tid (Tick K)} {capacity : ℕ}

/-- A caller's step leaves the consumer's side alone. -/
theorem push_frame {t : Tid} {tick : Tick K} (taken : MpscQueue.step capacity q (.push t tick) = some q') :
    q'.consumer = q.consumer ∧ q'.popped = q.popped := by
  simp only [MpscQueue.step] at taken
  split at taken <;> cases taken
  exact ⟨rfl, rfl⟩

theorem pushStep_frame {t : Tid} {a : PushStep} (taken : MpscQueue.step capacity q (a.by t) = some q') :
    q'.consumer = q.consumer ∧ q'.popped = q.popped := by
  have same (r : List (MpscReturn Tid (Tick K))) (u : Tid) (data : Tick K) (ok : Bool)
      (eq : q'.returns = r ++ [.push u data ok]) (before : r = q.returns) : q'.popped = q.popped := by
    rw [MpscQueue.popped, eq, before, List.filterMap_append, MpscQueue.popped]
    exact List.append_nil _
  cases a with
  | loadSequence =>
    simp only [PushStep.by, MpscQueue.step] at taken
    split at taken
    · split_ifs at taken <;> cases taken
      · exact ⟨rfl, rfl⟩
      · exact ⟨rfl, same _ _ _ _ rfl rfl⟩
      · exact ⟨rfl, rfl⟩
    · cases taken
  | casEnqueue spurious =>
    simp only [PushStep.by, MpscQueue.step] at taken
    split at taken
    · split_ifs at taken <;> cases taken <;> exact ⟨rfl, rfl⟩
    · cases taken
  | publish =>
    simp only [PushStep.by, MpscQueue.step] at taken
    split at taken <;> cases taken
    exact ⟨rfl, same _ _ _ _ rfl rfl⟩
  | writeData | reloadPos =>
    simp only [PushStep.by, MpscQueue.step] at taken
    split at taken <;> cases taken
    exact ⟨rfl, rfl⟩

/-- **What the drain thread holds after a step of `pop` is what `pop` has returned**, and
`pop` is over unless it is still inside. -/
theorem popStep_spec {a : PopStep} (taken : MpscQueue.step capacity q a.act = some q') :
    q'.popped = q.popped ++ (afterPop q.consumer q'.consumer).inHand ∧
      (afterPop q.consumer q'.consumer ≠ .popping → q'.consumer = .idle) := by
  cases a with
  | loadSequence =>
    simp only [PopStep.act, MpscQueue.step] at taken
    split at taken
    · rename_i pos point
      split_ifs at taken <;> cases taken
      · refine ⟨?_, fun _ => rfl⟩
        rw [point, MpscQueue.popped, MpscQueue.returned, List.filterMap_append]
        rfl
      · simp [MpscQueue.gotoPop, point, afterPop, DrainPc.inHand, MpscQueue.popped]
    · cases taken
  | storeDequeue =>
    simp only [PopStep.act, MpscQueue.step] at taken
    split at taken
    · rename_i pos item point
      cases taken
      simp [MpscQueue.advance, point, afterPop, DrainPc.inHand, MpscQueue.popped]
    · cases taken
  | pop | moveData | storeSequence =>
    simp only [PopStep.act, MpscQueue.step] at taken
    split at taken
    · rename_i point
      cases taken
      simp [MpscQueue.gotoPop, MpscQueue.giveBack, point, afterPop, DrainPc.inHand, MpscQueue.popped]
    · cases taken

end Queue

section Scalping

variable [Field K] [LinearOrder K] [Sqrt K] {s s' : TickAggregator Tid K}

/-- The queue is one of the queue's own runs, and the loop has done what the plain loop
does on the ticks it has handled. -/
structure DrainInv (s : TickAggregator Tid K) : Prop where
  queue : (MpscQueue.machine Tid (Tick K) kQueueCapacity).Reachable s.queue
  consumer : s.thread ≠ .popping → s.queue.consumer = .idle
  popped : s.queue.popped = s.handled ++ s.thread.inHand
  signals : (s.stats, s.scalpingSignals) = Scalping.drain s.handled

omit [DecidableEq Tid] in
theorem drain_snoc (ticks : List (Tick K)) (tick : Tick K) :
    Scalping.drain (ticks ++ [tick]) =
      ((Scalping.drainTick (Scalping.drain ticks).1 tick).1,
        (Scalping.drain ticks).2 ++ (Scalping.drainTick (Scalping.drain ticks).1 tick).2.toList) := by
  rw [Scalping.drain, List.foldl_append]
  rfl

theorem DrainInv.init : DrainInv (TickAggregator.init : TickAggregator Tid K) where
  queue := ⟨[], rfl⟩
  consumer _ := rfl
  popped := rfl
  signals := rfl

/-- A step of a caller inside the queue. -/
theorem DrainInv.callerQueue (h : DrainInv s) {a : MpscAction Tid (Tick K)} {queue : MpscQueue Tid (Tick K)}
    (taken : MpscQueue.step kQueueCapacity s.queue a = some queue)
    (frame : queue.consumer = s.queue.consumer ∧ queue.popped = s.queue.popped) (t : Tid) (pc : PushTickPc K) :
    DrainInv { s.setCaller t pc with queue } where
  queue := h.queue.step taken
  consumer idle := frame.1.trans (h.consumer idle)
  popped := frame.2.trans h.popped
  signals := h.signals

/-- A step that leaves the queue and the loop's record alone, and the drain thread where no
tick is in its hand and none was. -/
theorem DrainInv.thread (h : DrainInv s) {thread : DrainPc K} (before : s.thread.inHand = [])
    (after : thread.inHand = []) (idle : s.thread ≠ .popping) (running : Bool) :
    DrainInv { s with thread, running } where
  queue := h.queue
  consumer _ := h.consumer idle
  popped := by
    rw [h.popped, before, after]
  signals := h.signals

theorem DrainInv.step (h : DrainInv s) {a : AggregatorAction Tid K}
    (taken : (machine Tid K).step s a = some s') : DrainInv s' := by
  cases step_cases taken with
  | pushTick outside stepped => exact h.callerQueue stepped (push_frame stepped) _ _
  | pushStep inside stepped => exact h.callerQueue stepped (pushStep_frame stepped) _ _
  | start unstarted => exact h.thread (by rw [unstarted]; rfl) rfl (by rw [unstarted]; nofun) true
  | testRunning testing =>
    refine h.thread (by rw [testing]; rfl) ?_ (by rw [testing]; nofun) s.running
    cases s.running <;> rfl
  | @popStep a queue popping stepped =>
    obtain ⟨popped, ended⟩ := popStep_spec stepped
    refine ⟨h.queue.step stepped, ended, ?_, h.signals⟩
    have before := h.popped
    rw [popping] at before
    rw [popped, before]
    exact congrArg (· ++ _) (List.append_nil _)
  | @handle tick handling =>
    have popped := h.popped
    have stats : s.stats = (Scalping.drain s.handled).1 := congrArg Prod.fst h.signals
    have signals : s.scalpingSignals = (Scalping.drain s.handled).2 := congrArg Prod.snd h.signals
    rw [handling] at popped
    refine ⟨h.queue, fun _ => h.consumer (by rw [handling]; nofun), ?_, ?_⟩
    · rw [handleTick, popped]
      exact (List.append_nil _).symm
    · simp only [handleTick, drain_snoc, stats, signals]
  | stop | getState | lock | emit | unlock => exact ⟨h.queue, h.consumer, h.popped, h.signals⟩

theorem drainInv_of_reachable (reach : (machine Tid K).Reachable s) : DrainInv s :=
  reach.induct DrainInv.init fun _ _ _ inv taken => inv.step taken

/-- The scalping path's contract in a state of a run. -/
structure Drains (s : TickAggregator Tid K) : Prop where
  /-- The statistics and the signals are those of the plain loop over the ticks handled. -/
  signals : (s.stats, s.scalpingSignals) = Scalping.drain s.handled
  /-- The ticks the queue accepted, in its order, are handled, in hand or waiting; besides a
  full queue at most the one that `pop` is about to return waits. -/
  accepted : ∃ waiting, s.queue.claimed.map Prod.snd = s.handled ++ s.thread.inHand ++ waiting ∧
    waiting.length ≤ kQueueCapacity + 1
  /-- The accepted ticks of a caller are those it pushed, in its order, and the one in hand. -/
  order : ∀ t, (s.queue.claimed.filter (·.1 = t)).map Prod.snd =
    s.queue.pushed t ++ (s.queue.producer t).pending
  /-- A tick is refused only while as many wait as the queue holds. -/
  refused : ∀ a s' t tick, (machine Tid K).step s a = some s' →
    s'.queue.returns = s.queue.returns ++ [.push t tick false] →
      s.handled.length + s.thread.inHand.length + kQueueCapacity ≤ s.queue.claimed.length

theorem kQueueCapacity_eq : kQueueCapacity = 2 ^ 16 := by norm_num [kQueueCapacity]

theorem DrainInv.mpscInv (h : DrainInv s) : MpscQueue.MpscInv kQueueCapacity s.queue := by
  have reach := h.queue
  rw [kQueueCapacity_eq] at reach ⊢
  exact MpscQueue.MpscInv.reachable (by omega) reach

theorem DrainInv.linearFifo (h : DrainInv s) : MpscQueue.LinearFifo kQueueCapacity s.queue := by
  have inv := h.mpscInv
  rw [kQueueCapacity_eq] at inv ⊢
  exact inv.linearFifo (Nat.two_pow_pos 16) (MpscQueue.slotOf_two_pow 16)

/-- What changes the queue is a step of the queue. -/
theorem queue_step {a : AggregatorAction Tid K}
    (taken : (machine Tid K).step s a = some s') :
    s'.queue = s.queue ∨ ∃ b, MpscQueue.step kQueueCapacity s.queue b = some s'.queue := by
  cases step_cases taken with
  | pushTick outside stepped => exact .inr ⟨_, stepped⟩
  | pushStep inside stepped => exact .inr ⟨_, stepped⟩
  | popStep popping stepped => exact .inr ⟨_, stepped⟩
  | _ => exact .inl rfl

theorem DrainInv.drains (h : DrainInv s) : Drains s where
  signals := h.signals
  accepted := by
    have inv := h.mpscInv
    obtain ⟨waiting, split⟩ := h.linearFifo.popped
    refine ⟨waiting, by rw [← split, h.popped], ?_⟩
    have total := congrArg List.length split
    rw [List.length_append, List.length_map, inv.popped_length] at total
    have claims := inv.claims
    have high := inv.high
    rcases MpscQueue.released_cases s.queue with eq | ⟨_, _, _, eq⟩ <;> omega
  order := h.linearFifo.pushed
  refused := by
    intro a s' t tick taken returns
    rcases queue_step taken with same | ⟨b, stepped⟩
    · rw [same] at returns
      have := congrArg List.length returns
      simp at this
    · obtain ⟨-, full⟩ := h.linearFifo.full b _ t tick stepped returns
      have popped := congrArg List.length h.popped
      rw [h.mpscInv.popped_length, List.length_append] at popped
      rcases MpscQueue.released_cases s.queue with eq | ⟨_, _, _, eq⟩ <;> omega

/-- What the drain thread leaves behind when it exits stays as it is. -/
theorem exited_step {a : AggregatorAction Tid K} (exited : s.thread = .exited)
    (taken : (machine Tid K).step s a = some s') :
    s'.thread = .exited ∧ s'.handled = s.handled ∧ s'.scalpingSignals = s.scalpingSignals := by
  cases step_cases taken with
  | start unstarted => cases exited.symm.trans unstarted
  | testRunning testing => cases exited.symm.trans testing
  | popStep popping => cases exited.symm.trans popping
  | handle handling => cases exited.symm.trans handling
  | _ => exact ⟨exited, rfl, rfl⟩

theorem exited_run {acts : List (AggregatorAction Tid K)} (exited : s.thread = .exited)
    (run : (machine Tid K).runFrom s acts = some s') :
    s'.handled = s.handled ∧ s'.scalpingSignals = s.scalpingSignals := by
  induction acts generalizing s with
  | nil =>
    cases run
    exact ⟨rfl, rfl⟩
  | cons a acts ih =>
    obtain ⟨next, taken, rest⟩ := Option.bind_eq_some_iff.1 run
    obtain ⟨still, handled, signals⟩ := exited_step exited taken
    obtain ⟨handled', signals'⟩ := ih still rest
    exact ⟨handled'.trans handled, signals'.trans signals⟩

/-- **The threads of the scalping path refine the plain loop**: in every interleaving of any
callers, the drain thread and `stop`, the loop has handled the first ticks that the queue
accepted, each whole and once, and has emitted what the plain loop emits on them. After it
has left the loop the ticks still waiting are never handled. -/
theorem drains_of_reachable (reach : (machine Tid K).Reachable s) :
    Drains s ∧ (s.thread = .exited → ∀ acts s', (machine Tid K).runFrom s acts = some s' →
      s'.handled = s.handled ∧ s'.scalpingSignals = s.scalpingSignals) :=
  ⟨(drainInv_of_reachable reach).drains, fun exited _ _ run => exited_run exited run⟩

/-- Two callers push a tick each; the loop handles the one that claimed its slot first and
exits with the other in the queue. -/
theorem drains_of_reachable_two :
    ∃ s : TickAggregator ℕ ℚ, s.handled = [⟨"B", 2, 1, 0⟩] ∧ s.queue.claimed.length = 2 ∧ Drains s ∧
      ∀ acts s', (machine ℕ ℚ).runFrom s acts = some s' →
        s'.handled = s.handled ∧ s'.scalpingSignals = s.scalpingSignals := by
  obtain ⟨s, run, found⟩ := (machine ℕ ℚ).exists_of_any
    [.start, .pushTick 0 ⟨"A", 1, 1, 0⟩, .pushTick 1 ⟨"B", 2, 1, 0⟩, .pushStep 1 .loadSequence,
      .pushStep 1 (.casEnqueue false), .pushStep 0 .loadSequence, .pushStep 1 .writeData, .pushStep 1 .publish,
      .pushStep 0 (.casEnqueue false), .pushStep 0 .loadSequence, .pushStep 0 (.casEnqueue false),
      .testRunning, .popStep .pop, .popStep .loadSequence, .popStep .moveData, .popStep .storeSequence,
      .popStep .storeDequeue, .getState 1, .lock 1, .stop, .handle, .testRunning]
    (fun s => s.handled = [⟨"B", 2, 1, 0⟩] ∧ s.queue.claimed.length = 2 ∧
      (match s.thread with | .exited => true | _ => false) = true) (by decide +kernel)
  obtain ⟨handled, claimed, exited⟩ := of_decide_eq_true found
  obtain ⟨drains, kept⟩ := drains_of_reachable ⟨_, run⟩
  refine ⟨s, handled, claimed, drains, kept ?_⟩
  cases at_end : s.thread <;> simp [at_end] at exited ⊢

end Scalping

end TickAggregator

end StockAnomaly.Engine
