import StockAnomaly.Engine.StoredBars

/-!
# Candles across restarts of the engine

A process of the engine starts with no candle and with the offset that its consumer group
committed last. When it stops, the candles in progress go with it: nothing emits them. So a
process publishes, for each ticker, the candles of all windows in which it has handled ticks
but the last one, made of *its* ticks: `published_of_run`. If every process leaves the offset
it has reached, no window is published twice (**`published_once`**), and every window in which
no process stops is published whole (**`whole_of_run`**). A process that dies with offsets not
yet committed has its last windows published again.

A candle counts as published when the swing path hands it to the callback; `publish_candle` then
drops it if the pool of messages is exhausted. The times of the ticks are non-negative, as those
of the market are.
-/

namespace StockAnomaly.Engine

open StockAnomaly.Theory StockAnomaly.Aggregation StockAnomaly.ApiServer

variable {K : Type*}

/-- A running engine: the swing path, the ticks it has handled, and the one `poll_loop` has
got from the broker library and not handled yet. -/
structure EngineProcess (K : Type*) where
  swingPath : SwingPath K
  handled : List (Tick K)
  inHand : Option (Tick K)

/-- The consumer group `trading-engine-market` on its partition, and what the processes have done. -/
structure Restarts (K : Type*) where
  process : Option (EngineProcess K)
  /-- The offset of the next tick. -/
  position : ℕ
  committed : ℕ
  /-- What the swing path has given to the callback. -/
  published : List (AggregatorSignal K)
  /-- The ticks that each process of the past has handled. -/
  past : List (List (Tick K))

inductive RestartAction
  | start
  /-- `consume` returns the next tick, which is also what makes its offset one to commit. -/
  | poll
  | handle
  /-- The consumer commits on its own, every second. -/
  | commit
  /-- `stop()` lets `poll_loop` end and commits as it closes the consumer; a crash does neither. -/
  | exit (stopped : Bool)

namespace Restarts

section Machine

variable [AddCommGroup K] [LinearOrder K]

def step (ticks : List (Tick K)) (s : Restarts K) : RestartAction → Option (Restarts K)
  | .start =>
    if s.process.isNone then some { s with process := some ⟨SwingPath.zero, [], none⟩, position := s.committed }
    else none
  | .poll =>
    s.process.bind fun process =>
      if process.inHand.isNone then
        ticks[s.position]?.map fun tick =>
          { s with process := some { process with inHand := some tick }, position := s.position + 1 }
      else none
  | .handle =>
    s.process.bind fun process => process.inHand.map fun tick =>
      { s with
        process := some ⟨(process.swingPath.updateSwingState tick).1, process.handled ++ [tick], none⟩
        published := s.published ++ (process.swingPath.updateSwingState tick).2 }
  | .commit => s.process.map fun _ => { s with committed := s.position }
  | .exit stopped =>
    s.process.bind fun process =>
      if stopped && process.inHand.isSome then none
      else some { s with
        process := none
        committed := if stopped then s.position else s.committed
        past := s.past ++ [process.handled] }

/-- The group has committed `first`; without an offset it would start at the end. -/
def machine (ticks : List (Tick K)) (first : ℕ) : Machine (Restarts K) RestartAction where
  init := ⟨none, first, first, [], []⟩
  step := step ticks

end Machine

/-- The ticks that each process has handled, the running one last. -/
def handled (s : Restarts K) : List (List (Tick K)) := s.past ++ (s.process.map EngineProcess.handled).toList

/-- The candles of a window that signals hold for a ticker. -/
def candlesOf (w : Window) (ticker : Ticker) (signals : List (AggregatorSignal K)) : List (Candle K) :=
  emittedCandles w (signals.filter (·.ticker = ticker))

def ticksOf (ticker : Ticker) (handled : List (Tick K)) : List (Tick K) := handled.filter (·.ticker = ticker)

/-- The windows of a ticker's ticks. -/
def windowsOf (w : Window) (ticker : Ticker) (handled : List (Tick K)) : List ℤ :=
  Flux.windows (windowMs w.minutes) ((ticksOf ticker handled).map Tick.timestampMs)

/-- The windows that a process closes for a ticker: all in which it has ticks but the last one,
if the ticker got a state. -/
def closedWindows (w : Window) (ticker : Ticker) (handled : List (Tick K)) : List ℤ :=
  if ticker ∈ SwingPath.admittedTickers handled then (windowsOf w ticker handled).dropLast else []

/-- The tick that the running process has in hand. -/
def inHand (s : Restarts K) : Option (Tick K) := s.process.bind EngineProcess.inHand

/-- A crash finds all that was consumed handled and committed. -/
def Committed (s : Restarts K) : RestartAction → Prop
  | .exit stopped => stopped = false → s.committed = s.position ∧ s.inHand = none
  | _ => True

variable [AddCommGroup K] [LinearOrder K] {ticks : List (Tick K)} {first : ℕ} {s s' : Restarts K} {a : RestartAction}
  {w : Window} {ticker : Ticker}

/-- The steps, one constructor for each branch of `step`. -/
inductive Step (ticks : List (Tick K)) (s : Restarts K) : RestartAction → Restarts K → Prop
  | start (idle : s.process = none) :
      Step ticks s .start { s with process := some ⟨SwingPath.zero, [], none⟩, position := s.committed }
  | poll {process : EngineProcess K} {tick : Tick K} (running : s.process = some process)
      (free : process.inHand = none) (next : ticks[s.position]? = some tick) :
      Step ticks s .poll
        { s with process := some { process with inHand := some tick }, position := s.position + 1 }
  | handle {process : EngineProcess K} {tick : Tick K} (running : s.process = some process)
      (hand : process.inHand = some tick) :
      Step ticks s .handle { s with
        process := some ⟨(process.swingPath.updateSwingState tick).1, process.handled ++ [tick], none⟩
        published := s.published ++ (process.swingPath.updateSwingState tick).2 }
  | commit {process : EngineProcess K} (running : s.process = some process) :
      Step ticks s .commit { s with committed := s.position }
  | exit {process : EngineProcess K} {stopped : Bool} (running : s.process = some process)
      (free : stopped = true → process.inHand = none) :
      Step ticks s (.exit stopped) { s with
        process := none
        committed := if stopped then s.position else s.committed
        past := s.past ++ [process.handled] }

theorem step_cases (taken : (machine ticks first).step s a = some s') : Step ticks s a s' := by
  cases a with
  | start =>
    obtain ⟨idle, moved⟩ := Option.ite_none_right_eq_some.1 taken
    cases moved
    exact .start (Option.isNone_iff_eq_none.1 idle)
  | poll =>
    obtain ⟨process, running, polled⟩ := Option.bind_eq_some_iff.1 taken
    obtain ⟨free, moved⟩ := Option.ite_none_right_eq_some.1 polled
    obtain ⟨tick, next, rfl⟩ := Option.map_eq_some_iff.1 moved
    exact .poll running (Option.isNone_iff_eq_none.1 free) next
  | handle =>
    obtain ⟨process, running, handled⟩ := Option.bind_eq_some_iff.1 taken
    obtain ⟨tick, hand, rfl⟩ := Option.map_eq_some_iff.1 handled
    exact .handle running hand
  | commit =>
    obtain ⟨process, running, rfl⟩ := Option.map_eq_some_iff.1 taken
    exact .commit running
  | exit stopped =>
    obtain ⟨process, running, left⟩ := Option.bind_eq_some_iff.1 taken
    obtain ⟨ends, moved⟩ := Option.ite_none_left_eq_some.1 left
    cases moved
    refine .exit running ?_
    rintro rfl
    simpa using ends

omit [AddCommGroup K] [LinearOrder K] in
theorem handled_of_idle (idle : s.process = none) : s.handled = s.past := by
  rw [handled, idle]
  exact List.append_nil _

omit [AddCommGroup K] [LinearOrder K] in
theorem handled_of_running {process : EngineProcess K} (running : s.process = some process) :
    s.handled = s.past ++ [process.handled] := by
  rw [handled, running]
  rfl

omit [AddCommGroup K] [LinearOrder K] in
theorem inHand_of_running {process : EngineProcess K} (running : s.process = some process) :
    s.inHand = process.inHand := by
  rw [inHand, running]
  rfl

/-! ## What a process has handled -/

structure Inv (ticks : List (Tick K)) (s : Restarts K) : Prop where
  path : ∀ process ∈ s.process, process.swingPath = (SwingPath.run process.handled).1
  published : s.published = s.handled.flatMap fun handled => (SwingPath.run handled).2
  running : ∀ process ∈ s.process, process.handled ++ process.inHand.toList <:+ ticks.take s.position
  past : ∀ handled ∈ s.past, handled <:+: ticks

theorem Inv.init : Inv ticks (machine ticks first).init where
  path _ running := absurd running (Option.not_mem_none _)
  published := rfl
  running _ running := absurd running (Option.not_mem_none _)
  past _ mem := absurd mem List.not_mem_nil

/-- The running process handles a stretch of the topic. -/
theorem Inv.running_infix (h : Inv ticks s) {process : EngineProcess K} (running : process ∈ s.process) :
    process.handled <:+: ticks :=
  (List.prefix_append ..).isInfix.trans ((h.running process running).isInfix.trans (List.take_prefix ..).isInfix)

theorem Inv.step (h : Inv ticks s) (step : (machine ticks first).step s a = some s') : Inv ticks s' := by
  have published := h.published
  cases step_cases step with
  | start idle =>
    rw [handled_of_idle idle] at published
    refine ⟨?_, ?_, ?_, h.past⟩
    · intro process running
      cases running
      rfl
    · rw [handled_of_running rfl, List.flatMap_append, ← published]
      exact (List.append_nil _).symm
    · intro process running
      cases running
      exact List.nil_suffix
  | @poll process tick running free next =>
    rw [handled_of_running running] at published
    refine ⟨?_, published, ?_, h.past⟩
    · intro process' running'
      cases running'
      exact h.path process running
    · intro process' running'
      cases running'
      show process.handled ++ [tick] <:+ ticks.take (s.position + 1)
      have suffix := h.running process running
      rw [free, Option.toList_none, List.append_nil] at suffix
      obtain ⟨before, same⟩ := suffix
      rw [List.take_add_one, next]
      exact ⟨before, by rw [← List.append_assoc, same]; rfl⟩
  | @handle process tick running hand =>
    have path := h.path process running
    rw [handled_of_running running, List.flatMap_append, List.flatMap_singleton] at published
    refine ⟨?_, ?_, ?_, h.past⟩
    · intro process' running'
      cases running'
      rw [SwingPath.run_snoc, ← path]
    · rw [handled_of_running rfl, List.flatMap_append, List.flatMap_singleton, SwingPath.run_snoc,
        ← List.append_assoc, ← published, path]
    · intro process' running'
      cases running'
      have suffix := h.running process running
      rw [hand] at suffix
      rw [Option.toList_none, List.append_nil]
      exact suffix
  | commit running => exact ⟨h.path, published, h.running, h.past⟩
  | @exit process stopped running free =>
    rw [handled_of_running running] at published
    refine ⟨fun _ running => absurd running (Option.not_mem_none _), ?_,
      fun _ running => absurd running (Option.not_mem_none _), ?_⟩
    · rw [handled_of_idle rfl]
      exact published
    · intro handled mem
      rcases List.mem_append.1 mem with old | last
      · exact h.past handled old
      · rw [List.mem_singleton.1 last]
        exact h.running_infix running

theorem inv_of_reachable (reach : (machine ticks first).Reachable s) : Inv ticks s :=
  reach.induct .init fun _ _ _ inv step => inv.step step

/-- Every process handles a stretch of the topic. -/
theorem Inv.infix (h : Inv ticks s) {handled : List (Tick K)} (mem : handled ∈ s.handled) : handled <:+: ticks := by
  rcases List.mem_append.1 mem with old | last
  · exact h.past handled old
  · obtain ⟨process, running, rfl⟩ := Option.map_eq_some_iff.1 (Option.mem_toList.1 last)
    exact h.running_infix running

/-! ## Process by process -/

theorem forall₂_dropLast {α β : Type*} {R : α → β → Prop} {as : List α} {bs : List β}
    (related : List.Forall₂ R as bs) : List.Forall₂ R as.dropLast bs.dropLast := by
  rw [List.dropLast_eq_take, List.dropLast_eq_take, related.length_eq]
  exact List.forall₂_take _ related

theorem progress_of_admitted {handled : List (Tick K)} (early : ticker ∈ SwingPath.admittedTickers handled) :
    ∃ c, candleInProgress w (SwingPath.run handled).1 ticker = [c] := by
  cases state : (SwingPath.run handled).1.registry ticker with
  | none => exact absurd early (((SwingPath.tells handled).absent ticker).1 state)
  | some state' => exact ⟨state'.candle w, by rw [candleInProgress, state]; rfl⟩

/-- What a process emits for a ticker. -/
theorem candlesOf_run {handled : List (Tick K)}
    (sorted : (ticksOf ticker handled).Pairwise fun a b => a.timestampMs ≤ b.timestampMs)
    (nonneg : ∀ t ∈ ticksOf ticker handled, 0 ≤ t.timestampMs) :
    List.Forall₂ (OfWindow w.minutes (ticksOf ticker handled)) (candlesOf w ticker (SwingPath.run handled).2)
      (closedWindows w ticker handled) := by
  by_cases early : ticker ∈ SwingPath.admittedTickers handled
  · have all := candles_ofWindow (w := w) early sorted nonneg
    obtain ⟨c, progress⟩ := progress_of_admitted (w := w) early
    rw [Engine.candles, progress] at all
    have closed := forall₂_dropLast all
    rw [List.dropLast_concat] at closed
    rw [closedWindows, if_pos early]
    exact closed
  · rw [closedWindows, if_neg early, candlesOf, SwingPath.run_filter_late early]
    exact List.Forall₂.nil

omit [AddCommGroup K] [LinearOrder K] in
theorem candlesOf_flatMap {α : Type*} (f : α → List (AggregatorSignal K)) (l : List α) :
    candlesOf w ticker (l.flatMap f) = l.flatMap fun a => candlesOf w ticker (f a) := by
  induction l with
  | nil => rfl
  | cons a l ih =>
    rw [List.flatMap_cons, List.flatMap_cons, ← ih]
    simp [candlesOf, emittedCandles]

/-- **What is published is, process by process, the candles of the windows it closed**, each made of
the ticks of that process. -/
theorem published_of_run (reach : (machine ticks first).Reachable s)
    (sorted : (ticksOf ticker ticks).Pairwise fun a b => a.timestampMs ≤ b.timestampMs)
    (nonneg : ∀ t ∈ ticksOf ticker ticks, 0 ≤ t.timestampMs) :
    List.Forall₂ (fun c (owned : List (Tick K) × ℤ) => OfWindow w.minutes owned.1 c owned.2)
      (candlesOf w ticker s.published)
      (s.handled.flatMap fun handled =>
        (closedWindows w ticker handled).map fun n => (ticksOf ticker handled, n)) := by
  have inv := inv_of_reachable reach
  rw [inv.published, candlesOf_flatMap]
  have stretch : ∀ handled ∈ s.handled, handled <:+: ticks := fun _ mem => inv.infix mem
  generalize s.handled = sessions at stretch
  induction sessions with
  | nil => exact List.Forall₂.nil
  | cons handled sessions ih =>
    rw [List.flatMap_cons, List.flatMap_cons]
    have own : (ticksOf ticker handled).Sublist (ticksOf ticker ticks) := (stretch handled (.head _)).sublist.filter _
    have here : List.Forall₂ (OfWindow w.minutes (ticksOf ticker handled))
        (candlesOf w ticker (SwingPath.run handled).2) (closedWindows w ticker handled) :=
      candlesOf_run (sorted.sublist own) fun t mem => nonneg t (own.subset mem)
    apply List.rel_append
    · exact List.forall₂_map_right_iff.2 here
    · exact ih fun _ mem => stretch _ (.tail _ mem)

/-! ## Without loss of offsets -/

/-- The processes share the topic out among themselves. -/
structure Shared (ticks : List (Tick K)) (first : ℕ) (s : Restarts K) : Prop where
  after_first : first ≤ s.committed
  behind : s.committed ≤ s.position
  idle : s.process = none → s.committed = s.position
  all : s.handled.flatten ++ s.inHand.toList = (ticks.take s.position).drop first

theorem Shared.init : Shared ticks first (machine ticks first).init where
  after_first := le_rfl
  behind := le_rfl
  idle _ := rfl
  all := by
    show [] = (ticks.take first).drop first
    rw [List.drop_take, Nat.sub_self, List.take_zero]

theorem Shared.step (h : Shared ticks first s) (committed : s.Committed a)
    (step : (machine ticks first).step s a = some s') : Shared ticks first s' := by
  have all := h.all
  have reached := h.after_first.trans h.behind
  cases step_cases step with
  | start idle =>
    rw [handled_of_idle idle, inHand, idle, ← h.idle idle] at all
    refine ⟨h.after_first, le_rfl, (fun running => by cases running), ?_⟩
    rw [handled_of_running rfl, List.flatten_append, List.append_assoc, ← all]
    rfl
  | @poll process tick running free next =>
    rw [handled_of_running running, inHand_of_running running, free, Option.toList_none, List.append_nil] at all
    refine ⟨h.after_first, Nat.le_succ_of_le h.behind, (fun running => by cases running), ?_⟩
    have within : first ≤ (ticks.take s.position).length := by
      have long := (List.getElem?_eq_some_iff.1 next).1
      rw [List.length_take]
      omega
    show (s.past ++ [process.handled]).flatten ++ [tick] = (ticks.take (s.position + 1)).drop first
    rw [List.take_add_one, next, List.drop_append_of_le_length within, ← all]
    rfl
  | @handle process tick running hand =>
    rw [handled_of_running running, inHand_of_running running, hand] at all
    refine ⟨h.after_first, h.behind, (fun running => by cases running), ?_⟩
    show (s.past ++ [process.handled ++ [tick]]).flatten ++ [] = _
    rw [← all, List.append_nil]
    simp only [List.flatten_append, List.flatten_singleton, List.append_assoc, Option.toList_some]
  | commit running => exact ⟨reached, le_rfl, fun _ => rfl, all⟩
  | @exit process stopped running free =>
    have ends : (if stopped then s.position else s.committed) = s.position ∧ process.inHand = none := by
      cases stopped with
      | true => exact ⟨rfl, free rfl⟩
      | false => exact (committed rfl).imp_right (inHand_of_running running).symm.trans
    rw [handled_of_running running, inHand_of_running running, ends.2] at all
    refine ⟨?_, ends.1.le, fun _ => ends.1, ?_⟩
    · rw [ends.1]
      exact reached
    · rw [handled_of_idle rfl]
      exact all

omit [AddCommGroup K] [LinearOrder K] in
/-- What was handled is what comes from `first` on. -/
theorem Shared.stretch (h : Shared ticks first s) : s.handled.flatten <+: ticks.drop first := by
  have taken : (ticks.take s.position).drop first <+: ticks.drop first := (List.take_prefix ..).drop first
  exact (h.all ▸ List.prefix_append ..).trans taken

omit [AddCommGroup K] [LinearOrder K] in
theorem Shared.sublist (h : Shared ticks first s) :
    (ticksOf ticker s.handled.flatten).Sublist (ticksOf ticker ticks) :=
  (h.stretch.sublist.trans (List.drop_sublist ..)).filter _

/-- Stopped processes commit. -/
theorem along_committed {acts : List RestartAction} (no_crash : .exit false ∉ acts) (s : Restarts K) :
    (machine ticks first).Along Committed s acts := by
  induction acts generalizing s with
  | nil => trivial
  | cons a acts ih =>
    refine ⟨?_, fun s' _ => ih (fun mem => no_crash (.tail _ mem)) s'⟩
    cases a with
    | exit stopped =>
      rintro rfl
      exact absurd (.head _) no_crash
    | start | poll | handle | commit => trivial

theorem shared_of_run {acts : List RestartAction} (run : (machine ticks first).run acts = some s)
    (committed : (machine ticks first).Along Committed (machine ticks first).init acts) : Shared ticks first s := by
  refine (machine ticks first).run_induct (I := fun _ s => Shared ticks first s) .init ?_ acts s run committed
  intro acts s a s' _ shared here step
  exact shared.step here step

omit [AddCommGroup K] [LinearOrder K] in
theorem mem_windowsOf {handled : List (Tick K)} {n : ℤ} : n ∈ windowsOf w ticker handled ↔
    ∃ t ∈ ticksOf ticker handled, Flux.window (windowMs w.minutes) t.timestampMs = n := by
  rw [windowsOf, Flux.mem_windows]
  simp only [List.mem_map, exists_exists_and_eq_and]

theorem lt_of_mem_dropLast {ns : List ℤ} {n : ℤ} (increasing : ns.Pairwise (· < ·)) (mem : n ∈ ns.dropLast) :
    ∃ last ∈ ns, n < last := by
  have some_last : ns ≠ [] := by
    rintro rfl
    cases mem
  rw [← List.dropLast_append_getLast some_last] at increasing
  exact ⟨ns.getLast some_last, List.getLast_mem _, (List.pairwise_append.1 increasing).2.2 n mem _ (.head _)⟩

omit [AddCommGroup K] [LinearOrder K] in
theorem increasing_windows {handled : List (Tick K)}
    (sorted : (ticksOf ticker handled).Pairwise fun a b => a.timestampMs ≤ b.timestampMs) :
    (windowsOf w ticker handled).Pairwise (· < ·) :=
  Flux.increasing_windows (windowMs_pos w) (List.pairwise_map.2 sorted)

omit [AddCommGroup K] [LinearOrder K] in
theorem closedWindows_sublist (handled : List (Tick K)) :
    (closedWindows w ticker handled).Sublist (windowsOf w ticker handled) := by
  unfold closedWindows
  split_ifs
  · exact List.dropLast_sublist _
  · exact List.nil_sublist _

omit [AddCommGroup K] [LinearOrder K] in
/-- The window that a process leaves open is not before what it closes. -/
theorem exists_later {handled : List (Tick K)} {n : ℤ}
    (sorted : (ticksOf ticker handled).Pairwise fun a b => a.timestampMs ≤ b.timestampMs)
    (mem : n ∈ closedWindows w ticker handled) :
    ∃ t ∈ ticksOf ticker handled, n < Flux.window (windowMs w.minutes) t.timestampMs := by
  unfold closedWindows at mem
  split_ifs at mem
  · obtain ⟨last, last_mem, lt⟩ := lt_of_mem_dropLast (increasing_windows sorted) mem
    obtain ⟨t, t_mem, rfl⟩ := mem_windowsOf.1 last_mem
    exact ⟨t, t_mem, lt⟩
  · cases mem

omit [AddCommGroup K] [LinearOrder K] in
/-- Processes that handle one stretch after the other close their windows in order. -/
theorem increasing_closedWindows {sessions : List (List (Tick K))}
    (sorted : (ticksOf ticker sessions.flatten).Pairwise fun a b => a.timestampMs ≤ b.timestampMs) :
    (sessions.flatMap (closedWindows w ticker)).Pairwise (· < ·) := by
  induction sessions with
  | nil => exact List.Pairwise.nil
  | cons handled sessions ih =>
    rw [List.flatten_cons, ticksOf, List.filter_append] at sorted
    obtain ⟨here, rest, across⟩ := List.pairwise_append.1 sorted
    rw [List.flatMap_cons]
    refine List.pairwise_append.2 ⟨(increasing_windows here).sublist (closedWindows_sublist handled), ih rest, ?_⟩
    intro n n_mem m m_mem
    obtain ⟨t, t_mem, lt⟩ := exists_later here n_mem
    obtain ⟨later, later_mem, m_mem⟩ := List.mem_flatMap.1 m_mem
    obtain ⟨u, u_mem, rfl⟩ := mem_windowsOf.1 ((closedWindows_sublist later).subset m_mem)
    obtain ⟨u_mem, own⟩ := List.mem_filter.1 u_mem
    have u_later : u ∈ sessions.flatten.filter (·.ticker = ticker) :=
      List.mem_filter.2 ⟨List.mem_flatten_of_mem later_mem u_mem, own⟩
    exact lt.trans_le (Int.ediv_le_ediv (windowMs_pos w) (across t t_mem u u_later))

/-- **Nothing is published twice** in a run whose processes all leave the offset they have reached:
the candles of a ticker close one after the other, over all its processes. -/
theorem published_once {acts : List RestartAction} (run : (machine ticks first).run acts = some s)
    (committed : (machine ticks first).Along Committed (machine ticks first).init acts)
    (sorted : (ticksOf ticker ticks).Pairwise fun a b => a.timestampMs ≤ b.timestampMs)
    (nonneg : ∀ t ∈ ticksOf ticker ticks, 0 ≤ t.timestampMs) :
    ((candlesOf w ticker s.published).map Candle.closeTimeMs).Pairwise (· < ·) := by
  have shared := shared_of_run run committed
  have windows := increasing_closedWindows (w := w) (sorted.sublist shared.sublist)
  have closes : (candlesOf w ticker s.published).map Candle.closeTimeMs =
      (s.handled.flatMap (closedWindows w ticker)).map fun n => (n + 1) * windowMs w.minutes := by
    have each : (candlesOf w ticker s.published).map Candle.closeTimeMs =
        (s.handled.flatMap fun handled =>
          (closedWindows w ticker handled).map fun n => (ticksOf ticker handled, n)).map
          fun owned => (owned.2 + 1) * windowMs w.minutes := by
      rw [← List.forall₂_eq_eq_eq, List.forall₂_map_left_iff, List.forall₂_map_right_iff]
      exact (published_of_run ⟨acts, run⟩ sorted nonneg).imp fun _ _ h => h.closeTimeMs
    rw [each, List.map_flatMap, List.map_flatMap]
    simp only [List.map_map, Function.comp_def]
  rw [closes, List.pairwise_map]
  refine windows.imp ?_
  intro n m lt
  have pos := windowMs_pos w
  exact Int.mul_lt_mul_of_pos_right (by omega) pos

/-! ## What a restart costs -/

/-- The windows in which a process has stopped, or in which the running one is. -/
def Cut (w : Window) (ticker : Ticker) (s : Restarts K) (n : ℤ) : Prop :=
  ∃ handled ∈ s.handled, (windowsOf w ticker handled).getLast? = some n

omit [AddCommGroup K] [LinearOrder K] in
theorem getLast?_windowsOf {handled : List (Tick K)} {n : ℤ}
    (sorted : (ticksOf ticker handled).Pairwise fun a b => a.timestampMs ≤ b.timestampMs)
    (mem : n ∈ windowsOf w ticker handled)
    (bound : ∀ t ∈ ticksOf ticker handled, Flux.window (windowMs w.minutes) t.timestampMs ≤ n) :
    (windowsOf w ticker handled).getLast? = some n := by
  have some_window := List.ne_nil_of_mem mem
  rw [List.getLast?_eq_some_getLast some_window]
  have split := List.dropLast_append_getLast some_window
  rw [← split] at mem
  rcases List.mem_append.1 mem with early | last
  · obtain ⟨last, last_mem, lt⟩ := lt_of_mem_dropLast (increasing_windows sorted) early
    obtain ⟨t, t_mem, rfl⟩ := mem_windowsOf.1 last_mem
    exact absurd (bound t t_mem) (not_le.2 lt)
  · rw [List.mem_singleton.1 last]

omit [AddCommGroup K] [LinearOrder K] in
/-- The ticks of a window in which no process stops are with one process. -/
theorem inWindow_of_uncut {sessions : List (List (Tick K))} {handled : List (Tick K)} {n : ℤ}
    (sorted : (ticksOf ticker sessions.flatten).Pairwise fun a b => a.timestampMs ≤ b.timestampMs)
    (uncut : ∀ handled ∈ sessions, (windowsOf w ticker handled).getLast? ≠ some n) (mem : handled ∈ sessions)
    (here : n ∈ windowsOf w ticker handled) :
    (ticksOf ticker sessions.flatten).filter (Flux.window (windowMs w.minutes) ·.timestampMs = n) =
      (ticksOf ticker handled).filter (Flux.window (windowMs w.minutes) ·.timestampMs = n) := by
  obtain ⟨before, after, rfl⟩ := List.append_of_mem mem
  simp only [ticksOf, List.flatten_append, List.flatten_cons, List.filter_append] at sorted ⊢
  obtain ⟨sorted_before, sorted_rest, across⟩ := List.pairwise_append.1 sorted
  obtain ⟨sorted_here, -, behind⟩ := List.pairwise_append.1 sorted_rest
  have none_before : (before.flatten.filter (·.ticker = ticker)).filter
      (Flux.window (windowMs w.minutes) ·.timestampMs = n) = [] := by
    refine List.filter_eq_nil_iff.2 fun t t_mem at_n => ?_
    obtain ⟨t_mem, own⟩ := List.mem_filter.1 t_mem
    obtain ⟨earlier, earlier_mem, t_mem⟩ := List.mem_flatten.1 t_mem
    have part : (ticksOf ticker earlier).Sublist (before.flatten.filter (·.ticker = ticker)) :=
      (List.sublist_flatten_of_mem earlier_mem).filter _
    have seen : n ∈ windowsOf w ticker earlier :=
      mem_windowsOf.2 ⟨t, List.mem_filter.2 ⟨t_mem, own⟩, of_decide_eq_true at_n⟩
    apply uncut earlier (List.mem_append_left _ earlier_mem)
    refine getLast?_windowsOf (sorted_before.sublist part) seen fun u u_mem => ?_
    obtain ⟨v, v_mem, rfl⟩ := mem_windowsOf.1 here
    exact Int.ediv_le_ediv (windowMs_pos w) (across u (part.subset u_mem) v (List.mem_append_left _ v_mem))
  have none_after : (after.flatten.filter (·.ticker = ticker)).filter
      (Flux.window (windowMs w.minutes) ·.timestampMs = n) = [] := by
    refine List.filter_eq_nil_iff.2 fun t t_mem at_n => ?_
    apply uncut handled mem
    refine getLast?_windowsOf sorted_here here fun u u_mem => ?_
    rw [← of_decide_eq_true at_n]
    exact Int.ediv_le_ediv (windowMs_pos w) (behind u u_mem t t_mem)
  rw [none_before, none_after, List.nil_append, List.append_nil]

/-- The candle of a window is told by the ticks of that window. -/
theorem ofWindow_of_filter {windowMin : ℤ} {own all : List (Tick K)} {c : Candle K} {n : ℤ}
    (h : OfWindow windowMin own c n)
    (same : own.filter (Flux.window (windowMs windowMin) ·.timestampMs = n) =
      all.filter (Flux.window (windowMs windowMin) ·.timestampMs = n)) : OfWindow windowMin all c n := by
  refine ⟨h.openTimeMs, h.closeTimeMs, ?_⟩
  rw [h.ohlcv, InfluxDbRepository.inWindow, InfluxDbRepository.inWindow, List.filter_map, List.filter_map]
  exact congrArg (fun ticks => InfluxDbRepository.tickBar _ (ticks.map tickPoint)) same

/-- The processes have handled a stretch of the topic, and each of its windows in which no process
has stopped is published as the candle of all its ticks. -/
structure Whole (w : Window) (ticker : Ticker) (ticks : List (Tick K)) (first : ℕ) (s : Restarts K) : Prop where
  stretch : s.handled.flatten <+: ticks.drop first
  candle : ∀ n ∈ windowsOf w ticker s.handled.flatten, ¬ Cut w ticker s n →
    ∃ c ∈ candlesOf w ticker s.published, OfWindow w.minutes (ticksOf ticker s.handled.flatten) c n

/-- **A restart costs no other window than the one it falls into**, in a run whose processes all
leave the offset they have reached. -/
theorem whole_of_run {acts : List RestartAction} (run : (machine ticks first).run acts = some s)
    (committed : (machine ticks first).Along Committed (machine ticks first).init acts)
    (sorted : (ticksOf ticker ticks).Pairwise fun a b => a.timestampMs ≤ b.timestampMs)
    (nonneg : ∀ t ∈ ticksOf ticker ticks, 0 ≤ t.timestampMs)
    (admitted : ∀ handled ∈ s.handled, ticksOf ticker handled ≠ [] → ticker ∈ SwingPath.admittedTickers handled) :
    Whole w ticker ticks first s := by
  have shared := shared_of_run run committed
  refine ⟨shared.stretch, fun n seen uncut => ?_⟩
  have no_end : ∀ handled ∈ s.handled, (windowsOf w ticker handled).getLast? ≠ some n :=
    fun handled mem last => uncut ⟨handled, mem, last⟩
  obtain ⟨t, t_mem, at_n⟩ := mem_windowsOf.1 seen
  obtain ⟨t_mem, own⟩ := List.mem_filter.1 t_mem
  obtain ⟨handled, mem, t_mem⟩ := List.mem_flatten.1 t_mem
  have t_own : t ∈ ticksOf ticker handled := List.mem_filter.2 ⟨t_mem, own⟩
  have here : n ∈ windowsOf w ticker handled := mem_windowsOf.2 ⟨t, t_own, at_n⟩
  have closed : n ∈ closedWindows w ticker handled := by
    rw [closedWindows, if_pos (admitted handled mem (List.ne_nil_of_mem t_own))]
    have some_window := List.ne_nil_of_mem here
    rw [← List.dropLast_append_getLast some_window] at here
    refine (List.mem_append.1 here).resolve_right fun last => no_end handled mem ?_
    rw [List.mem_singleton.1 last, List.getLast?_eq_some_getLast some_window]
  have published := published_of_run (w := w) ⟨acts, run⟩ sorted nonneg
  have listed : (ticksOf ticker handled, n) ∈ s.handled.flatMap fun handled =>
      (closedWindows w ticker handled).map fun n => (ticksOf ticker handled, n) :=
    List.mem_flatMap.2 ⟨handled, mem, List.mem_map.2 ⟨n, closed, rfl⟩⟩
  obtain ⟨c, c_mem, ofWindow⟩ := forall₂_mem_right published listed
  have same := inWindow_of_uncut (sorted.sublist shared.sublist) no_end mem here
  exact ⟨c, c_mem, ofWindow_of_filter ofWindow same.symm⟩

/-! ## A restart in the second of four quarters -/

/-- Two ticks in each of the first two quarters, and one in each of the next two. -/
def fourQuarters : List (Tick ℤ) :=
  [⟨"A", 70, 10, 0⟩, ⟨"A", 71, 20, 1000⟩, ⟨"A", 72, 30, 900000⟩, ⟨"A", 73, 40, 901000⟩, ⟨"A", 74, 50, 1800000⟩,
    ⟨"A", 75, 60, 2700000⟩]

/-- The first process handles three ticks and is stopped, the second one handles the rest. -/
def restartInSecond : List RestartAction :=
  [.start, .poll, .handle, .poll, .handle, .poll, .handle, .exit true,
    .start, .poll, .handle, .poll, .handle, .poll, .handle]

theorem along_restartInSecond :
    (machine fourQuarters 0).Along Committed (machine fourQuarters 0).init restartInSecond :=
  along_committed (by simp [restartInSecond]) _

theorem published_once_restart : ∃ s, (machine fourQuarters 0).run restartInSecond = some s ∧
    (candlesOf .quarter "A" s.published).map Candle.closeTimeMs = [900000, 1800000, 2700000] ∧
      ((candlesOf .quarter "A" s.published).map Candle.closeTimeMs).Pairwise (· < ·) := by
  obtain ⟨s, run, closes⟩ := (machine fourQuarters 0).exists_of_any restartInSecond
    (fun s => (candlesOf .quarter "A" s.published).map Candle.closeTimeMs = [900000, 1800000, 2700000])
    (by decide +kernel)
  refine ⟨s, run, of_decide_eq_true closes, published_once run along_restartInSecond ?_ ?_⟩
  · decide +kernel
  · decide +kernel

/-- The third quarter is whole. -/
theorem whole_of_run_restart : ∃ s, (machine fourQuarters 0).run restartInSecond = some s ∧
    Whole .quarter "A" fourQuarters 0 s ∧ 2 ∈ windowsOf .quarter "A" s.handled.flatten ∧ ¬ Cut .quarter "A" s 2 := by
  obtain ⟨s, run, facts⟩ := (machine fourQuarters 0).exists_of_any restartInSecond
    (fun s => s.handled = [fourQuarters.take 3, fourQuarters.drop 3]) (by decide +kernel)
  have handled := of_decide_eq_true facts
  refine ⟨s, run, whole_of_run run along_restartInSecond ?_ ?_ ?_, ?_, ?_⟩
  · decide +kernel
  · decide +kernel
  · rw [handled]
    decide +kernel
  · rw [handled]
    decide +kernel
  · rintro ⟨process, mem, last⟩
    rw [handled] at mem
    revert process
    decide +kernel

/-- A crash before the offsets are committed: the first quarter is published again. -/
example : ((machine fourQuarters 0).run
    [.start, .poll, .handle, .poll, .handle, .poll, .handle, .exit false,
      .start, .poll, .handle, .poll, .handle, .poll, .handle]).map
      (fun s => (candlesOf .quarter "A" s.published).map Candle.closeTimeMs) = some [900000, 900000] := by
  decide +kernel

end Restarts

end StockAnomaly.Engine
