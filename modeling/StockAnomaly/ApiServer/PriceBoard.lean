import StockAnomaly.ApiServer.CachedTickers
import StockAnomaly.ApiServer.KisMessages
import StockAnomaly.ApiServer.StockMaster
import StockAnomaly.Theory.LogView

/-!
# The prices that `getSubscriptions` shows

Redis has a price for each ticker. `KafkaStockTickConsumer` writes there what it reads from
`raw-market-data`, and `fetchInitialPrice` writes the price it got from KIS before it
publishes the same price as a tick. Meanwhile other threads publish, and a consumer that
starts anew reads records again. So a price may be newer or older than what was last
published, but not for long: **`price_settles`**.
-/

namespace StockAnomaly.ApiServer

open StockAnomaly.Theory

/-- A `StockTick` as it is on the topic, where a text may be `null`. -/
structure TickRecord where
  ticker : String
  price : Option String
  volume : Option String
  timestamp : ℤ
  ownerEmail : Option AppKey
  changeAmount : String
  changeRate : String
deriving DecidableEq

def TickRecord.ofTick (tick : StockTick) : TickRecord where
  ticker := tick.ticker
  price := tick.price
  volume := tick.volume
  timestamp := tick.timestamp
  ownerEmail := tick.ownerEmail
  changeAmount := tick.changeAmount
  changeRate := tick.changeRate

/-- The `output` of KIS's `inquire-price`. -/
structure InquirePrice where
  stckPrpr : Option String
  acmlVol : Option String
  /-- 1 upper limit, 2 up, 3 unchanged, 4 down, 5 lower limit -/
  prdyVrssSign : Option String
  prdyVrss : Option String
  prdyCtrt : Option String

namespace SubscriptionService

/-- The change against the previous day with its sign. -/
def signedChange (sign change : Option String) : String :=
  match change with
  | none => "0"
  | some text =>
    if sign = some "3" then "0" else (if sign = some "4" ∨ sign = some "5" then "-" else "") ++ text

/-- The tick that `fetchInitialPrice` publishes. -/
def initialTick (appKey : Option AppKey) (ticker : String) (output : InquirePrice) (nowMs : ℤ) : TickRecord where
  ticker := ticker
  price := output.stckPrpr
  volume := output.acmlVol
  timestamp := nowMs
  ownerEmail := appKey
  changeAmount := signedChange output.prdyVrssSign output.prdyVrss
  changeRate := signedChange output.prdyVrssSign output.prdyCtrt

/-- The signs are computed as for a trade message with the same fields. -/
theorem ofTick_eq_initialTick {payload : String} {appKey : Option AppKey} {nowMs : ℕ} {tick : StockTick}
    (parsed : KisWebSocketClient.parseAndPublish payload appKey nowMs = some tick) :
    let dataParts := JavaString.split '^' ((JavaString.split '|' payload).getD 3 "")
    TickRecord.ofTick tick = initialTick appKey (dataParts.getD 0 "")
      ⟨dataParts.getD 2 "", dataParts.getD 13 "", dataParts.getD 3 "", dataParts.getD 4 "", dataParts.getD 5 ""⟩
      nowMs := by
  unfold KisWebSocketClient.parseAndPublish at parsed
  dsimp only at parsed ⊢
  split_ifs at parsed
  all_goals
    rw [← Option.some.inj parsed]
    simp_all [TickRecord.ofTick, initialTick, signedChange]

end SubscriptionService

/-- The hash `stock:price:<ticker>`. -/
structure CachedPrice where
  price : String
  volume : String
deriving DecidableEq

/-- What `save` writes. -/
def CachedPrice.of (tick : TickRecord) : CachedPrice := ⟨tick.price.getD "0", tick.volume.getD "0"⟩

/-- The topic, the consumer, Redis, and the threads inside `fetchInitialPrice`. -/
abbrev PriceBoard (P Tid : Type) := LogView P String TickRecord CachedPrice Tid

inductive PriceAction (P Tid : Type)
  /-- A thread has an answer of KIS and saves its price. -/
  | fetchInitialPrice (t : Tid) (appKey : Option AppKey) (ticker : String) (output : InquirePrice) (nowMs : ℤ)
  /-- It publishes the tick; a send that fails is `lost`. -/
  | publish (t : Tid) (lost : Bool)
  | handleTextMessage (payload : String) (appKey : Option AppKey) (nowMs : ℕ) (lost : Bool)
  /-- The consumer takes the next record; `failed`: Redis cannot be reached. -/
  | consume (p : P) (failed : Bool)
  /-- The consumer goes on from an earlier offset. -/
  | restart (p : P) (offset : ℕ)

namespace PriceBoard

variable {P Tid : Type}

def getPrice (s : PriceBoard P Tid) (ticker : String) : String := ((s.view ticker).map CachedPrice.price).getD "0"

def getVolume (s : PriceBoard P Tid) (ticker : String) : String := ((s.view ticker).map CachedPrice.volume).getD "0"

/-- The answer for the tickers of a user. -/
def getSubscriptions (tickers : List String) (master : StockMaster) (s : PriceBoard P Tid) :
    List SubscriptionResponse :=
  tickers.map fun ticker => ⟨ticker, master.shownName ticker, getPrice s ticker, getVolume s ticker⟩

variable [DecidableEq P] [DecidableEq Tid] (partition : String → P)

/-- `KafkaStockTickPublisher.publish`: the key of a record is its ticker. -/
def send (s : PriceBoard P Tid) (tick : TickRecord) (lost : Bool) : PriceBoard P Tid :=
  if lost then s else s.append TickRecord.ticker partition tick

def step (s : PriceBoard P Tid) : PriceAction P Tid → Option (PriceBoard P Tid)
  | .fetchInitialPrice t appKey ticker output nowMs =>
    if (s.writing t).isNone then
      some (s.write TickRecord.ticker CachedPrice.of t (SubscriptionService.initialTick appKey ticker output nowMs))
    else none
  | .publish t lost => (s.writing t).map fun tick => (send partition s tick lost).finish t
  | .handleTextMessage payload appKey nowMs lost =>
    match KisWebSocketClient.handleTextMessage payload appKey nowMs with
    | some tick => some (send partition s (TickRecord.ofTick tick) lost)
    | none => some s
  | .consume p failed => (s.log p)[s.position p]?.map fun tick =>
      -- the exception of `save` is caught, and the offset goes on
      if failed then s.advance p else s.consume TickRecord.ticker CachedPrice.of p tick
  | .restart p offset => if offset ≤ s.position p then some (s.rewind p offset) else none

def machine : Machine (PriceBoard P Tid) (PriceAction P Tid) where
  init := LogView.empty
  step := step partition

/-- The step appends a tick of the ticker to the topic. -/
def Publishes (ticker : String) (s : PriceBoard P Tid) : PriceAction P Tid → Prop
  | .publish t lost => lost = false ∧ ∃ tick ∈ s.writing t, tick.ticker = ticker
  | .handleTextMessage payload appKey nowMs lost =>
    lost = false ∧ ∃ tick ∈ KisWebSocketClient.handleTextMessage payload appKey nowMs, tick.ticker = ticker
  | _ => False

/-- The step loses no initial tick of the ticker and fails on no record of it. -/
def Faultless (ticker : String) (s : PriceBoard P Tid) : PriceAction P Tid → Prop
  | .publish t lost => lost = true → ∀ tick ∈ s.writing t, tick.ticker ≠ ticker
  | .consume p failed => failed = true → ∀ tick ∈ (s.log p)[s.position p]?, tick.ticker ≠ ticker
  | _ => True

variable {partition} {s s' s₀ s₁ : PriceBoard P Tid} {a : PriceAction P Tid} {ticker : String}

/-! ## One step -/

omit [DecidableEq Tid] in
theorem placed_send (h : s.Placed TickRecord.ticker partition) (tick : TickRecord) (lost : Bool) :
    (send partition s tick lost).Placed TickRecord.ticker partition := by
  unfold send
  split_ifs
  · exact h
  · exact h.append tick

theorem placed_step (h : s.Placed TickRecord.ticker partition) (step : (machine partition).step s a = some s') :
    s'.Placed TickRecord.ticker partition := by
  cases a with
  | fetchInitialPrice t appKey ticker output nowMs =>
    obtain ⟨-, moved⟩ := Option.ite_none_right_eq_some.1 step
    cases moved
    exact ⟨h.bounded, h.own⟩
  | publish t lost =>
    obtain ⟨tick, -, rfl⟩ := Option.map_eq_some_iff.1 step
    have sent := placed_send h tick lost
    exact ⟨sent.bounded, sent.own⟩
  | handleTextMessage payload appKey nowMs lost =>
    simp only [machine, PriceBoard.step] at step
    split at step <;> cases step
    · exact placed_send h _ lost
    · exact h
  | consume p failed =>
    obtain ⟨tick, next, rfl⟩ := Option.map_eq_some_iff.1 step
    split_ifs
    · exact h.advance next
    · exact h.consume next
  | restart p offset =>
    obtain ⟨back, moved⟩ := Option.ite_none_right_eq_some.1 step
    cases moved
    exact h.rewind (back.trans (h.bounded p))

theorem placed_of_reachable (reach : (machine partition).Reachable s) : s.Placed TickRecord.ticker partition :=
  reach.induct .empty fun _ _ _ placed step => placed_step placed step

/-- A tick that is published is still to be read. -/
theorem fresh_of_publishes (placed : s.Placed TickRecord.ticker partition) (publishes : Publishes ticker s a)
    (step : (machine partition).step s a = some s') : s'.Fresh TickRecord.ticker CachedPrice.of partition ticker := by
  cases a with
  | publish t lost =>
    obtain ⟨rfl, tick, writing, rfl⟩ := publishes
    obtain ⟨tick', writing', rfl⟩ := Option.map_eq_some_iff.1 step
    obtain rfl := Option.some.inj (writing.symm.trans writing')
    have to_read := LogView.mem_drop_append placed tick
    exact (LogView.fresh_append placed tick).finish (.inl ⟨tick, to_read, rfl⟩)
  | handleTextMessage payload appKey nowMs lost =>
    obtain ⟨rfl, tick, parsed, rfl⟩ := publishes
    simp only [machine, PriceBoard.step, Option.mem_def.1 parsed, Option.some.injEq] at step
    subst step
    exact LogView.fresh_append placed (TickRecord.ofTick tick)
  | fetchInitialPrice | consume | restart => exact publishes.elim

omit [DecidableEq Tid] in
theorem fresh_send (h : s.Fresh TickRecord.ticker CachedPrice.of partition ticker)
    (placed : s.Placed TickRecord.ticker partition) (tick : TickRecord) (lost : Bool) :
    (send partition s tick lost).Fresh TickRecord.ticker CachedPrice.of partition ticker := by
  unfold send
  split_ifs
  · exact h
  · exact h.append placed tick

/-- Without a fault of its own the view of a ticker stays fresh. -/
theorem fresh_step (h : s.Fresh TickRecord.ticker CachedPrice.of partition ticker)
    (placed : s.Placed TickRecord.ticker partition) (faultless : Faultless ticker s a)
    (step : (machine partition).step s a = some s') :
    s'.Fresh TickRecord.ticker CachedPrice.of partition ticker := by
  cases a with
  | fetchInitialPrice t appKey ticker output nowMs =>
    obtain ⟨idle, moved⟩ := Option.ite_none_right_eq_some.1 step
    cases moved
    exact h.write (Option.isNone_iff_eq_none.1 idle)
  | publish t lost =>
    obtain ⟨tick, writing, rfl⟩ := Option.map_eq_some_iff.1 step
    apply (fresh_send h placed tick lost).finish
    cases lost with
    | true => exact .inr (faultless rfl)
    | false =>
      by_cases own : tick.ticker = ticker
      · subst own
        exact .inl ⟨tick, LogView.mem_drop_append placed tick, rfl⟩
      · refine .inr ?_
        intro tick' writing'
        obtain rfl := Option.some.inj (writing.symm.trans writing')
        exact own
  | handleTextMessage payload appKey nowMs lost =>
    simp only [machine, PriceBoard.step] at step
    split at step <;> cases step
    · exact fresh_send h placed _ lost
    · exact h
  | consume p failed =>
    obtain ⟨tick, next, rfl⟩ := Option.map_eq_some_iff.1 step
    cases failed with
    | true => exact h.advance next (faultless rfl tick next)
    | false => exact h.consume placed next
  | restart p offset =>
    obtain ⟨back, moved⟩ := Option.ite_none_right_eq_some.1 step
    cases moved
    exact h.rewind back

/-! ## Runs -/

theorem fresh_of_runFrom {acts : List (PriceAction P Tid)}
    (h : s₁.Fresh TickRecord.ticker CachedPrice.of partition ticker) (placed : s₁.Placed TickRecord.ticker partition)
    (run : (machine partition).runFrom s₁ acts = some s)
    (faultless : (machine partition).Along (Faultless ticker) s₁ acts) :
    s.Fresh TickRecord.ticker CachedPrice.of partition ticker := by
  induction acts generalizing s₁ with
  | nil =>
    cases run
    exact h
  | cons a acts ih =>
    obtain ⟨next, step, rest⟩ := Option.bind_eq_some_iff.1 run
    exact ih (fresh_step h placed faultless.1 step) (placed_step placed step) rest (faultless.2 next step)

/-- Records stay on the topic. -/
theorem log_mono (step : (machine partition).step s a = some s') (p : P) : s.log p <+: s'.log p := by
  have sent (s : PriceBoard P Tid) (tick : TickRecord) (lost : Bool) :
      s.log p <+: (send partition s tick lost).log p := by
    unfold send
    split_ifs
    · exact List.prefix_rfl
    · rw [LogView.log_append]
      split_ifs
      · exact List.prefix_append ..
      · exact List.prefix_rfl
  cases a with
  | publish t lost =>
    obtain ⟨tick, -, rfl⟩ := Option.map_eq_some_iff.1 step
    exact sent s tick lost
  | handleTextMessage payload appKey nowMs lost =>
    simp only [machine, PriceBoard.step] at step
    split at step <;> cases step
    · exact sent s _ lost
    · exact List.prefix_rfl
  | consume q failed =>
    obtain ⟨tick, -, rfl⟩ := Option.map_eq_some_iff.1 step
    split_ifs <;> exact List.prefix_rfl
  | fetchInitialPrice | restart =>
    obtain ⟨-, moved⟩ := Option.ite_none_right_eq_some.1 step
    cases moved
    exact List.prefix_rfl

theorem log_mono_runFrom {acts : List (PriceAction P Tid)} (run : (machine partition).runFrom s acts = some s')
    (p : P) : s.log p <+: s'.log p := by
  induction acts generalizing s with
  | nil =>
    cases run
    exact List.prefix_rfl
  | cons a acts ih =>
    obtain ⟨next, step, rest⟩ := Option.bind_eq_some_iff.1 run
    exact (log_mono step p).trans (ih rest)

theorem mem_log_of_publishes (publishes : Publishes ticker s a) (step : (machine partition).step s a = some s') :
    ∃ tick ∈ s'.log (partition ticker), tick.ticker = ticker := by
  have there (s : PriceBoard P Tid) (tick : TickRecord) :
      tick ∈ (send partition s tick false).log (partition tick.ticker) := by
    show tick ∈ (s.append TickRecord.ticker partition tick).log (partition tick.ticker)
    rw [LogView.log_append, if_pos rfl]
    exact List.mem_append_right _ (List.mem_singleton_self tick)
  cases a with
  | publish t lost =>
    obtain ⟨rfl, tick, writing, rfl⟩ := publishes
    obtain ⟨tick', writing', rfl⟩ := Option.map_eq_some_iff.1 step
    obtain rfl := Option.some.inj (writing.symm.trans writing')
    exact ⟨tick, there s tick, rfl⟩
  | handleTextMessage payload appKey nowMs lost =>
    obtain ⟨rfl, tick, parsed, rfl⟩ := publishes
    simp only [machine, PriceBoard.step, Option.mem_def.1 parsed, Option.some.injEq] at step
    subst step
    exact ⟨TickRecord.ofTick tick, there s (TickRecord.ofTick tick), rfl⟩
  | fetchInitialPrice | consume | restart => exact publishes.elim

/-- **Prices settle.** Whatever went wrong before, after one published tick of a ticker and without
further faults the answers show its last record whenever nothing of the ticker is under way. -/
theorem price_settles {acts : List (PriceAction P Tid)} (reach : (machine partition).Reachable s₀)
    (publishes : Publishes ticker s₀ a) (step : (machine partition).step s₀ a = some s₁)
    (run : (machine partition).runFrom s₁ acts = some s)
    (faultless : (machine partition).Along (Faultless ticker) s₁ acts)
    (settled : s.Settled TickRecord.ticker partition ticker) (tickers : List String) (master : StockMaster) :
    ∃ tick, ((s.log (partition ticker)).filter (·.ticker = ticker)).getLast? = some tick ∧
      ∀ row ∈ getSubscriptions tickers master s, row.ticker = ticker →
        row.price = tick.price.getD "0" ∧ row.volume = tick.volume.getD "0" := by
  have placed := placed_of_reachable reach
  have fresh := fresh_of_runFrom (fresh_of_publishes placed publishes step) (placed_step placed step) run faultless
  obtain ⟨first, mem, own⟩ := mem_log_of_publishes publishes step
  have still_there := (log_mono_runFrom run _).subset mem
  have some_record : (s.log (partition ticker)).filter (·.ticker = ticker) ≠ [] :=
    List.ne_nil_of_mem (List.mem_filter.2 ⟨still_there, decide_eq_true own⟩)
  refine ⟨_, List.getLast?_eq_some_getLast some_record, ?_⟩
  have shows := fresh.settled settled
  rw [List.getLast?_eq_some_getLast some_record, Option.map_some] at shows
  intro row answered same
  obtain ⟨asked, -, rfl⟩ := List.mem_map.1 answered
  obtain rfl : asked = ticker := same
  rw [getPrice, getVolume, shows]
  exact ⟨rfl, rfl⟩

def answerOf (price : String) : InquirePrice := ⟨some price, some "9", some "2", some "100", some "0.14"⟩

/-- Two users subscribe, and the older price is the last to be published. -/
def overtaking : List (PriceAction Unit Bool) :=
  [.fetchInitialPrice false (some "PSa") "005930" (answerOf "73000") 1,
    .fetchInitialPrice true (some "PSb") "005930" (answerOf "73100") 2, .publish true false]

/-- The consumer reads both ticks, and the last one once more; a tick of another ticker is unread. -/
def readTwice : List (PriceAction Unit Bool) :=
  [.consume () false, .consume () false, .restart () 1, .consume () false,
    .fetchInitialPrice true (some "PSb") "000660" (answerOf "130000") 3, .publish true false]

theorem price_settles_overtaken : ∃ s : PriceBoard Unit Bool,
    (machine fun _ => ()).run (overtaking ++ .publish false false :: readTwice) = some s ∧
      ∃ tick, ((s.log ()).filter (·.ticker = "005930")).getLast? = some tick ∧
        ∀ row ∈ getSubscriptions ["005930"] Table.empty s, row.ticker = "005930" →
          row.price = tick.price.getD "0" ∧ row.volume = tick.volume.getD "0" := by
  obtain ⟨s₀, before, waiting⟩ := (machine fun _ => ()).exists_of_any overtaking
    (fun s => (s.writing false).any (·.ticker = "005930")) (by decide +kernel)
  obtain ⟨s, run, facts⟩ := (machine fun _ => ()).exists_of_any (overtaking ++ .publish false false :: readTwice)
    (fun s => s.writing false = none ∧ s.writing true = none ∧
      ∀ tick ∈ (s.log ()).drop (s.position ()), tick.ticker ≠ "005930") (by decide +kernel)
  obtain ⟨first, second, read⟩ := of_decide_eq_true facts
  have rest := run
  rw [Machine.run_append, before, Option.bind_some] at rest
  obtain ⟨s₁, step, after⟩ := Option.bind_eq_some_iff.1 rest
  obtain ⟨tick, writing, own⟩ := (Option.any_eq_true _ _).1 waiting
  have no_fault (P : Prop) : false = true → P := fun eq => absurd eq Bool.false_ne_true
  have publishes : Publishes "005930" s₀ (.publish false false) := ⟨rfl, tick, writing, of_decide_eq_true own⟩
  refine ⟨s, run, price_settles ⟨_, before⟩ publishes step after ?_ ?_ _ _⟩
  · exact ⟨no_fault _, fun _ _ => ⟨no_fault _, fun _ _ => ⟨trivial, fun _ _ => ⟨no_fault _, fun _ _ =>
      ⟨trivial, fun _ _ => ⟨no_fault _, fun _ _ => trivial⟩⟩⟩⟩⟩⟩
  · refine ⟨?_, read⟩
    intro t tick writing
    cases t with
    | false => cases first.symm.trans writing
    | true => cases second.symm.trans writing

end PriceBoard

end StockAnomaly.ApiServer
