import StockAnomaly.ApiServer.SubscriptionCache

/-!
# The cached list of tickers

The Redis entry is the tickers joined with commas, and is read back with `split`. All that
`SubscribeRequest` asks of a ticker is that it is not blank. What is read is what was written
exactly if no ticker contains a comma: **`cacheFaithful_iff`**.
-/

namespace StockAnomaly.ApiServer

open StockAnomaly.Theory

/-- `@NotBlank`, and the column `ticker` of the stocks. -/
structure Subscribable (ticker : StockTicker) : Prop where
  notBlank : JavaString.trim ticker ≠ ""
  length : ticker.length ≤ 10

instance (ticker : StockTicker) : Decidable (Subscribable ticker) :=
  decidable_of_iff (JavaString.trim ticker ≠ "" ∧ ticker.length ≤ 10) ⟨fun h => ⟨h.1, h.2⟩, fun h => ⟨h.1, h.2⟩⟩

/-- A row of the table `stocks`. -/
structure StockRow where
  ticker : StockTicker
  name : String

structure SubscriptionResponse where
  ticker : StockTicker
  name : String
  price : String
  volume : String
deriving DecidableEq

/-- What the responses are made of: the table and the hashes `stock:price:<ticker>`. -/
structure StockData where
  stocks : List StockRow
  price : StockTicker → Option String
  volume : StockTicker → Option String

namespace SubscriptionCacheRedisRepository

variable {tickers : List StockTicker}

theorem find_save (nonempty : ∀ ticker ∈ tickers, ticker ≠ "") (free : ∀ ticker ∈ tickers, ',' ∉ ticker.toList) :
    find (save tickers) = if tickers = [] then none else some tickers := by
  unfold save
  split_ifs with empty
  · rfl
  · have some_text : String.intercalate "," tickers ≠ "" := by
      intro blank
      obtain ⟨first, rest, rfl⟩ := List.exists_cons_of_ne_nil empty
      match rest with
      | [] =>
        rw [String.intercalate_singleton] at blank
        exact nonempty first (List.mem_singleton_self first) blank
      | second :: rest =>
        have separated := @JavaString.mem_join ',' "," rfl first second rest
        rw [blank] at separated
        exact List.not_mem_nil separated
    have comma : ",".toList = [','] := rfl
    simp only [find, if_neg some_text, JavaString.split_join_of_nonempty comma empty free nonempty]

/-- **A list is read back as it was written exactly if no ticker contains a comma.** -/
theorem find_save_iff (nonempty : ∀ ticker ∈ tickers, ticker ≠ "") :
    find (save tickers) = (if tickers = [] then none else some tickers) ↔ ∀ ticker ∈ tickers, ',' ∉ ticker.toList := by
  refine ⟨fun decodes ticker mem => ?_, find_save nonempty⟩
  have some_ticker : tickers ≠ [] := List.ne_nil_of_mem mem
  rw [save, if_neg some_ticker, if_neg some_ticker, find] at decodes
  split_ifs at decodes
  rw [← Option.some.inj decodes] at mem
  exact JavaString.notMem_of_mem_split mem

end SubscriptionCacheRedisRepository

namespace SubscriptionService

open SubscriptionCacheRedisRepository

/-- The responses for a list of tickers. -/
def responses (data : StockData) (tickers : List StockTicker) : List SubscriptionResponse :=
  let found := data.stocks.filter (·.ticker ∈ tickers)
  tickers.map fun ticker =>
    { ticker
      name := ((found.find? (·.ticker = ticker)).map StockRow.name).getD ("주식 " ++ ticker)
      price := (data.price ticker).getD "0"
      volume := (data.volume ticker).getD "0" }

/-- `getSubscriptions` with `fromDb` in the table, and the entry it leaves. -/
def getSubscriptions (data : StockData) (fromDb : List StockTicker) (entry : Option String) :
    List SubscriptionResponse × Option String :=
  match find entry with
  | some tickers => (responses data tickers, entry)
  | none => (responses data fromDb, save fromDb)

/-- The entry that a miss leaves is read as the list, or as absent if that is empty, and a hit on it
gives the answer of the miss. -/
structure CacheFaithful (data : StockData) (tickers : List StockTicker) : Prop where
  decodes : find (save tickers) = if tickers = [] then none else some tickers
  same : (getSubscriptions data tickers (getSubscriptions data tickers none).2).1 =
    (getSubscriptions data tickers none).1

theorem getSubscriptions_none (data : StockData) (tickers : List StockTicker) :
    getSubscriptions data tickers none = (responses data tickers, save tickers) := rfl

/-- **The cache gives the list back exactly if no ticker contains a comma.** -/
theorem cacheFaithful_iff (data : StockData) {tickers : List StockTicker}
    (subscribable : ∀ ticker ∈ tickers, Subscribable ticker) :
    CacheFaithful data tickers ↔ ∀ ticker ∈ tickers, ',' ∉ ticker.toList := by
  have nonempty : ∀ ticker ∈ tickers, ticker ≠ "" := by
    rintro ticker mem rfl
    exact (subscribable "" mem).notBlank rfl
  rw [← find_save_iff nonempty]
  refine ⟨CacheFaithful.decodes, fun decodes => ⟨decodes, ?_⟩⟩
  rw [getSubscriptions_none, getSubscriptions, decodes]
  split_ifs <;> rfl

/-- One stock is in the table. -/
def samsung : StockData := ⟨[⟨"005930", "삼성전자"⟩], fun _ => none, fun _ => none⟩

theorem cacheFaithful_iff_codes : CacheFaithful samsung ["005930", "000660"] :=
  (cacheFaithful_iff samsung (by decide)).2 (by decide)

/-- One ticker comes back as two. -/
theorem comma_splits_ticker :
    ¬ ∀ (data : StockData) (tickers : List StockTicker), (∀ ticker ∈ tickers, Subscribable ticker) →
      CacheFaithful data tickers := by
  intro claim
  have faithful := claim samsung ["A,B"] (by decide)
  exact absurd faithful.decodes (by decide +kernel)

end SubscriptionService

end StockAnomaly.ApiServer
