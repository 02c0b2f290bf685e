import Mathlib.Data.List.Infix
import StockAnomaly.Theory.JavaString
import StockAnomaly.Theory.Machine
import StockAnomaly.Theory.Table

/-!
# The table of stocks

Three writers share the table `stocks`: the listings that a start downloads while the table
is small, the search for a six-digit code, and a subscription, which leaves a placeholder.
None of them looks at more than whether there is a row. So the first to write a ticker
settles its name and market for good: **`mem_rows_iff`**. And a start loads both markets or
none: once a table has fifty rows, the market whose download failed is never loaded,
**`kosdaq_lost`**.

A call whose transaction fails leaves the table as it is, and is no action here. The calls are
atomic: a start that reads the tickers just before a subscription saves its row would merge
the listing over that row.
-/

namespace StockAnomaly.ApiServer

open StockAnomaly.Theory

structure Stock where
  ticker : String
  name : String
  market : Option String
deriving DecidableEq

/-- The texts of the cells of each row, or `none` when the download fails. -/
abbrev KrxDownload := Option (List (List String))

namespace KisApiService

/-- `replaceAll("[^0-9]", "")`. -/
def digitsOf (text : String) : String := String.ofList (text.toList.filter Char.isDigit)

def listing (marketName : String) : List String → Option Stock
  | nameCol :: _ :: tickerCol :: _ =>
    let name := JavaString.trim nameCol
    let ticker := JavaString.trim (digitsOf tickerCol)
    if ticker.length = 6 ∧ name ≠ "" then some ⟨ticker, name, some marketName⟩ else none
  | _ => none

def fetchStocksFromKrx (download : KrxDownload) (marketName : String) : List Stock :=
  (download.getD []).filterMap (listing marketName)

/-- The downloads of `stockMkt` and `kosdaqMkt`. -/
def fetchAllListedStocks (kospi kosdaq : KrxDownload) : List Stock :=
  fetchStocksFromKrx kospi "KOSPI" ++ fetchStocksFromKrx kosdaq "KOSDAQ"

end KisApiService

/-- An entry of KIS's answer to a search: `pdno` and `prdt_abrv_name`. -/
structure SearchItem where
  pdno : Option String
  prdtAbrvName : Option String
deriving DecidableEq

/-- The table `stocks`. -/
abbrev StockMaster := Table Stock.ticker

namespace StockMaster

open KisApiService

def STOCK_MASTER_THRESHOLD : ℕ := 50

def loadFullStockMaster (t : StockMaster) (kospi kosdaq : KrxDownload) : StockMaster :=
  let allStocks := fetchAllListedStocks kospi kosdaq
  if allStocks.isEmpty then t
  else t.saveAll (allStocks.filter fun stock => (t.find stock.ticker).isNone)

def syncStockMasterDataOnStartup (t : StockMaster) (kospi kosdaq : KrxDownload) : StockMaster :=
  if t.rows.length < STOCK_MASTER_THRESHOLD then loadFullStockMaster t kospi kosdaq else t

/-- `^[0-9]+$` -/
def isNumber (query : String) : Bool := query ≠ "" ∧ query.toList.all Char.isDigit

/-- `^[0-9]{6}$` -/
def isCode (query : String) : Bool := query.length = 6 ∧ query.toList.all Char.isDigit

/-- The search in the table; `nameContains` is the database's `LIKE '%..%'`. -/
def localResults (nameContains : String → String → Bool) (t : StockMaster) (query : String) : List Stock :=
  if isNumber query then t.rows.filter fun stock => JavaString.startsWith stock.ticker query
  else t.rows.filter fun stock => nameContains query stock.name

def SearchItem.stock? (item : SearchItem) : Option Stock :=
  item.pdno.bind fun ticker => item.prdtAbrvName.map fun name => ⟨ticker, name, some "KOSPI"⟩

/-- `findById(..).orElseGet(() -> save(..))`. -/
def findOrSave (t : StockMaster) (stock : Stock) : Stock × StockMaster :=
  match t.find stock.ticker with
  | some found => (found, t)
  | none => (stock, t.save stock)

/-- The loop over KIS's answer: the results and the table. -/
def addResults : List Stock → StockMaster → List SearchItem → List Stock × StockMaster
  | results, t, [] => (results, t)
  | results, t, item :: answer =>
    match SearchItem.stock? item with
    | none => addResults results t answer
    | some stock => addResults (results ++ [(findOrSave t stock).1]) (findOrSave t stock).2 answer

/-- KIS gives `answer` when it is asked. -/
def searchStocks (nameContains : String → String → Bool) (t : StockMaster) (query : String)
    (answer : List SearchItem) : List Stock × StockMaster :=
  let found := localResults nameContains t query
  if !found.isEmpty then (found, t)
  else if isCode query then addResults found t answer
  else (found, t)

def placeholder (ticker : String) : Stock := ⟨ticker, "주식 " ++ ticker, none⟩

/-- What `SubscriptionService.subscribe` does to the table, for a ticker that is new to the user. -/
def subscribe (t : StockMaster) (ticker : String) : StockMaster :=
  if (t.find ticker).isNone then t.save (placeholder ticker) else t

/-- The name that `getSubscriptions` shows. -/
def shownName (t : StockMaster) (ticker : String) : String :=
  ((t.find ticker).map Stock.name).getD ("주식 " ++ ticker)

inductive Action
  | startup (kospi kosdaq : KrxDownload)
  | search (query : String) (answer : List SearchItem)
  | subscribe (ticker : String)

def step (nameContains : String → String → Bool) (t : StockMaster) : Action → Option StockMaster
  | .startup kospi kosdaq => some (t.syncStockMasterDataOnStartup kospi kosdaq)
  | .search query answer => some (t.searchStocks nameContains query answer).2
  | .subscribe ticker => some (t.subscribe ticker)

def machine (nameContains : String → String → Bool) : Machine StockMaster Action where
  init := Table.empty
  step := step nameContains

/-! ## What a call adds -/

/-- The row that a call has for a ticker without one. -/
def added (nameContains : String → String → Bool) (t : StockMaster) : Action → String → Option Stock
  | .startup kospi kosdaq, ticker =>
    -- a ticker listed twice: `saveAll` merges the second into the first
    if t.rows.length < STOCK_MASTER_THRESHOLD then
      ((fetchAllListedStocks kospi kosdaq).filter (·.ticker = ticker)).getLast?
    else none
  | .search query answer, ticker =>
    if localResults nameContains t query = [] ∧ isCode query then
      (answer.filterMap SearchItem.stock?).find? (·.ticker = ticker)
    else none
  | .subscribe subscribed, ticker => if subscribed = ticker then some (placeholder ticker) else none

variable {nameContains : String → String → Bool} {t t' : StockMaster} {ticker : String} {a : Action}

theorem find_loadFullStockMaster (kospi kosdaq : KrxDownload) :
    (t.loadFullStockMaster kospi kosdaq).find ticker =
      (t.find ticker).or ((fetchAllListedStocks kospi kosdaq).filter (·.ticker = ticker)).getLast? := by
  unfold loadFullStockMaster
  dsimp only
  split_ifs with nothing
  · rw [List.isEmpty_iff.1 nothing, List.filter_nil, List.getLast?_nil, Option.or_none]
  · rw [Table.find_saveAll, List.filter_filter]
    cases there : t.find ticker with
    | none =>
      rw [Option.or_none, Option.none_or]
      congr 1
      apply List.filter_congr
      intro stock _
      by_cases same : stock.ticker = ticker
      · simp [same, there]
      · simp [same]
    | some row =>
      have nothing_new : ((fetchAllListedStocks kospi kosdaq).filter fun stock =>
          decide (stock.ticker = ticker) && (t.find stock.ticker).isNone) = [] := by
        rw [List.filter_eq_nil_iff]
        rintro stock - both
        obtain ⟨same, absent⟩ := Bool.and_eq_true_iff.1 both
        rw [of_decide_eq_true same, there] at absent
        cases absent
      rw [nothing_new, List.getLast?_nil, Option.none_or, Option.some_or]

theorem find_findOrSave (stock : Stock) : (findOrSave t stock).2.find ticker =
    (t.find ticker).or (if stock.ticker = ticker then some stock else none) := by
  unfold findOrSave
  cases there : t.find stock.ticker with
  | none =>
    rw [Table.find_save]
    by_cases same : stock.ticker = ticker
    · rw [if_pos same.symm, if_pos same, ← same, there, Option.none_or]
    · rw [if_neg (Ne.symm same), if_neg same, Option.or_none]
  | some row =>
    by_cases same : stock.ticker = ticker
    · rw [← same, there, Option.some_or]
    · rw [if_neg same, Option.or_none]

theorem find_addResults (results : List Stock) (answer : List SearchItem) :
    (addResults results t answer).2.find ticker =
      (t.find ticker).or ((answer.filterMap SearchItem.stock?).find? (·.ticker = ticker)) := by
  induction answer generalizing results t with
  | nil => rw [addResults, List.filterMap_nil, List.find?_nil, Option.or_none]
  | cons item answer ih =>
    rw [addResults]
    cases read : SearchItem.stock? item with
    | none => rw [List.filterMap_cons_none read, ih]
    | some stock =>
      rw [List.filterMap_cons_some read, List.find?_cons, ih, find_findOrSave, Option.or_assoc]
      by_cases same : stock.ticker = ticker <;> simp [same]

/-- **What a call does**: rows stay, and a ticker without one gets what the call has for it. -/
theorem find_step (step : (machine nameContains).step t a = some t') :
    t'.find ticker = (t.find ticker).or (added nameContains t a ticker) := by
  cases a with
  | startup kospi kosdaq =>
    cases step
    rw [syncStockMasterDataOnStartup, added]
    split_ifs with small
    · exact find_loadFullStockMaster kospi kosdaq
    · rw [Option.or_none]
  | search query answer =>
    cases step
    rw [searchStocks, added]
    cases found : localResults nameContains t query with
    | nil =>
      simp only [List.isEmpty_nil, Bool.not_true, Bool.false_eq_true, if_false, true_and]
      split_ifs with code
      · exact find_addResults [] answer
      · rw [Option.or_none]
    | cons stock rest => simp
  | subscribe subscribed =>
    cases step
    rw [subscribe, added]
    by_cases same : subscribed = ticker
    · subst same
      cases there : t.find subscribed with
      | none => simp [Table.find_save, placeholder]
      | some row => simp [there]
    · rw [if_neg same, Option.or_none]
      split_ifs with absent
      · exact Table.find_save_of_ne (Ne.symm same)
      · rfl

theorem extends_of_step (step : (machine nameContains).step t a = some t') : t'.Extends t :=
  Table.extends_of_or fun _ => find_step step

theorem extends_of_runFrom {acts : List Action} (run : (machine nameContains).runFrom t acts = some t') :
    t'.Extends t := by
  induction acts generalizing t with
  | nil =>
    cases run
    exact Table.Extends.refl _
  | cons a acts ih =>
    obtain ⟨next, step, rest⟩ := Option.bind_eq_some_iff.1 run
    exact (ih rest).trans (extends_of_step step)

/-- The name shown for a stock with a row never changes. -/
theorem shownName_kept {stock : Stock} {acts : List Action} (mem : stock ∈ t.rows)
    (run : (machine nameContains).runFrom t acts = some t') : shownName t' stock.ticker = stock.name := by
  rw [shownName, extends_of_runFrom run _ _ (Table.mem_iff_find.1 mem)]
  rfl

/-- **A row is what the first call that had one for its ticker made of it.** -/
theorem mem_rows_iff {acts : List Action} (run : (machine nameContains).run acts = some t) (stock : Stock) :
    stock ∈ t.rows ↔ ∃ before a after b, acts = before ++ a :: after ∧ (machine nameContains).run before = some b ∧
      b.find stock.ticker = none ∧ added nameContains b a stock.ticker = some stock := by
  induction acts using List.reverseRecOn generalizing t with
  | nil =>
    cases run
    constructor
    · intro mem
      cases mem
    · rintro ⟨before, a, after, -, split, -⟩
      exact absurd split.symm (by simp)
  | append_singleton acts last ih =>
    obtain ⟨s, run_before, step⟩ := Machine.run_snoc.1 run
    rw [Table.mem_iff_find, find_step step]
    constructor
    · intro found
      cases there : s.find stock.ticker with
      | none =>
        rw [there, Option.none_or] at found
        exact ⟨acts, last, [], s, rfl, run_before, there, found⟩
      | some row =>
        rw [there, Option.some_or] at found
        cases found
        obtain ⟨before, a, after, b, rfl, rest⟩ := (ih run_before).1 (Table.mem_iff_find.2 there)
        exact ⟨before, a, after ++ [last], b, by simp, rest⟩
    · rintro ⟨before, a, after, b, split, run_b, absent, has⟩
      rcases split_snoc split with ⟨rfl, rfl⟩ | ⟨rest, rfl, rfl⟩
      · obtain ⟨rfl, -⟩ := List.append_inj' split rfl
        obtain rfl : s = b := Option.some.inj (run_before.symm.trans run_b)
        rw [absent, has, Option.none_or]
      · have mem := (ih run_before).2 ⟨before, a, rest, b, rfl, run_b, absent, has⟩
        rw [Table.mem_iff_find.1 mem, Option.some_or]

/-- `LIKE '%..%'` with a collation that tells all characters apart. -/
def likeName (query name : String) : Bool := query.toList <:+: name.toList

/-- A stock subscribed before the listing keeps its placeholder. -/
theorem mem_rows_iff_placeholder : ∃ t, (machine likeName).run
    [.subscribe "005930", .startup (some [["삼성전자", "전자", "005930"]]) none] = some t ∧
      placeholder "005930" ∈ t.rows := by
  obtain ⟨t, run⟩ : ∃ t, (machine likeName).run
    [.subscribe "005930", .startup (some [["삼성전자", "전자", "005930"]]) none] = some t := ⟨_, rfl⟩
  refine ⟨t, run, (mem_rows_iff run _).2 ⟨[], .subscribe "005930", _, Table.empty, rfl, rfl, rfl, ?_⟩⟩
  decide +kernel

/-- What a search answers with is in the table it leaves. -/
theorem mem_of_addResults {results : List Stock} {answer : List SearchItem}
    (there : ∀ stock ∈ results, stock ∈ t.rows) :
    ∀ stock ∈ (addResults results t answer).1, stock ∈ (addResults results t answer).2.rows := by
  induction answer generalizing results t with
  | nil => exact there
  | cons item answer ih =>
    rw [addResults]
    cases SearchItem.stock? item with
    | none => exact ih there
    | some stock =>
      have kept : (findOrSave t stock).2.Extends t := Table.extends_of_or fun _ => find_findOrSave stock
      apply ih
      intro found mem
      rcases List.mem_append.1 mem with earlier | now
      · exact kept.rows_subset (there found earlier)
      · obtain rfl := List.mem_singleton.1 now
        unfold findOrSave
        cases row : t.find stock.ticker with
        | none =>
          apply Table.mem_iff_find.2
          rw [Table.find_save, if_pos rfl]
        | some old => exact Table.mem_of_find row

theorem mem_of_searchStocks {query : String} {answer : List SearchItem} :
    ∀ stock ∈ (t.searchStocks nameContains query answer).1,
      stock ∈ (t.searchStocks nameContains query answer).2.rows := by
  have local_mem : ∀ stock ∈ localResults nameContains t query, stock ∈ t.rows := by
    intro stock mem
    unfold localResults at mem
    split_ifs at mem <;> exact (List.mem_filter.1 mem).1
  unfold searchStocks
  dsimp only
  split_ifs
  · exact local_mem
  · exact mem_of_addResults local_mem
  · exact local_mem

/-! ## Markets -/

theorem market_of_listing {marketName : String} {cols : List String} {stock : Stock}
    (listed : listing marketName cols = some stock) : stock.market = some marketName := by
  unfold listing at listed
  split at listed
  case h_1 =>
    obtain ⟨-, made⟩ := Option.ite_none_right_eq_some.1 listed
    exact congrArg Stock.market (Option.some.inj made).symm
  case h_2 => cases listed

theorem market_of_fetch {download : KrxDownload} {marketName : String} {stock : Stock}
    (mem : stock ∈ fetchStocksFromKrx download marketName) : stock.market = some marketName := by
  obtain ⟨cols, -, listed⟩ := List.mem_filterMap.1 mem
  exact market_of_listing listed

/-- Only a start that finds a small table lists stocks of KOSDAQ. -/
theorem kosdaq_of_added {stock : Stock} (has : added nameContains t a ticker = some stock)
    (market : stock.market = some "KOSDAQ") : ∃ kospi kosdaq, a = .startup kospi kosdaq ∧
      t.rows.length < STOCK_MASTER_THRESHOLD ∧ stock ∈ fetchStocksFromKrx kosdaq "KOSDAQ" := by
  cases a with
  | startup kospi kosdaq =>
    obtain ⟨small, last⟩ := Option.ite_none_right_eq_some.1 has
    have mem := (List.mem_filter.1 (List.mem_of_getLast? last)).1
    rcases List.mem_append.1 mem with other | listed
    · rw [market_of_fetch other] at market
      exact absurd market (by decide)
    · exact ⟨kospi, kosdaq, rfl, small, listed⟩
  | search query answer =>
    obtain ⟨-, found⟩ := Option.ite_none_right_eq_some.1 has
    obtain ⟨item, -, read⟩ := List.mem_filterMap.1 (List.mem_of_find?_eq_some found)
    obtain ⟨ticker, -, name⟩ := Option.bind_eq_some_iff.1 read
    obtain ⟨name, -, rfl⟩ := Option.map_eq_some_iff.1 name
    have other : "KOSPI" ≠ "KOSDAQ" := by decide
    exact absurd (Option.some.inj market) other
  | subscribe subscribed =>
    obtain ⟨-, made⟩ := Option.ite_none_right_eq_some.1 has
    rw [← Option.some.inj made] at market
    cases market

/-- No call adds stocks of KOSDAQ to a table of fifty rows. -/
theorem kosdaq_of_full {acts : List Action} (full : STOCK_MASTER_THRESHOLD ≤ t.rows.length)
    (run : (machine nameContains).runFrom t acts = some t') {stock : Stock} (mem : stock ∈ t'.rows)
    (market : stock.market = some "KOSDAQ") : stock ∈ t.rows := by
  induction acts generalizing t with
  | nil =>
    cases run
    exact mem
  | cons a acts ih =>
    obtain ⟨next, step, rest⟩ := Option.bind_eq_some_iff.1 run
    have there := ih (full.trans (extends_of_step step).length_le) rest
    rw [Table.mem_iff_find, find_step step] at there
    cases before : t.find stock.ticker with
    | some row =>
      rw [before, Option.some_or] at there
      cases there
      exact Table.mem_of_find before
    | none =>
      rw [before, Option.none_or] at there
      obtain ⟨-, -, -, small, -⟩ := kosdaq_of_added there market
      exact absurd full (not_le.2 small)

/-- **A market whose download fails is lost**: when the listing of the other one fills the table,
no run of starts, searches and subscriptions ever adds a stock of it. -/
theorem kosdaq_lost {t₀ : StockMaster} {kospi : KrxDownload} {acts : List Action}
    (load : (machine nameContains).step t₀ (.startup kospi none) = some t)
    (full : STOCK_MASTER_THRESHOLD ≤ t.rows.length) (run : (machine nameContains).runFrom t acts = some t') :
    ∀ stock ∈ t'.rows, stock.market = some "KOSDAQ" → stock ∈ t₀.rows := by
  intro stock mem market
  have listed := kosdaq_of_full full run mem market
  rw [Table.mem_iff_find, find_step load] at listed
  cases before : t₀.find stock.ticker with
  | some row =>
    rw [before, Option.some_or] at listed
    cases listed
    exact Table.mem_of_find before
  | none =>
    rw [before, Option.none_or] at listed
    obtain ⟨_, _, same, -, from_kosdaq⟩ := kosdaq_of_added listed market
    cases same
    cases from_kosdaq

def ones (n : ℕ) : Stock := placeholder (String.ofList (List.replicate n '1'))

theorem ones_injective : Function.Injective fun n => (ones n).ticker := by
  intro m n same
  have lengths := congrArg String.length same
  simpa [ones, placeholder, String.length_ofList] using lengths

/-- A table with forty-nine placeholders. -/
def subscribedOnes : StockMaster where
  rows := (List.range 49).map ones
  unique := by
    rw [List.map_map]
    exact List.nodup_range.map ones_injective

/-- One stock of KOSPI makes it fifty rows. -/
theorem kosdaq_lost_fifty : ∃ t t',
    (machine likeName).step subscribedOnes (.startup (some [["삼성전자", "전자", "005930"]]) none) = some t ∧
      (machine likeName).runFrom t [.startup none (some [["카카오게임즈", "", "293490"]])] = some t' ∧
      ∀ stock ∈ t'.rows, stock.market = some "KOSDAQ" → stock ∈ subscribedOnes.rows := by
  refine ⟨_, _, rfl, rfl, ?_⟩
  apply @kosdaq_lost likeName _ _ subscribedOnes (some [["삼성전자", "전자", "005930"]])
    [.startup none (some [["카카오게임즈", "", "293490"]])] rfl _ rfl
  decide +kernel

end StockMaster

end StockAnomaly.ApiServer
