import Mathlib.Data.Fintype.Defs
import StockAnomaly.Theory.JavaString
import StockAnomaly.Theory.Machine

/-!
# The cache of a user's subscriptions

`subscribe`, `unsubscribe` and `getSubscriptions` of one user, any number of requests at a
time. A request is a transaction: its rows are seen by others when the method returns, while
the Redis entry `user:subscriptions:<id>` changes at once. Both writers evict the entry
before they commit, and `subscribe` talks to KIS in between, so a reader can put the old
list back. The entry stays right when no commit meets an entry or a reader that has loaded
the old list: **`cacheFresh_of_clearCommits`**.
-/

namespace StockAnomaly.ApiServer

open StockAnomaly.Theory

abbrev StockTicker := String

/-- A row of the table `subscriptions`, of the one user. -/
structure SubscriptionRow where
  id : ℕ
  ticker : StockTicker
  deriving DecidableEq

namespace SubscriptionCacheRedisRepository

def find (entry : Option String) : Option (List StockTicker) :=
  match entry with
  | none => none
  | some value => if value = "" then none else some (JavaString.split ',' value)

/-- The entry after `save`; an empty list deletes it. -/
def save (tickers : List StockTicker) : Option String :=
  if tickers = [] then none else some (String.intercalate "," tickers)

end SubscriptionCacheRedisRepository

/-- Where a request stands, with its locals. -/
inductive RequestPc
  | idle
  /-- `subscribe` before `existsByUserAndTicker`. -/
  | subscribing (ticker : StockTicker)
  /-- The ticker was not there; the row is about to be inserted. -/
  | inserting (ticker : StockTicker)
  /-- The row is inserted, not committed. -/
  | inserted (row : SubscriptionRow)
  /-- The entry is evicted; the price request and the KIS message follow. -/
  | insertEvicted (row : SubscriptionRow)
  /-- `unsubscribe` before the select of `deleteByUserAndTicker`. -/
  | unsubscribing (ticker : StockTicker)
  /-- The row found, marked for deletion at the commit. -/
  | deleting (found : Option SubscriptionRow)
  | deleteEvicted (found : Option SubscriptionRow)
  /-- `getSubscriptions` before the read of the entry. -/
  | reading
  | missed
  /-- `findAllByUser` has returned. -/
  | loaded (tickers : List StockTicker)
  deriving DecidableEq

/-- The list a reader has loaded and not saved yet. -/
def RequestPc.held : RequestPc → Option (List StockTicker)
  | .loaded tickers => some tickers
  | _ => none

/-- The committed rows in the order in which they are listed, the next id, the tickers of
rows that are inserted and not committed, and the Redis entry. -/
structure SubscriptionStore (ReqId : Type) where
  rows : List SubscriptionRow
  nextId : ℕ
  uncommitted : List StockTicker
  entry : Option String
  pc : ReqId → RequestPc

inductive SubscriptionAction (ReqId : Type)
  | subscribe (r : ReqId) (ticker : StockTicker)
  | unsubscribe (r : ReqId) (ticker : StockTicker)
  | getSubscriptions (r : ReqId)
  /-- The request goes on to its next access to the table or to Redis. -/
  | advance (r : ReqId)
  /-- An exception ends the request and rolls its transaction back. -/
  | fail (r : ReqId)

namespace SubscriptionStore

open SubscriptionCacheRedisRepository

variable {ReqId : Type} [DecidableEq ReqId]

/-- No request and no entry; the table holds the given tickers. -/
def start (tickers : List StockTicker) : SubscriptionStore ReqId where
  rows := tickers.mapIdx fun i ticker => ⟨i, ticker⟩
  nextId := tickers.length
  uncommitted := []
  entry := none
  pc _ := .idle

def goto (s : SubscriptionStore ReqId) (r : ReqId) (pc : RequestPc) : SubscriptionStore ReqId :=
  { s with pc := Function.update s.pc r pc }

/-- The committed list of tickers. -/
def tickers (s : SubscriptionStore ReqId) : List StockTicker := s.rows.map SubscriptionRow.ticker

def step (s : SubscriptionStore ReqId) : SubscriptionAction ReqId → Option (SubscriptionStore ReqId)
  | .subscribe r ticker => if s.pc r = .idle then some (s.goto r (.subscribing ticker)) else none
  | .unsubscribe r ticker => if s.pc r = .idle then some (s.goto r (.unsubscribing ticker)) else none
  | .getSubscriptions r => if s.pc r = .idle then some (s.goto r .reading) else none
  | .advance r =>
    match s.pc r with
    | .idle => none
    | .subscribing ticker => some (s.goto r (if ticker ∈ s.tickers then .idle else .inserting ticker))
    | .inserting ticker =>
      -- the unique index makes the insert wait for an uncommitted row of the ticker
      if ticker ∈ s.uncommitted then none
      else if ticker ∈ s.tickers then some (s.goto r .idle)
      else some { s.goto r (.inserted ⟨s.nextId, ticker⟩) with
        nextId := s.nextId + 1, uncommitted := ticker :: s.uncommitted }
    | .inserted row => some { s.goto r (.insertEvicted row) with entry := none }
    | .insertEvicted row => some { s.goto r .idle with
        rows := s.rows ++ [row], uncommitted := s.uncommitted.erase row.ticker }
    | .unsubscribing ticker => some (s.goto r (.deleting (s.rows.find? (·.ticker = ticker))))
    | .deleting found => some { s.goto r (.deleteEvicted found) with entry := none }
    | .deleteEvicted found => some { s.goto r .idle with rows := s.rows.filter (some · ≠ found) }
    | .reading => some (s.goto r (if (find s.entry).isSome then .idle else .missed))
    | .missed => some (s.goto r (.loaded s.tickers))
    | .loaded tickers => some { s.goto r .idle with entry := save tickers }
  | .fail r =>
    match s.pc r with
    | .idle => none
    | .inserted row | .insertEvicted row =>
      some { s.goto r .idle with uncommitted := s.uncommitted.erase row.ticker }
    | _ => some (s.goto r .idle)

def machine (ReqId : Type) [DecidableEq ReqId] (tickers : List StockTicker) :
    Machine (SubscriptionStore ReqId) (SubscriptionAction ReqId) where
  init := start tickers
  step := step

/-- The entry is absent or the committed list. -/
def Fresh (s : SubscriptionStore ReqId) : Prop :=
  s.entry = none ∨ s.entry = some (String.intercalate "," s.tickers)

/-- The action commits a change of the table. -/
def commits (s : SubscriptionStore ReqId) : SubscriptionAction ReqId → Bool
  | .advance r =>
    match s.pc r with
    | .insertEvicted _ => true
    | .deleteEvicted (some row) => row ∈ s.rows
    | _ => false
  | _ => false

/-- A commit happens only while there is no entry and no reader that has loaded the list. -/
def ClearCommit (s : SubscriptionStore ReqId) (a : SubscriptionAction ReqId) : Prop :=
  s.commits a = true → s.entry = none ∧ ∀ r, (s.pc r).held = none

instance [Fintype ReqId] (s : SubscriptionStore ReqId) (a : SubscriptionAction ReqId) :
    Decidable (s.ClearCommit a) :=
  inferInstanceAs (Decidable (_ → _))

/-- What a step does to the table, the entry and the lists that readers hold. -/
inductive Effect (s : SubscriptionStore ReqId) (a : SubscriptionAction ReqId) (s' : SubscriptionStore ReqId) : Prop
  | quiet (rows : s'.rows = s.rows) (entry : s'.entry = s.entry ∨ s'.entry = none)
      (held : ∀ r l, (s'.pc r).held = some l → (s.pc r).held = some l ∨ l = s.tickers)
  | saved (rows : s'.rows = s.rows) (r : ReqId) (l : List StockTicker) (reader : (s.pc r).held = some l)
      (entry : s'.entry = save l) (held : ∀ r' l', (s'.pc r').held = some l' → (s.pc r').held = some l')
  | committed (commits : s.commits a = true) (entry : s'.entry = s.entry)
      (held : ∀ r l, (s'.pc r).held = some l → (s.pc r).held = some l)

/-- A request that moves to a point where it holds no list. -/
theorem goto_held {s : SubscriptionStore ReqId} {r : ReqId} {pc : RequestPc} (no_list : pc.held = none) :
    ∀ r' l, ((s.goto r pc).pc r').held = some l → (s.pc r').held = some l := by
  intro r' l now
  by_cases same : r' = r
  · subst same
    simp [goto, no_list] at now
  · simpa only [goto, Function.update_of_ne same] using now

/-- A move of a request that leaves the rows and at most evicts the entry. -/
theorem effect_of_move {s s' : SubscriptionStore ReqId} {a : SubscriptionAction ReqId} {r : ReqId} {pc : RequestPc}
    (no_list : pc.held = none) (moved : s'.pc = (s.goto r pc).pc) (rows : s'.rows = s.rows)
    (entry : s'.entry = s.entry ∨ s'.entry = none) : Effect s a s' := by
  refine .quiet rows entry ?_
  intro r' l now
  rw [moved] at now
  exact .inl (goto_held no_list r' l now)

/-- The commit of `unsubscribe`, which may delete a row that is gone by now. -/
theorem effect_of_delete {s : SubscriptionStore ReqId} {r : ReqId} {found : Option SubscriptionRow}
    (here : s.pc r = .deleteEvicted found) :
    Effect s (.advance r) { s.goto r .idle with rows := s.rows.filter (some · ≠ found) } := by
  by_cases present : ∃ row ∈ s.rows, found = some row
  · obtain ⟨row, mem, rfl⟩ := present
    exact .committed (by simp [commits, here, mem]) rfl (goto_held rfl)
  · have kept : s.rows.filter (some · ≠ found) = s.rows := by
      apply List.filter_eq_self.2
      intro row mem
      apply decide_eq_true
      intro same
      exact present ⟨row, mem, same.symm⟩
    exact effect_of_move rfl rfl kept (.inl rfl)

/-- A reader loads the committed list. -/
theorem effect_of_load {s : SubscriptionStore ReqId} {a : SubscriptionAction ReqId} {r : ReqId} :
    Effect s a (s.goto r (.loaded s.tickers)) := by
  refine .quiet rfl (.inl rfl) ?_
  intro r' l now
  by_cases same : r' = r
  · subst same
    simp only [goto, Function.update_self, RequestPc.held, Option.some.injEq] at now
    exact .inr now.symm
  · exact .inl (by simpa only [goto, Function.update_of_ne same] using now)

theorem advance_effect {tickers : List StockTicker} {s s' : SubscriptionStore ReqId} {r : ReqId}
    (step : (machine ReqId tickers).step s (.advance r) = some s') : Effect s (.advance r) s' := by
  simp only [machine, SubscriptionStore.step] at step
  cases here : s.pc r with
  | idle => simp [here] at step
  | subscribing ticker =>
    simp only [here, Option.some.injEq] at step
    subst step
    exact effect_of_move (by split <;> rfl) rfl rfl (.inl rfl)
  | inserting ticker =>
    simp only [here] at step
    split at step
    · cases step
    · split at step
      · cases step
        exact effect_of_move rfl rfl rfl (.inl rfl)
      · cases step
        exact effect_of_move rfl rfl rfl (.inl rfl)
  | inserted row =>
    simp only [here, Option.some.injEq] at step
    subst step
    exact effect_of_move rfl rfl rfl (.inr rfl)
  | insertEvicted row =>
    simp only [here, Option.some.injEq] at step
    subst step
    exact .committed (by simp [commits, here]) rfl (goto_held rfl)
  | unsubscribing ticker =>
    simp only [here, Option.some.injEq] at step
    subst step
    exact effect_of_move rfl rfl rfl (.inl rfl)
  | deleting found =>
    simp only [here, Option.some.injEq] at step
    subst step
    exact effect_of_move rfl rfl rfl (.inr rfl)
  | deleteEvicted found =>
    simp only [here, Option.some.injEq] at step
    subst step
    exact effect_of_delete here
  | reading =>
    simp only [here, Option.some.injEq] at step
    subst step
    exact effect_of_move (by split <;> rfl) rfl rfl (.inl rfl)
  | missed =>
    simp only [here, Option.some.injEq] at step
    subst step
    exact effect_of_load
  | loaded l =>
    simp only [here, Option.some.injEq] at step
    subst step
    exact .saved rfl r l (by rw [here]; rfl) rfl (goto_held rfl)

theorem step_effect {tickers : List StockTicker} {s s' : SubscriptionStore ReqId} {a : SubscriptionAction ReqId}
    (step : (machine ReqId tickers).step s a = some s') : Effect s a s' := by
  cases a with
  | subscribe r ticker | unsubscribe r ticker | getSubscriptions r =>
    obtain ⟨-, moved⟩ := Option.ite_none_right_eq_some.1 step
    cases moved
    exact effect_of_move rfl rfl rfl (.inl rfl)
  | advance r => exact advance_effect step
  | fail r =>
    simp only [machine, SubscriptionStore.step] at step
    split at step
    · cases step
    all_goals
      cases step
      exact effect_of_move rfl rfl rfl (.inl rfl)

/-- The entry and every list on its way into it are the committed list. -/
structure Current (s : SubscriptionStore ReqId) : Prop where
  entry : s.Fresh
  held : ∀ r l, (s.pc r).held = some l → l = s.tickers

theorem Current.step {tickers : List StockTicker} {s s' : SubscriptionStore ReqId} {a : SubscriptionAction ReqId}
    (h : s.Current) (clear : s.ClearCommit a) (step : (machine ReqId tickers).step s a = some s') : s'.Current := by
  cases step_effect step with
  | quiet rows entry held =>
    have same : s'.tickers = s.tickers := by rw [SubscriptionStore.tickers, rows, SubscriptionStore.tickers]
    constructor
    · rcases entry with kept | evicted
      · rw [Fresh, kept, same]
        exact h.entry
      · exact .inl evicted
    · intro r l now
      rw [same]
      rcases held r l now with before | fresh
      · exact h.held r l before
      · exact fresh
  | saved rows r l reader entry held =>
    have same : s'.tickers = s.tickers := by rw [SubscriptionStore.tickers, rows, SubscriptionStore.tickers]
    constructor
    · rw [Fresh, entry, same, h.held r l reader, save]
      split
      · exact .inl rfl
      · exact .inr rfl
    · intro r' l' now
      rw [same]
      exact h.held r' l' (held r' l' now)
  | committed commits entry held =>
    obtain ⟨absent, no_reader⟩ := clear commits
    constructor
    · exact .inl (entry.trans absent)
    · intro r l now
      cases (no_reader r).symm.trans (held r l now)

/-- **The cache stays right as long as commits are clear**: in every run in which no commit
meets an entry or a reader that has loaded the list, whenever no request is in progress the
entry is absent or the committed list. -/
theorem cacheFresh_of_clearCommits {tickers : List StockTicker} {acts : List (SubscriptionAction ReqId)}
    (clear : (machine ReqId tickers).Along ClearCommit (start tickers) acts) :
    (machine ReqId tickers).Always (fun s => (∀ r, s.pc r = .idle) → s.Fresh) acts :=
  Machine.always_of_inv (M := machine ReqId tickers) (I := Current)
    (Q := fun s => (∀ r, s.pc r = .idle) → s.Fresh) ⟨.inl rfl, nofun⟩
    (fun _ _ _ _ inv clear step => inv.step clear step) (fun _ _ inv _ => inv.entry) clear

/-- A subscription and then a read, which fills the entry. -/
theorem cacheFresh_of_clearCommits_two :
    (machine Bool ["005930"]).Always (fun s => (∀ r, s.pc r = .idle) → s.Fresh)
      [.subscribe false "000660", .advance false, .advance false, .advance false, .advance false,
        .getSubscriptions true, .advance true, .advance true, .advance true] :=
  cacheFresh_of_clearCommits (Machine.along_of_check
    (p := fun s a => decide (s.ClearCommit a)) (fun _ _ h => of_decide_eq_true h) (by decide +kernel))

/-- A reader between the eviction and the commit of `subscribe` puts the old list back. -/
theorem cache_stays_stale :
    ¬ ∀ (tickers : List StockTicker) (acts : List (SubscriptionAction Bool)),
      (machine Bool tickers).Always (fun s => (∀ r, s.pc r = .idle) → s.Fresh) acts := by
  intro claim
  let acts : List (SubscriptionAction Bool) := [.subscribe false "000660", .advance false, .advance false,
    .advance false, .getSubscriptions true, .advance true, .advance true, .advance true, .advance false]
  obtain ⟨s, run, stale⟩ := Machine.exists_of_any (M := machine Bool ["005930"]) acts
    (fun s => decide ((∀ r, s.pc r = .idle) ∧ s.entry = some "005930" ∧ s.tickers = ["005930", "000660"]))
    (by decide +kernel)
  obtain ⟨idle, entry, rows⟩ := of_decide_eq_true stale
  rcases claim ["005930"] acts acts s List.prefix_rfl run idle with absent | current
  · rw [entry] at absent
    cases absent
  · rw [entry, rows] at current
    revert current
    decide +kernel

end SubscriptionStore

end StockAnomaly.ApiServer
