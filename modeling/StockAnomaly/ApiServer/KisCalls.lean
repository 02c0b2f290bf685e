import StockAnomaly.ApiServer.KisSessions

/-!
# Completed calls of the KIS client

What a call of `subscribe` or `unsubscribe` makes of the client when no session closes
meanwhile and KIS accepts every message: the state at the end of a run of the client
(`subscribed_run`, `unsubscribed_run`), and the set of streamed tickers after it.
-/

namespace StockAnomaly.ApiServer.KisSessions

open StockAnomaly.Theory

variable {T : Type} [DecidableEq T] {s : KisSessions T}

/-- One subscribe message on an open session. -/
def subscribeMessage (s : KisSessions T) (session : ℕ) (ticker : T) : KisSessions T :=
  { s with upstream := Function.update s.upstream session (s.upstream session ∪ [ticker]) }

def unsubscribeMessage (s : KisSessions T) (session : ℕ) (ticker : T) : KisSessions T :=
  { s with upstream := Function.update s.upstream session ((s.upstream session).filter (· ≠ ticker)) }

/-- A new session, registered. -/
def reconnect (s : KisSessions T) : KisSessions T :=
  { s with
    entry := some s.opened, opened := s.opened + 1
    isOpen := Function.update s.isOpen s.opened true
    attributed := Function.update s.attributed s.opened true
    upstream := Function.update s.upstream s.opened [] }

/-- The tickers are wanted from now on. -/
def want (s : KisSessions T) (tickers : List T) : KisSessions T := { s with wanted := s.wanted ∪ tickers }

/-- A call of `subscribe` that completes with every message accepted. -/
def subscribed (s : KisSessions T) (tickers : List T) : KisSessions T :=
  if tickers = [] then s
  else match s.active with
    | some session => tickers.foldl (subscribeMessage · session) (s.want tickers)
    | none => tickers.foldl (subscribeMessage · s.opened) (s.want tickers).reconnect

/-- The tickers are not wanted any more. -/
def forget (s : KisSessions T) (tickers : List T) : KisSessions T :=
  { s with wanted := s.wanted.filter (· ∉ tickers) }

/-- A call of `unsubscribe` that completes with every message accepted. -/
def unsubscribed (s : KisSessions T) (tickers : List T) : KisSessions T :=
  match s.active with
  | some session => tickers.foldl (unsubscribeMessage · session) (s.forget tickers)
  | none => s.forget tickers

/-- The messages of a call on an open session, one for each ticker, are a run. -/
theorem runFrom_messages (point : List T → KisPc T) (message : KisSessions T → T → KisSessions T) {session : ℕ}
    (sends : ∀ (s : KisSessions T) ticker tickers, s.isOpen session = true →
      (machine T).step { s with pc := point (ticker :: tickers) } .sendMessage =
        some { message s ticker with pc := if tickers = [] then .idle else point tickers })
    (keeps : ∀ (s : KisSessions T) ticker, (message s ticker).isOpen = s.isOpen) {tickers : List T}
    (some_ticker : tickers ≠ []) (here : s.isOpen session = true) :
    (machine T).runFrom { s with pc := point tickers } (tickers.map fun _ => .sendMessage) =
      some { tickers.foldl message s with pc := .idle } := by
  induction tickers generalizing s with
  | nil => exact absurd rfl some_ticker
  | cons ticker tickers ih =>
    rw [List.map_cons, Machine.runFrom_cons (sends s ticker tickers here), List.foldl_cons]
    by_cases last : tickers = []
    · subst last
      rfl
    · rw [if_neg last]
      apply ih last
      rw [keeps]
      exact here

theorem runFrom_sending {session : ℕ} {tickers : List T} (some_ticker : tickers ≠ [])
    (here : s.isOpen session = true) :
    (machine T).runFrom { s with pc := .sending session tickers } (tickers.map fun _ => .sendMessage) =
      some { tickers.foldl (subscribeMessage · session) s with pc := .idle } := by
  refine runFrom_messages (.sending session) (subscribeMessage · session) ?_ (fun _ _ => rfl) some_ticker here
  intro s ticker tickers here
  simp only [machine, KisSessions.step, here, if_true, subscribeMessage]

theorem runFrom_unsending {session : ℕ} {tickers : List T} (some_ticker : tickers ≠ [])
    (here : s.isOpen session = true) :
    (machine T).runFrom { s with pc := .unsending session tickers } (tickers.map fun _ => .sendMessage) =
      some { tickers.foldl (unsubscribeMessage · session) s with pc := .idle } := by
  refine runFrom_messages (.unsending session) (unsubscribeMessage · session) ?_ (fun _ _ => rfl) some_ticker here
  intro s ticker tickers here
  simp only [machine, KisSessions.step, here, if_true, unsubscribeMessage]

/-- **A completed call is a run of the client** in which no session closes. -/
theorem subscribed_run (idle : s.pc = .idle) {tickers : List T} (some_ticker : tickers ≠ []) :
    ∃ acts, (machine T).runFrom s acts = some { s.subscribed tickers with pc := .idle } := by
  have called : (machine T).step s (.subscribe tickers) =
      some { s.want tickers with pc := .subscribing tickers } := by
    simp only [machine, KisSessions.step, idle, some_ticker, if_false, want]
  have same : ({ s.want tickers with pc := .subscribing tickers } : KisSessions T).active = s.active := rfl
  unfold subscribed
  rw [if_neg some_ticker]
  cases active : s.active with
  | some session =>
    have looked : (machine T).step { s.want tickers with pc := .subscribing tickers } (.lookup true) =
        some { s.want tickers with pc := .sending session tickers } := by
      simp only [machine, KisSessions.step, same, active, if_true]
    refine ⟨.subscribe tickers :: .lookup true :: tickers.map fun _ => .sendMessage, ?_⟩
    rw [Machine.runFrom_cons called, Machine.runFrom_cons looked]
    exact runFrom_sending (s := s.want tickers) some_ticker (active_eq_some.1 active).2
  | none =>
    have looked : (machine T).step { s.want tickers with pc := .subscribing tickers } (.lookup true) =
        some { s.want tickers with pc := .connecting tickers } := by
      simp only [machine, KisSessions.step, same, active, if_true]
    refine ⟨.subscribe tickers :: .lookup true :: .connect true :: .setAttribute :: .put ::
      tickers.map fun _ => .sendMessage, ?_⟩
    rw [Machine.runFrom_cons called, Machine.runFrom_cons looked, Machine.runFrom_cons rfl,
      Machine.runFrom_cons rfl, Machine.runFrom_cons rfl]
    exact runFrom_sending (s := (s.want tickers).reconnect) some_ticker (Function.update_self ..)

theorem unsubscribed_run (idle : s.pc = .idle) {tickers : List T} (some_ticker : tickers ≠ []) :
    ∃ acts, (machine T).runFrom s acts = some { s.unsubscribed tickers with pc := .idle } := by
  have called : (machine T).step s (.unsubscribe tickers) =
      some { s.forget tickers with pc := .unsubscribing tickers } := by
    simp only [machine, KisSessions.step, idle, some_ticker, if_false, forget]
  have same : ({ s.forget tickers with pc := .unsubscribing tickers } : KisSessions T).active = s.active := rfl
  unfold unsubscribed
  cases active : s.active with
  | some session =>
    have looked : (machine T).step { s.forget tickers with pc := .unsubscribing tickers } (.lookup true) =
        some { s.forget tickers with pc := .unsending session tickers } := by
      simp only [machine, KisSessions.step, same, active, if_true]
    refine ⟨.unsubscribe tickers :: .lookup true :: tickers.map fun _ => .sendMessage, ?_⟩
    rw [Machine.runFrom_cons called, Machine.runFrom_cons looked]
    exact runFrom_unsending (s := s.forget tickers) some_ticker (active_eq_some.1 active).2
  | none =>
    have looked : (machine T).step { s.forget tickers with pc := .unsubscribing tickers } (.lookup true) =
        some { s.forget tickers with pc := .idle } := by
      simp only [machine, KisSessions.step, same, active]
    refine ⟨[.unsubscribe tickers, .lookup true], ?_⟩
    rw [Machine.runFrom_cons called, Machine.runFrom_cons looked]
    rfl

/-- What KIS streams to the app key. -/
def Streams (s : KisSessions T) (ticker : T) : Prop :=
  ∃ session, s.active = some session ∧ ticker ∈ s.upstream session

omit [DecidableEq T] in
theorem streams_iff {session : ℕ} (active : s.active = some session) (ticker : T) :
    s.Streams ticker ↔ ticker ∈ s.upstream session := by
  simp [Streams, active]

omit [DecidableEq T] in
theorem not_streams (inactive : s.active = none) (ticker : T) : ¬ s.Streams ticker := by
  simp [Streams, inactive]

theorem foldl_subscribeMessage (s : KisSessions T) (session : ℕ) (tickers : List T) :
    (tickers.foldl (subscribeMessage · session) s).active = s.active ∧
      ∀ ticker, ticker ∈ (tickers.foldl (subscribeMessage · session) s).upstream session ↔
        ticker ∈ s.upstream session ∨ ticker ∈ tickers := by
  induction tickers generalizing s with
  | nil => simp
  | cons first tickers ih =>
    obtain ⟨active, upstream⟩ := ih (s.subscribeMessage session first)
    refine ⟨active, ?_⟩
    intro ticker
    rw [List.foldl_cons, upstream, List.mem_cons]
    simp [subscribeMessage, or_assoc]

theorem foldl_unsubscribeMessage (s : KisSessions T) (session : ℕ) (tickers : List T) :
    (tickers.foldl (unsubscribeMessage · session) s).active = s.active ∧
      ∀ ticker, ticker ∈ (tickers.foldl (unsubscribeMessage · session) s).upstream session ↔
        ticker ∈ s.upstream session ∧ ticker ∉ tickers := by
  induction tickers generalizing s with
  | nil => simp
  | cons first tickers ih =>
    obtain ⟨active, upstream⟩ := ih (s.unsubscribeMessage session first)
    refine ⟨active, ?_⟩
    intro ticker
    rw [List.foldl_cons, upstream, List.mem_cons]
    simp [unsubscribeMessage, and_assoc]

omit [DecidableEq T] in
theorem active_reconnect (s : KisSessions T) : s.reconnect.active = some s.opened :=
  active_eq_some.2 ⟨rfl, Function.update_self ..⟩

/-- A completed call of `subscribe` adds its tickers to the stream. -/
theorem streams_subscribed (s : KisSessions T) (tickers : List T) (ticker : T) :
    (s.subscribed tickers).Streams ticker ↔ s.Streams ticker ∨ ticker ∈ tickers := by
  have kept : (s.want tickers).active = s.active := rfl
  unfold subscribed
  by_cases none_named : tickers = []
  · simp [none_named]
  · rw [if_neg none_named]
    cases active : s.active with
    | some session =>
      obtain ⟨same, upstream⟩ := foldl_subscribeMessage (s.want tickers) session tickers
      rw [streams_iff (same.trans (kept.trans active)), streams_iff active, upstream]
      rfl
    | none =>
      obtain ⟨same, upstream⟩ := foldl_subscribeMessage (s.want tickers).reconnect s.opened tickers
      have empty : (s.want tickers).reconnect.upstream s.opened = [] := Function.update_self ..
      have active_new : (s.want tickers).reconnect.active = some s.opened := (s.want tickers).active_reconnect
      simp only
      rw [streams_iff (same.trans active_new), upstream, empty]
      simp [not_streams active ticker]

/-- A completed call of `unsubscribe` takes its tickers off the stream. -/
theorem streams_unsubscribed (s : KisSessions T) (tickers : List T) (ticker : T) :
    (s.unsubscribed tickers).Streams ticker ↔ s.Streams ticker ∧ ticker ∉ tickers := by
  have kept : (s.forget tickers).active = s.active := rfl
  unfold unsubscribed
  cases active : s.active with
  | some session =>
    obtain ⟨same, upstream⟩ := foldl_unsubscribeMessage (s.forget tickers) session tickers
    rw [streams_iff (same.trans (kept.trans active)), streams_iff active, upstream]
    rfl
  | none =>
    have gone := not_streams (kept.trans active) ticker
    simp [gone, not_streams active ticker]

end StockAnomaly.ApiServer.KisSessions
