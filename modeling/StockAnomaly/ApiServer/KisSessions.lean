import Mathlib.Data.List.Basic
import Mathlib.Logic.Function.Basic
import StockAnomaly.Theory.Machine

/-!
# `KisWebSocketClient` for one app key

`subscribe` and `unsubscribe` are `synchronized`, so one call at a time runs; the remote
side may close a session at any moment, and `afterConnectionClosed` runs at any later one.
The callback removes the entry of the *app key*, which may by then be a newer session, and
a reconnect sends the tickers of its own call only. While neither matters, and no call is
refused an approval key on an open session, the one open session is the registered one and
has every ticker of an earlier call: **`sessionsSurvive_of_steady`**.
-/

namespace StockAnomaly.ApiServer

open StockAnomaly.Theory

/-- Where the call in progress stands, with its locals. -/
inductive KisPc (T : Type)
  | idle
  | subscribing (tickers : List T)
  /-- There was no open session and one is being opened. -/
  | connecting (tickers : List T)
  /-- `client.execute` has returned a session, without attributes so far. -/
  | connected (session : ℕ) (tickers : List T)
  /-- Its `appKey` attribute is set. -/
  | attributed (session : ℕ) (tickers : List T)
  /-- The subscribe messages that remain. -/
  | sending (session : ℕ) (tickers : List T)
  | unsubscribing (tickers : List T)
  | unsending (session : ℕ) (tickers : List T)

/-- The tickers of a call of `subscribe` that has no session yet. -/
def KisPc.requested {T : Type} : KisPc T → Option (List T)
  | .subscribing tickers | .connecting tickers => some tickers
  | _ => none

/-- Sessions are numbered in the order in which they were opened. -/
structure KisSessions (T : Type) where
  /-- The entry of the app key in `sessions`. -/
  entry : Option ℕ
  opened : ℕ
  isOpen : ℕ → Bool
  /-- The sessions with the `appKey` attribute. -/
  attributed : ℕ → Bool
  /-- The sessions whose `afterConnectionClosed` is due. -/
  closing : List ℕ
  /-- What KIS streams on a session. -/
  upstream : ℕ → List T
  /-- Named in a call of `subscribe`, and not unsubscribed since. -/
  wanted : List T
  pc : KisPc T

inductive KisAction (T : Type)
  | subscribe (tickers : List T)
  | unsubscribe (tickers : List T)
  /-- The approval key is there, or not; then the entry is looked up. -/
  | lookup (approved : Bool)
  /-- `client.execute` succeeds, or throws. -/
  | connect (succeeded : Bool)
  | setAttribute
  | put
  | sendMessage
  | closeRemote (session : ℕ)
  | afterConnectionClosed (session : ℕ)

namespace KisSessions

variable {T : Type} [DecidableEq T]

def start : KisSessions T := ⟨none, 0, fun _ => false, fun _ => false, [], fun _ => [], [], .idle⟩

/-- The entry, if that session is open. -/
def active (s : KisSessions T) : Option ℕ := s.entry.filter s.isOpen

def step (s : KisSessions T) : KisAction T → Option (KisSessions T)
  | .subscribe tickers =>
    match s.pc with
    | .idle => some (if tickers = [] then s else
        { s with pc := .subscribing tickers, wanted := s.wanted ∪ tickers })
    | _ => none
  | .unsubscribe tickers =>
    match s.pc with
    | .idle => some (if tickers = [] then s else
        { s with pc := .unsubscribing tickers, wanted := s.wanted.filter (· ∉ tickers) })
    | _ => none
  | .lookup approved =>
    match s.pc with
    | .subscribing tickers => some { s with
        pc := if approved then
            match s.active with
            | some session => .sending session tickers
            | none => .connecting tickers
          else .idle }
    | .unsubscribing tickers => some { s with
        pc := match s.active with
          | some session => if approved then .unsending session tickers else .idle
          | none => .idle }
    | _ => none
  | .connect succeeded =>
    match s.pc with
    | .connecting tickers => some (if succeeded then
        { s with
          pc := .connected s.opened tickers, opened := s.opened + 1
          isOpen := Function.update s.isOpen s.opened true
          upstream := Function.update s.upstream s.opened [] }
        else { s with pc := .idle })
    | _ => none
  | .setAttribute =>
    match s.pc with
    | .connected session tickers => some { s with
        pc := .attributed session tickers, attributed := Function.update s.attributed session true }
    | _ => none
  | .put =>
    match s.pc with
    | .attributed session tickers => some { s with pc := .sending session tickers, entry := some session }
    | _ => none
  | .sendMessage =>
    match s.pc with
    | .sending session (ticker :: tickers) => some (if s.isOpen session then
        { s with
          pc := if tickers = [] then .idle else .sending session tickers
          upstream := Function.update s.upstream session (s.upstream session ∪ [ticker]) }
        else { s with pc := .idle })
    | .unsending session (ticker :: tickers) => some (if s.isOpen session then
        { s with
          pc := if tickers = [] then .idle else .unsending session tickers
          upstream := Function.update s.upstream session ((s.upstream session).filter (· ≠ ticker)) }
        else { s with pc := .idle })
    | _ => none
  | .closeRemote session =>
    if s.isOpen session then
      some { s with isOpen := Function.update s.isOpen session false, closing := session :: s.closing }
    else none
  | .afterConnectionClosed session =>
    if session ∈ s.closing then
      some { s with
        closing := s.closing.erase session
        entry := if s.attributed session then none else s.entry }
    else none

def machine (T : Type) [DecidableEq T] : Machine (KisSessions T) (KisAction T) where
  init := start
  step := step

/-- The open session is the registered one and streams every wanted ticker. -/
structure Survives (s : KisSessions T) : Prop where
  unique : ∀ m n, s.isOpen m = true → s.isOpen n = true → m = n
  registered : ∀ n, s.isOpen n = true → s.entry = some n
  streamed : ∀ n, s.isOpen n = true → ∀ ticker ∈ s.wanted, ticker ∈ s.upstream n

/-- A close callback removes no entry of an open session, a call that reconnects names every
wanted ticker, and a call without an approval key names nothing new on an open session. -/
def Steady (s : KisSessions T) : KisAction T → Prop
  | .afterConnectionClosed session => s.attributed session = true → s.active = none
  | .lookup approved => approved = false →
      ∀ session ∈ s.active, ∀ tickers ∈ s.pc.requested, ∀ ticker ∈ tickers, ticker ∈ s.upstream session
  | .connect succeeded => succeeded = true → ∀ tickers ∈ s.pc.requested, ∀ ticker ∈ s.wanted, ticker ∈ tickers
  | _ => True

instance (s : KisSessions T) : (a : KisAction T) → Decidable (s.Steady a)
  | .afterConnectionClosed session => inferInstanceAs (Decidable (s.attributed session = true → s.active = none))
  | .lookup approved => inferInstanceAs (Decidable (approved = false →
      ∀ session ∈ s.active, ∀ tickers ∈ s.pc.requested, ∀ ticker ∈ tickers, ticker ∈ s.upstream session))
  | .connect succeeded => inferInstanceAs (Decidable (succeeded = true →
      ∀ tickers ∈ s.pc.requested, ∀ ticker ∈ s.wanted, ticker ∈ tickers))
  | .subscribe _ | .unsubscribe _ | .setAttribute | .put | .sendMessage | .closeRemote _ =>
    inferInstanceAs (Decidable True)

variable {s s' : KisSessions T}

section Invariant

omit [DecidableEq T]

/-- While a call works on a session, no other one is open, and an open one is registered. -/
structure Holds (s : KisSessions T) (session : ℕ) : Prop where
  sole : ∀ m, s.isOpen m = true → m = session
  registered : s.isOpen session = true → s.entry = some session

/-- The client survives, but for the tickers of a call that has sent nothing. -/
structure Pending (s : KisSessions T) (tickers : List T) : Prop where
  unique : ∀ m n, s.isOpen m = true → s.isOpen n = true → m = n
  registered : ∀ n, s.isOpen n = true → s.entry = some n
  streamed : ∀ n, s.isOpen n = true → ∀ ticker ∈ s.wanted, ticker ∈ s.upstream n ∨ ticker ∈ tickers

/-- What the call in progress relies on. -/
def Phase (s : KisSessions T) : Prop :=
  match s.pc with
  | .idle => s.Survives
  | .subscribing tickers => s.Pending tickers
  | .connecting _ => ∀ m, s.isOpen m = false
  | .connected session tickers | .attributed session tickers =>
    (∀ m, s.isOpen m = true → m = session) ∧ ∀ ticker ∈ s.wanted, ticker ∈ tickers
  | .sending session tickers => s.Holds session ∧
      (s.isOpen session = true → ∀ ticker ∈ s.wanted, ticker ∈ s.upstream session ∨ ticker ∈ tickers)
  | .unsubscribing tickers => s.Survives ∧ ∀ ticker ∈ s.wanted, ticker ∉ tickers
  | .unsending session tickers => s.Holds session ∧ (∀ ticker ∈ s.wanted, ticker ∉ tickers) ∧
      (s.isOpen session = true → ∀ ticker ∈ s.wanted, ticker ∈ s.upstream session)

/-- Without an open session nothing can be lost. -/
theorem survives_of_closed (closed : ∀ n, s.isOpen n = false) : s.Survives where
  unique m _ here := by simp [closed m] at here
  registered n here := by simp [closed n] at here
  streamed n here := by simp [closed n] at here

theorem active_eq_some {n : ℕ} : s.active = some n ↔ s.entry = some n ∧ s.isOpen n = true := by
  simp [active, Option.filter_eq_some_iff]

theorem Survives.pending (h : s.Survives) (tickers : List T) : s.Pending tickers :=
  ⟨h.unique, h.registered, fun n here ticker mem => .inl (h.streamed n here ticker mem)⟩

theorem Pending.survives {tickers : List T} (h : s.Pending tickers)
    (sent : ∀ n, s.isOpen n = true → ∀ ticker ∈ tickers, ticker ∈ s.upstream n) : s.Survives :=
  ⟨h.unique, h.registered, fun n here ticker mem => (h.streamed n here ticker mem).elim id (sent n here ticker)⟩

/-- With no active entry, the client has no open session. -/
theorem Pending.closed {tickers : List T} (h : s.Pending tickers) (inactive : s.active = none) (n : ℕ) :
    s.isOpen n = false := by
  by_contra here
  have here : s.isOpen n = true := by simpa using here
  have active := active_eq_some.2 ⟨h.registered n here, here⟩
  rw [inactive] at active
  cases active

theorem Pending.holds {tickers : List T} (h : s.Pending tickers) {n : ℕ} (active : s.active = some n) :
    s.Holds n where
  sole m here := h.unique m n here (active_eq_some.1 active).2
  registered _ := (active_eq_some.1 active).1

theorem Holds.survives {n : ℕ} (h : s.Holds n)
    (streamed : s.isOpen n = true → ∀ ticker ∈ s.wanted, ticker ∈ s.upstream n) : s.Survives where
  unique m k here there := (h.sole m here).trans (h.sole k there).symm
  registered m here := by
    obtain rfl := h.sole m here
    exact h.registered here
  streamed m here := by
    obtain rfl := h.sole m here
    exact streamed here

theorem Survives.at (h : s.Survives) (pc : KisPc T) : { s with pc := pc }.Survives :=
  ⟨h.unique, h.registered, h.streamed⟩

theorem Holds.at {n : ℕ} (h : s.Holds n) (pc : KisPc T) : { s with pc := pc }.Holds n := ⟨h.sole, h.registered⟩

/-- A call whose session has closed leaves nothing open. -/
theorem Holds.ends {n : ℕ} (h : s.Holds n) (closed : s.isOpen n = false) : { s with pc := .idle }.Survives := by
  apply (h.at .idle).survives
  intro here
  rw [show s.isOpen n = true from here] at closed
  cases closed

/-- Fewer open sessions, those with an entry among them keeping it, leave what a call relies on. -/
theorem Phase.fewer (h : s.Phase) (pc : s'.pc = s.pc) (wanted : s'.wanted = s.wanted)
    (upstream : s'.upstream = s.upstream) (isOpen : ∀ n, s'.isOpen n = true → s.isOpen n = true)
    (entry : ∀ n, s'.isOpen n = true → s.entry = some n → s'.entry = some n) : s'.Phase := by
  have pending : ∀ tickers, s.Pending tickers → s'.Pending tickers := by
    intro tickers h
    refine ⟨fun m n here there => h.unique m n (isOpen m here) (isOpen n there), ?_, ?_⟩
    · intro n here
      exact entry n here (h.registered n (isOpen n here))
    · intro n here
      rw [upstream, wanted]
      exact h.streamed n (isOpen n here)
  have survives : s.Survives → s'.Survives := fun h => (pending [] (h.pending [])).survives fun _ _ _ => nofun
  have holds : ∀ n, s.Holds n → s'.Holds n := by
    intro n h
    refine ⟨fun m here => h.sole m (isOpen m here), ?_⟩
    intro here
    exact entry n here (h.registered (isOpen n here))
  unfold Phase at h ⊢
  rw [pc]
  split at h
  · exact survives h
  · exact pending _ h
  · intro m
    by_contra here
    have here := isOpen m (by simpa using here)
    rw [h m] at here
    cases here
  · exact ⟨fun m here => h.1 m (isOpen m here), wanted ▸ h.2⟩
  · exact ⟨fun m here => h.1 m (isOpen m here), wanted ▸ h.2⟩
  · refine ⟨holds _ h.1, ?_⟩
    intro here
    rw [upstream, wanted]
    exact h.2 (isOpen _ here)
  · exact ⟨survives h.1, wanted ▸ h.2⟩
  · refine ⟨holds _ h.1, wanted ▸ h.2.1, ?_⟩
    intro here
    rw [upstream, wanted]
    exact h.2.2 (isOpen _ here)

end Invariant

/-- The call looks for an open session. -/
theorem Phase.lookup (h : s.Phase) {approved : Bool} (steady : s.Steady (.lookup approved))
    (step : (machine T).step s (.lookup approved) = some s') : s'.Phase := by
  cases pc : s.pc with
  | subscribing tickers =>
    simp only [machine, KisSessions.step, pc, Option.some.injEq] at step
    simp only [Phase, pc] at h
    subst step
    cases approved with
    | false =>
      refine (h.survives ?_).at .idle
      intro n here
      exact steady rfl n (active_eq_some.2 ⟨h.registered n here, here⟩) tickers (by simp [pc, KisPc.requested])
    | true =>
      cases active : s.active with
      | some session =>
        simp only [Phase, if_true]
        exact ⟨(h.holds active).at _, h.streamed session⟩
      | none =>
        simp only [Phase, if_true]
        exact h.closed active
  | unsubscribing tickers =>
    simp only [machine, KisSessions.step, pc, Option.some.injEq] at step
    simp only [Phase, pc] at h
    subst step
    cases active : s.active with
    | none => exact h.1.at .idle
    | some session =>
      cases approved with
      | false => exact h.1.at .idle
      | true => exact ⟨((h.1.pending []).holds active).at _, h.2, h.1.streamed session⟩
  | _ => simp [machine, KisSessions.step, pc] at step

/-- A new session is opened, and there was no other one. -/
theorem Phase.connect (h : s.Phase) {succeeded : Bool} (steady : s.Steady (.connect succeeded))
    (step : (machine T).step s (.connect succeeded) = some s') : s'.Phase := by
  cases pc : s.pc with
  | connecting tickers =>
    simp only [machine, KisSessions.step, pc, Option.some.injEq] at step
    simp only [Phase, pc] at h
    subst step
    cases succeeded with
    | false => exact survives_of_closed h
    | true =>
      have only : ∀ m, Function.update s.isOpen s.opened true m = true → m = s.opened := by
        intro m here
        by_contra other
        rw [Function.update_of_ne other, h m] at here
        cases here
      exact ⟨only, steady rfl tickers (by simp [pc, KisPc.requested])⟩
  | _ => simp [machine, KisSessions.step, pc] at step

/-- The entry now is the new session. -/
theorem Phase.put (h : s.Phase) (step : (machine T).step s .put = some s') : s'.Phase := by
  cases pc : s.pc with
  | attributed session tickers =>
    simp only [machine, KisSessions.step, pc, Option.some.injEq] at step
    simp only [Phase, pc] at h
    subst step
    exact ⟨⟨h.1, fun _ => rfl⟩, fun _ ticker mem => .inr (h.2 ticker mem)⟩
  | _ => simp [machine, KisSessions.step, pc] at step

omit [DecidableEq T] in
/-- The last message of a call leaves a surviving client. -/
theorem phase_sending {session : ℕ} {tickers : List T} (holds : s.Holds session)
    (pc : s.pc = if tickers = [] then .idle else .sending session tickers)
    (pending : s.isOpen session = true → ∀ ticker ∈ s.wanted, ticker ∈ s.upstream session ∨ ticker ∈ tickers) :
    s.Phase := by
  unfold Phase
  by_cases last : tickers = []
  · subst last
    simp only [pc, if_true]
    exact holds.survives fun here ticker mem => by simpa using pending here ticker mem
  · simp only [pc, last, if_false]
    exact ⟨holds, pending⟩

omit [DecidableEq T] in
theorem phase_unsending {session : ℕ} {tickers : List T} (holds : s.Holds session)
    (pc : s.pc = if tickers = [] then .idle else .unsending session tickers)
    (unwanted : ∀ ticker ∈ s.wanted, ticker ∉ tickers)
    (streamed : s.isOpen session = true → ∀ ticker ∈ s.wanted, ticker ∈ s.upstream session) : s.Phase := by
  unfold Phase
  by_cases last : tickers = []
  · simp only [pc, last, if_true]
    exact holds.survives streamed
  · simp only [pc, last, if_false]
    exact ⟨holds, unwanted, streamed⟩

theorem Phase.send {session : ℕ} {ticker : T} {tickers : List T} (h : s.Phase)
    (pc : s.pc = .sending session (ticker :: tickers)) (step : (machine T).step s .sendMessage = some s') :
    s'.Phase := by
  simp only [machine, KisSessions.step, pc, Option.some.injEq] at step
  simp only [Phase, pc] at h
  obtain ⟨holds, pending⟩ := h
  cases here : s.isOpen session with
  | false =>
    rw [here, if_neg Bool.false_ne_true] at step
    subst step
    exact holds.ends here
  | true =>
    rw [here, if_pos rfl] at step
    subst step
    refine phase_sending ⟨holds.sole, holds.registered⟩ rfl ?_
    intro _ t mem
    simp only [Function.update_self, List.mem_union_iff, List.mem_singleton]
    rcases pending here t mem with streamed | pending
    · exact .inl (.inl streamed)
    · rcases List.mem_cons.1 pending with rfl | later
      · exact .inl (.inr rfl)
      · exact .inr later

theorem Phase.unsend {session : ℕ} {ticker : T} {tickers : List T} (h : s.Phase)
    (pc : s.pc = .unsending session (ticker :: tickers)) (step : (machine T).step s .sendMessage = some s') :
    s'.Phase := by
  simp only [machine, KisSessions.step, pc, Option.some.injEq] at step
  simp only [Phase, pc] at h
  obtain ⟨holds, unwanted, streamed⟩ := h
  cases here : s.isOpen session with
  | false =>
    rw [here, if_neg Bool.false_ne_true] at step
    subst step
    exact holds.ends here
  | true =>
    rw [here, if_pos rfl] at step
    subst step
    refine phase_unsending ⟨holds.sole, holds.registered⟩ rfl ?_ ?_
    · intro t mem later
      exact unwanted t mem (List.mem_cons_of_mem _ later)
    · intro _ t mem
      have other : t ≠ ticker := by
        rintro rfl
        exact unwanted t mem (List.mem_cons_self ..)
      simp only [Function.update_self, List.mem_filter, decide_eq_true_eq]
      exact ⟨streamed here t mem, other⟩

/-- A message goes out on the open session, or the call ends on a closed one. -/
theorem Phase.sendMessage (h : s.Phase) (step : (machine T).step s .sendMessage = some s') : s'.Phase := by
  cases pc : s.pc with
  | sending session tickers =>
    cases tickers with
    | nil => simp [machine, KisSessions.step, pc] at step
    | cons ticker tickers => exact h.send pc step
  | unsending session tickers =>
    cases tickers with
    | nil => simp [machine, KisSessions.step, pc] at step
    | cons ticker tickers => exact h.unsend pc step
  | _ => simp [machine, KisSessions.step, pc] at step

/-- A call begins, and its tickers are wanted. -/
theorem Phase.subscribe (h : s.Phase) {tickers : List T} (step : (machine T).step s (.subscribe tickers) = some s') :
    s'.Phase := by
  cases pc : s.pc with
  | idle =>
    simp only [machine, KisSessions.step, pc, Option.some.injEq] at step
    have survives : s.Survives := by simpa only [Phase, pc] using h
    subst step
    split
    · exact h
    · refine ⟨survives.unique, survives.registered, ?_⟩
      intro n here ticker mem
      exact (List.mem_union_iff.1 mem).imp_left (survives.streamed n here ticker)
  | _ => simp [machine, KisSessions.step, pc] at step

/-- What `unsubscribe` names is not wanted any more. -/
theorem Phase.unsubscribe (h : s.Phase) {tickers : List T}
    (step : (machine T).step s (.unsubscribe tickers) = some s') : s'.Phase := by
  cases pc : s.pc with
  | idle =>
    simp only [machine, KisSessions.step, pc, Option.some.injEq] at step
    have survives : s.Survives := by simpa only [Phase, pc] using h
    subst step
    split
    · exact h
    · refine ⟨⟨survives.unique, survives.registered, ?_⟩, ?_⟩
      · intro n here ticker mem
        exact survives.streamed n here ticker (List.mem_filter.1 mem).1
      · intro ticker mem
        exact of_decide_eq_true (List.mem_filter.1 mem).2
  | _ => simp [machine, KisSessions.step, pc] at step

theorem Phase.step {a : KisAction T} (h : s.Phase) (steady : s.Steady a) (step : (machine T).step s a = some s') :
    s'.Phase := by
  cases a with
  | subscribe tickers => exact h.subscribe step
  | unsubscribe tickers => exact h.unsubscribe step
  | lookup approved => exact h.lookup steady step
  | connect succeeded => exact h.connect steady step
  | setAttribute =>
    cases pc : s.pc with
    | connected session tickers =>
      simp only [machine, KisSessions.step, pc, Option.some.injEq] at step
      simp only [Phase, pc] at h
      subst step
      exact h
    | _ => simp [machine, KisSessions.step, pc] at step
  | put => exact h.put step
  | sendMessage => exact h.sendMessage step
  | closeRemote session =>
    obtain ⟨-, closed⟩ := Option.ite_none_right_eq_some.1 step
    cases closed
    have smaller : ∀ n, Function.update s.isOpen session false n = true → s.isOpen n = true := by
      intro n here
      by_cases same : n = session
      · subst same
        simp at here
      · rwa [Function.update_of_ne same] at here
    exact h.fewer rfl rfl rfl smaller fun _ _ registered => registered
  | afterConnectionClosed session =>
    obtain ⟨-, removed⟩ := Option.ite_none_right_eq_some.1 step
    cases removed
    cases attributed : s.attributed session with
    | false => exact h.fewer rfl rfl rfl (fun _ here => here) fun _ _ registered => registered
    | true =>
      refine h.fewer rfl rfl rfl (fun _ here => here) ?_
      intro n here registered
      have active : s.active = some n := active_eq_some.2 ⟨registered, here⟩
      rw [steady attributed] at active
      cases active

/-- **KIS sessions survive as long as the run is steady**: if no close callback removes the
entry of an open session, every call that reconnects names all wanted tickers, and no call
with new tickers is refused an approval key while a session is open, then whenever no call is
in progress at most one session is open, the map points to it, and it streams every ticker
subscribed and not unsubscribed since. -/
theorem sessionsSurvive_of_steady {acts : List (KisAction T)} (steady : (machine T).Along Steady start acts) :
    (machine T).Always (fun s => s.pc = .idle → s.Survives) acts := by
  refine Machine.always_of_inv (M := machine T) (I := Phase) (Q := fun s => s.pc = .idle → s.Survives)
    (survives_of_closed fun _ => rfl) (fun _ _ _ _ inv steady step => inv.step steady step) ?_ steady
  intro s _ phase idle
  simpa only [Phase, idle] using phase

/-- The connection drops after the first of two messages, and the next call, which reconnects,
names both tickers again; one of them is given up, and a call without a key repeats the other. -/
theorem sessionsSurvive_of_steady_renamed : (machine String).Always (fun s => s.pc = .idle → s.Survives)
    [.subscribe ["005930", "000660"], .lookup true, .connect true, .setAttribute, .put, .sendMessage, .closeRemote 0,
      .sendMessage, .afterConnectionClosed 0, .subscribe ["005930", "000660"], .lookup true, .connect true,
      .setAttribute, .put, .sendMessage, .sendMessage, .unsubscribe ["005930"], .lookup true, .sendMessage,
      .subscribe ["000660"], .lookup false] :=
  sessionsSurvive_of_steady (Machine.along_of_check
    (p := fun s a => decide (s.Steady a)) (fun _ _ h => of_decide_eq_true h) (by decide +kernel))

/-- The connection drops, and a subscription of another ticker reconnects. -/
theorem ticker_lost_by_reconnect :
    ¬ ∀ acts : List (KisAction String), (machine String).Always (fun s => s.pc = .idle → s.Survives) acts := by
  intro claim
  let acts : List (KisAction String) := [.subscribe ["005930"], .lookup true, .connect true, .setAttribute, .put,
    .sendMessage, .closeRemote 0, .afterConnectionClosed 0, .subscribe ["000660"], .lookup true, .connect true,
    .setAttribute, .put, .sendMessage]
  obtain ⟨s, run, lost⟩ := Machine.exists_of_any (M := machine String) acts
    (fun s => s.pc matches .idle && decide (s.isOpen 1 = true ∧ "005930" ∈ s.wanted ∧ "005930" ∉ s.upstream 1))
    (by decide +kernel)
  obtain ⟨idle, lost⟩ := Bool.and_eq_true_iff.1 lost
  obtain ⟨here, wanted, missing⟩ := of_decide_eq_true lost
  have pc : s.pc = .idle := by
    cases pc : s.pc <;> simp [pc] at idle ⊢
  exact missing ((claim acts acts s List.prefix_rfl run pc).streamed 1 here "005930" wanted)

end KisSessions

end StockAnomaly.ApiServer
