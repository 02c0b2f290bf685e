import Mathlib.Logic.Function.Basic
import StockAnomaly.Theory.Machine

/-!
# `SseService`

Emitters are numbered in the order of their creation. `emitters.put` is the only access of
`subscribe` to the map, and there the call takes effect. A callback of an emitter may run
at any time and any number of times, and it removes the entry of the *user*; so does a
sender after a failed send, which may by then belong to a newer emitter. The newest
emitter of a user stays reachable exactly when no removal meets another one that is live:
**`reachable_iff`**.
-/

namespace StockAnomaly.ApiServer

open StockAnomaly.Theory

/-- Where a thread stands in `sendToUser` or in one round of a broadcast's `forEach`. -/
inductive SenderPc (User : Type)
  | idle
  /-- The entry of a user was read. -/
  | sending (user : User) (emitter : ℕ)
  /-- The send threw `IOException`. -/
  | removing (user : User)

structure SseService (User Tid : Type) where
  emitters : User → Option ℕ
  /-- The users of all emitters so far. -/
  created : List User
  /-- The emitter that `subscribe` returned last. -/
  latest : User → Option ℕ
  /-- The emitters that completed, timed out, erred or failed a send. -/
  ended : List ℕ
  sender : Tid → SenderPc User

inductive SseAction (User Tid : Type)
  /-- `failed`: the initial message threw `IOException`. -/
  | subscribe (user : User) (failed : Bool)
  /-- `onCompletion`, `onTimeout` or `onError` of the emitter. -/
  | callback (emitter : ℕ)
  | pick (t : Tid) (user : User)
  | send (t : Tid) (failed : Bool)
  | remove (t : Tid)

namespace SseService

variable {User Tid : Type} [DecidableEq User] [DecidableEq Tid]

def start : SseService User Tid := ⟨fun _ => none, [], fun _ => none, [], fun _ => .idle⟩

def goto (s : SseService User Tid) (t : Tid) (pc : SenderPc User) : SseService User Tid :=
  { s with sender := Function.update s.sender t pc }

/-- `emitters.remove(user)`. -/
def removeKey (s : SseService User Tid) (user : User) : SseService User Tid :=
  { s with emitters := Function.update s.emitters user none }

def step (s : SseService User Tid) : SseAction User Tid → Option (SseService User Tid)
  | .subscribe user failed =>
    let emitter := s.created.length
    some { s with
      emitters := Function.update s.emitters user (some emitter)
      created := s.created ++ [user]
      latest := Function.update s.latest user (some emitter)
      ended := if failed then emitter :: s.ended else s.ended }
  | .callback emitter => s.created[emitter]?.map fun user =>
      { s with ended := emitter :: s.ended }.removeKey user
  | .pick t user =>
    match s.sender t with
    | .idle => some (match s.emitters user with
      | some emitter => s.goto t (.sending user emitter)
      | none => s)
    | _ => none
  | .send t failed =>
    match s.sender t with
    | .sending user emitter => some (if failed then
        { s.goto t (.removing user) with ended := emitter :: s.ended } else s.goto t .idle)
    | _ => none
  | .remove t =>
    match s.sender t with
    | .removing user => some ((s.goto t .idle).removeKey user)
    | _ => none

def machine (User Tid : Type) [DecidableEq User] [DecidableEq Tid] :
    Machine (SseService User Tid) (SseAction User Tid) where
  init := start
  step := step

/-- The newest emitter of a user is `emitter`, and it has not ended. -/
def Live (s : SseService User Tid) (user : User) (emitter : ℕ) : Prop :=
  s.latest user = some emitter ∧ emitter ∉ s.ended

/-- Every live connection is found by `sendToUser` and the broadcasts. -/
def Reached (s : SseService User Tid) : Prop :=
  ∀ user emitter, s.Live user emitter → s.emitters user = some emitter

/-- The action removes the entry of a user, on behalf of an emitter that ends with it or,
after a failed send, has ended before. -/
def removes (s : SseService User Tid) : SseAction User Tid → Option (User × Option ℕ)
  | .callback emitter => s.created[emitter]?.map fun user => (user, some emitter)
  | .remove t =>
    match s.sender t with
    | .removing user => some (user, none)
    | _ => none
  | _ => none

/-- No entry is removed while the user's newest emitter is another, live one. -/
def SparesLive (s : SseService User Tid) (a : SseAction User Tid) : Prop :=
  ∀ user ending, s.removes a = some (user, ending) → ∀ emitter, s.Live user emitter → ending = some emitter

instance (s : SseService User Tid) (a : SseAction User Tid) : Decidable (s.SparesLive a) :=
  decidable_of_iff
    (∀ entry ∈ s.removes a, ∀ emitter ∈ s.latest entry.1, emitter ∉ s.ended → entry.2 = some emitter)
    ⟨fun h user ending removes emitter live => h (user, ending) removes emitter live.1 live.2,
      fun h entry removes emitter newest live => h entry.1 entry.2 removes emitter ⟨newest, live⟩⟩

variable {s s' : SseService User Tid}

omit [DecidableEq User] [DecidableEq Tid] in
/-- A step that leaves the map and the newest emitters alone and revives nobody. -/
theorem Reached.frame (h : s.Reached) (emitters : s'.emitters = s.emitters) (latest : s'.latest = s.latest)
    (ended : ∀ e ∈ s.ended, e ∈ s'.ended) : s'.Reached := by
  rintro user emitter ⟨newest, live⟩
  rw [emitters]
  rw [latest] at newest
  exact h user emitter ⟨newest, fun mem => live (ended emitter mem)⟩

theorem Reached.subscribe (h : s.Reached) {user : User} {failed : Bool}
    (step : (machine User Tid).step s (.subscribe user failed) = some s') : s'.Reached := by
  cases step
  rintro u e ⟨newest, live⟩
  by_cases same : u = user
  · subst same
    simpa using newest
  · simp only [Function.update_of_ne same] at newest ⊢
    apply h u e ⟨newest, ?_⟩
    intro mem
    apply live
    simp only
    split
    · exact List.mem_cons_of_mem _ mem
    · exact mem

omit [DecidableEq Tid] in
/-- A removal spares the live emitters exactly if none of them is the user's newest one,
apart from the one that ends with it. -/
theorem Reached.removeKey_iff (h : s.Reached) (user : User) (ending : Option ℕ)
    (emitters : s'.emitters = Function.update s.emitters user none) (latest : s'.latest = s.latest)
    (ended : ∀ e, e ∈ s'.ended ↔ ending = some e ∨ e ∈ s.ended) :
    s'.Reached ↔ ∀ emitter, s.Live user emitter → ending = some emitter := by
  constructor
  · intro reached emitter live
    by_contra other
    have still : s'.Live user emitter := by
      refine ⟨latest ▸ live.1, ?_⟩
      rw [ended]
      rintro (same | mem)
      · exact other same
      · exact live.2 mem
    have found := reached user emitter still
    rw [emitters, Function.update_self] at found
    cases found
  · rintro spared u e ⟨newest, live⟩
    rw [latest] at newest
    rw [ended, not_or] at live
    have before : s.Live u e := ⟨newest, live.2⟩
    rw [emitters]
    by_cases same : u = user
    · subst same
      exact absurd (spared e before) live.1
    · rw [Function.update_of_ne same]
      exact h u e before

omit [DecidableEq User] [DecidableEq Tid] in
theorem sparesLive_of_removes {a : SseAction User Tid} {user : User} {ending : Option ℕ}
    (removes : s.removes a = some (user, ending)) :
    s.SparesLive a ↔ ∀ emitter, s.Live user emitter → ending = some emitter := by
  constructor
  · intro spares
    exact spares user ending removes
  · rintro spared u e same
    obtain ⟨rfl, rfl⟩ : user = u ∧ ending = e := by simpa using removes.symm.trans same
    exact spared

omit [DecidableEq User] [DecidableEq Tid] in
theorem sparesLive_of_none {a : SseAction User Tid} (removes : s.removes a = none) : s.SparesLive a := by
  intro user ending some_removal
  rw [removes] at some_removal
  cases some_removal

/-- A step from a state in which every live connection is reached. -/
theorem reached_step (h : s.Reached) {a : SseAction User Tid} (step : (machine User Tid).step s a = some s') :
    s'.Reached ↔ s.SparesLive a := by
  cases a with
  | subscribe user failed =>
    exact iff_of_true (h.subscribe step) (sparesLive_of_none rfl)
  | callback emitter =>
    obtain ⟨user, owner, rfl⟩ := Option.map_eq_some_iff.1 step
    have removes : s.removes (.callback emitter) = some (user, some emitter) := by
      simp [SseService.removes, owner]
    rw [sparesLive_of_removes removes]
    refine h.removeKey_iff user (some emitter) ?_ ?_ ?_
    · rfl
    · rfl
    · intro e
      simp [removeKey, eq_comm]
  | pick t user =>
    have reached : s'.Reached := by
      simp only [machine, SseService.step] at step
      split at step
      · cases step
        split
        · exact h.frame rfl rfl fun _ mem => mem
        · exact h
      · cases step
    exact iff_of_true reached (sparesLive_of_none rfl)
  | send t failed =>
    have reached : s'.Reached := by
      simp only [machine, SseService.step] at step
      split at step
      · cases step
        split
        · exact h.frame rfl rfl fun _ mem => List.mem_cons_of_mem _ mem
        · exact h.frame rfl rfl fun _ mem => mem
      · cases step
    exact iff_of_true reached (sparesLive_of_none rfl)
  | remove t =>
    simp only [machine, SseService.step] at step
    split at step
    case h_1 user pc =>
      cases step
      have removes : s.removes (.remove t) = some (user, none) := by simp [SseService.removes, pc]
      rw [sparesLive_of_removes removes]
      refine h.removeKey_iff user none ?_ ?_ ?_
      · rfl
      · rfl
      · intro e
        simp [removeKey, goto]
    case h_2 => cases step

/-- **A live connection stays reachable exactly as long as no removal meets it**: in a run
every state reaches all live connections if and only if no callback and no failed send
removes the entry of a user whose newest emitter is another, live one. -/
theorem reachable_iff {acts : List (SseAction User Tid)} {s : SseService User Tid}
    (run : (machine User Tid).run acts = some s) :
    (machine User Tid).Always Reached acts ↔ (machine User Tid).Along SparesLive start acts :=
  Machine.always_iff_along (M := machine User Tid) (P := Reached) (Q := SparesLive)
    (fun _ _ live => by cases live.1) (fun _ _ _ _ reached step => reached_step reached step) acts s run

/-- One tab, closed and opened again. -/
theorem reachable_iff_reopened :
    (machine String Unit).Always Reached
      [.subscribe "user@example.com" false, .callback 0, .subscribe "user@example.com" false] :=
  (reachable_iff rfl).2 (Machine.along_of_check
    (p := fun s a => decide (s.SparesLive a)) (fun _ _ h => of_decide_eq_true h) (by decide +kernel))

/-- A second tab is opened, and then the first one is closed. -/
theorem second_tab_unreachable :
    ¬ ∀ (acts : List (SseAction String Unit)) (s : SseService String Unit),
      (machine String Unit).run acts = some s → (machine String Unit).Always Reached acts := by
  intro claim
  let acts : List (SseAction String Unit) :=
    [.subscribe "user@example.com" false, .subscribe "user@example.com" false, .callback 0]
  obtain ⟨s, run, lost⟩ := Machine.exists_of_any (M := machine String Unit) acts
    (fun s => decide (s.latest "user@example.com" = some 1 ∧ 1 ∉ s.ended ∧ s.emitters "user@example.com" = none))
    (by decide +kernel)
  obtain ⟨newest, live, absent⟩ := of_decide_eq_true lost
  have found := claim acts s run acts s List.prefix_rfl run "user@example.com" 1 ⟨newest, live⟩
  rw [absent] at found
  cases found

end SseService

end StockAnomaly.ApiServer
