import Mathlib.Algebra.Order.Ring.Int
import StockAnomaly.ApiServer.KisTokens

/-!
# How long access tokens are handed out

`getAccessToken` keeps a token in Redis for five minutes less than KIS says it lives, but for
a minute at least, and hands it out while it is there. Between the look at Redis and the
write to it a call asks KIS, and other calls may do the same meanwhile. Whatever they do, a
token that is handed out has still five minutes to live, less what the answer of KIS took on its
way: **`alive_of_run`**. The minute is too long only for a token that lives less than that.
-/

namespace StockAnomaly.ApiServer

open StockAnomaly.Theory

/-- An answer of the token endpoint, with the time when KIS issued the token. -/
structure TokenIssue where
  token : String
  appKey : Option String
  issuedAtMs : ℤ
  expiresIn : ℤ
deriving DecidableEq

def TokenIssue.expiresAtMs (issue : TokenIssue) : ℤ := issue.issuedAtMs + issue.expiresIn * 1000

namespace KisTokenManager

def TOKEN_EXPIRY_BUFFER_SEC : ℤ := 5 * 60

def ttlSec (expiresIn : ℤ) : ℤ := max (expiresIn - TOKEN_EXPIRY_BUFFER_SEC) 60

end KisTokenManager

open KisTokenManager

/-- An entry of Redis, which is gone from `goneAtMs` on. -/
structure CachedToken where
  issue : TokenIssue
  goneAtMs : ℤ

/-- Where a call of `getAccessToken` is. -/
inductive TokenPc
  | idle
  /-- It has found nothing in Redis and asks KIS. -/
  | asking (appKey : Option String)
  /-- KIS has issued a token. -/
  | issued (issue : TokenIssue)

/-- The token that a call has and has not stored yet. -/
def TokenPc.issue? : TokenPc → Option TokenIssue
  | .issued issue => some issue
  | _ => none

/-- The clock of all parties, Redis, the calls, and the tokens that calls have returned, with the
times. -/
structure TokenCalls (Tid : Type) where
  nowMs : ℤ
  cache : String → Option CachedToken
  calls : Tid → TokenPc
  handedOut : List (TokenIssue × ℤ)

inductive TokenAction (Tid : Type)
  | getAccessToken (t : Tid) (appKey : Option String)
  /-- KIS issues a token; `expires_in` may be missing. -/
  | issue (t : Tid) (token : String) (expiresIn : Option ℤ)
  /-- The answer is there: it is stored and returned. -/
  | store (t : Tid)
  /-- No answer, one without a token, or an exception: the call returns `null`. -/
  | fail (t : Tid)
  | wait (ms : ℕ)

namespace TokenCalls

variable {Tid : Type}

/-- What Redis answers for a key. -/
def found (s : TokenCalls Tid) (key : String) : Option TokenIssue :=
  ((s.cache key).filter fun entry => s.nowMs < entry.goneAtMs).map CachedToken.issue

/-- Redis as it is now. -/
def redis (s : TokenCalls Tid) : Redis := fun key => (s.found key).map TokenIssue.token

variable [DecidableEq Tid]

def goto (s : TokenCalls Tid) (t : Tid) (pc : TokenPc) : TokenCalls Tid :=
  { s with calls := Function.update s.calls t pc }

def handOut (s : TokenCalls Tid) (issue : TokenIssue) : TokenCalls Tid :=
  { s with handedOut := s.handedOut ++ [(issue, s.nowMs)] }

def set (s : TokenCalls Tid) (issue : TokenIssue) : TokenCalls Tid :=
  { s with
    cache := Function.update s.cache (redisKey issue.appKey)
      (some ⟨issue, s.nowMs + ttlSec issue.expiresIn * 1000⟩) }

def step (s : TokenCalls Tid) : TokenAction Tid → Option (TokenCalls Tid)
  | .getAccessToken t appKey =>
    match s.calls t, s.found (redisKey appKey) with
    | .idle, some cached => some (s.handOut cached)
    | .idle, none => some (s.goto t (.asking appKey))
    | _, _ => none
  | .issue t token expiresIn =>
    match s.calls t with
    | .asking appKey => some (s.goto t (.issued ⟨token, appKey, s.nowMs, expiresIn.getD 86400⟩))
    | _ => none
  | .store t =>
    match s.calls t with
    | .issued issue => some (((s.set issue).handOut issue).goto t .idle)
    | _ => none
  | .fail t =>
    match s.calls t with
    | .idle => none
    | _ => some (s.goto t .idle)
  | .wait ms => some { s with nowMs := s.nowMs + ms }

/-- Redis is empty at first. -/
def machine (Tid : Type) [DecidableEq Tid] : Machine (TokenCalls Tid) (TokenAction Tid) where
  init := ⟨0, fun _ => none, fun _ => .idle, []⟩
  step := step

/-- The steps, one constructor for each branch of `step`. -/
inductive Step (s : TokenCalls Tid) : TokenAction Tid → TokenCalls Tid → Prop
  | hit {t : Tid} {appKey : Option String} {cached : TokenIssue} (idle : s.calls t = .idle)
      (cached_now : s.found (redisKey appKey) = some cached) : Step s (.getAccessToken t appKey) (s.handOut cached)
  | miss {t : Tid} {appKey : Option String} (idle : s.calls t = .idle)
      (nothing : s.found (redisKey appKey) = none) : Step s (.getAccessToken t appKey) (s.goto t (.asking appKey))
  | issue {t : Tid} {appKey : Option String} (token : String) (expiresIn : Option ℤ)
      (asking : s.calls t = .asking appKey) :
      Step s (.issue t token expiresIn) (s.goto t (.issued ⟨token, appKey, s.nowMs, expiresIn.getD 86400⟩))
  | store {t : Tid} {issue : TokenIssue} (issued : s.calls t = .issued issue) :
      Step s (.store t) (((s.set issue).handOut issue).goto t .idle)
  | fail {t : Tid} : Step s (.fail t) (s.goto t .idle)
  | wait (ms : ℕ) : Step s (.wait ms) { s with nowMs := s.nowMs + ms }

variable {s s' : TokenCalls Tid} {a : TokenAction Tid} {L : ℤ}

theorem step_cases (taken : (machine Tid).step s a = some s') : Step s a s' := by
  cases a with
  | getAccessToken t appKey =>
    simp only [machine, step] at taken
    split at taken
    case h_1 cached idle cached_now =>
      cases taken
      exact .hit idle cached_now
    case h_2 idle nothing =>
      cases taken
      exact .miss idle nothing
    case h_3 => cases taken
  | issue t token expiresIn =>
    simp only [machine, step] at taken
    split at taken
    case h_1 appKey asking =>
      cases taken
      exact .issue token expiresIn asking
    case h_2 => cases taken
  | store t =>
    simp only [machine, step] at taken
    split at taken
    case h_1 issue issued =>
      cases taken
      exact .store issued
    case h_2 => cases taken
  | fail t =>
    simp only [machine, step] at taken
    split at taken
    case h_1 => cases taken
    case h_2 =>
      cases taken
      exact .fail
  | wait ms =>
    cases taken
    exact .wait ms

/-! ## How old a token gets -/

/-- The answers of KIS are stored within `L` milliseconds of the issue. -/
def Prompt (L : ℤ) (s : TokenCalls Tid) : TokenAction Tid → Prop
  | .store t => ∀ issue ∈ (s.calls t).issue?, s.nowMs ≤ issue.issuedAtMs + L
  | _ => True

instance (L : ℤ) (s : TokenCalls Tid) (a : TokenAction Tid) : Decidable (Prompt L s a) :=
  match a with
  | .store t => inferInstanceAs (Decidable (∀ issue ∈ (s.calls t).issue?, s.nowMs ≤ issue.issuedAtMs + L))
  | .getAccessToken .. | .issue .. | .fail _ | .wait _ => .isTrue trivial

/-- No token is kept or was returned later than its time in Redis after its issue. -/
structure Young (L : ℤ) (s : TokenCalls Tid) : Prop where
  cached : ∀ key entry, s.cache key = some entry →
    entry.goneAtMs ≤ entry.issue.issuedAtMs + L + ttlSec entry.issue.expiresIn * 1000
  handedOut : ∀ returned ∈ s.handedOut, returned.2 ≤ returned.1.issuedAtMs + L + ttlSec returned.1.expiresIn * 1000

omit [DecidableEq Tid] in
theorem of_found {key : String} {issue : TokenIssue} (found : s.found key = some issue) :
    ∃ entry, s.cache key = some entry ∧ entry.issue = issue ∧ s.nowMs < entry.goneAtMs := by
  obtain ⟨entry, kept, same⟩ := Option.map_eq_some_iff.1 found
  obtain ⟨there, alive⟩ := Option.filter_eq_some_iff.1 kept
  exact ⟨entry, there, same, of_decide_eq_true alive⟩

omit [DecidableEq Tid] in
theorem cache_set (s : TokenCalls Tid) (issue : TokenIssue) (key : String) : (s.set issue).cache key =
    if key = redisKey issue.appKey then some ⟨issue, s.nowMs + ttlSec issue.expiresIn * 1000⟩ else s.cache key := by
  show Function.update s.cache _ _ key = _
  rw [Function.update_apply]

theorem minute_le_ttlSec (expiresIn : ℤ) : 60 ≤ ttlSec expiresIn := le_max_right _ _

omit [DecidableEq Tid] in
theorem Young.handOut (h : Young L s) {issue : TokenIssue}
    (early : s.nowMs ≤ issue.issuedAtMs + L + ttlSec issue.expiresIn * 1000) : Young L (s.handOut issue) := by
  refine ⟨h.cached, ?_⟩
  intro returned mem
  rcases List.mem_append.1 mem with old | last
  · exact h.handedOut returned old
  · rw [List.mem_singleton.1 last]
    exact early

omit [DecidableEq Tid] in
theorem Young.set (h : Young L s) {issue : TokenIssue} (early : s.nowMs ≤ issue.issuedAtMs + L) :
    Young L (s.set issue) := by
  refine ⟨?_, h.handedOut⟩
  intro key entry there
  rw [cache_set] at there
  split_ifs at there with own
  · cases there
    show s.nowMs + ttlSec issue.expiresIn * 1000 ≤ issue.issuedAtMs + L + ttlSec issue.expiresIn * 1000
    omega
  · exact h.cached key entry there

theorem Young.step (h : Young L s) (prompt : s.Prompt L a) (step : (machine Tid).step s a = some s') :
    Young L s' := by
  cases step_cases step with
  | hit idle cached_now =>
    obtain ⟨entry, there, rfl, alive⟩ := of_found cached_now
    exact h.handOut (alive.le.trans (h.cached _ entry there))
  | @store t issue issued =>
    have early : s.nowMs ≤ issue.issuedAtMs + L := prompt issue (by rw [issued]; rfl)
    have stored : Young L ((s.set issue).handOut issue) := by
      apply (h.set early).handOut
      show s.nowMs ≤ issue.issuedAtMs + L + ttlSec issue.expiresIn * 1000
      have minute := minute_le_ttlSec issue.expiresIn
      omega
    exact ⟨stored.cached, stored.handedOut⟩
  | miss | issue | fail | wait => exact ⟨h.cached, h.handedOut⟩

theorem young_of_run {acts : List (TokenAction Tid)} (run : (machine Tid).run acts = some s)
    (prompt : (machine Tid).Along (Prompt L) (machine Tid).init acts) : Young L s := by
  refine (machine Tid).run_induct (I := fun _ s => Young L s) ?_ ?_ acts s run prompt
  · exact ⟨fun _ _ there => absurd there (Option.not_mem_none _), fun _ mem => absurd mem List.not_mem_nil⟩
  · intro acts s a s' _ young here step
    exact young.step here step

/-- **A token that is returned has five minutes to live**, or a minute less than its whole life if
that is shorter, less what its answer took. -/
theorem alive_of_run {acts : List (TokenAction Tid)} (run : (machine Tid).run acts = some s)
    (prompt : (machine Tid).Along (Prompt L) (machine Tid).init acts) :
    ∀ returned ∈ s.handedOut,
      returned.2 + min 300 (returned.1.expiresIn - 60) * 1000 ≤ returned.1.expiresAtMs + L := by
  intro returned mem
  have age := (young_of_run run prompt).handedOut returned mem
  unfold ttlSec TOKEN_EXPIRY_BUFFER_SEC at age
  unfold TokenIssue.expiresAtMs
  omega

/-! ## The calls and Redis -/

omit [DecidableEq Tid] in
/-- What is set is there: it stays for a minute at least. -/
theorem redis_set (s : TokenCalls Tid) (issue : TokenIssue) :
    (s.set issue).redis = Function.update s.redis (redisKey issue.appKey) (some issue.token) := by
  funext key
  show ((((s.set issue).cache key).filter fun entry => s.nowMs < entry.goneAtMs).map CachedToken.issue).map
    TokenIssue.token = _
  have minute := minute_le_ttlSec issue.expiresIn
  have later : s.nowMs < s.nowMs + ttlSec issue.expiresIn * 1000 := by omega
  rw [cache_set, Function.update_apply]
  split_ifs with own
  · rw [Option.filter_some, if_pos (decide_eq_true later)]
    rfl
  · rfl

/-- A step sets an entry to a token that was issued for it, or takes entries away. -/
theorem redis_step (step : (machine Tid).step s a = some s') :
    (∃ t issue, a = .store t ∧ s.calls t = .issued issue ∧
      s'.redis = Function.update s.redis (redisKey issue.appKey) (some issue.token)) ∨
    ∀ key, s'.redis key = s.redis key ∨ s'.redis key = none := by
  cases step_cases step with
  | @store t issue issued =>
    refine .inl ⟨t, issue, rfl, issued, ?_⟩
    exact redis_set s issue
  | wait ms =>
    right
    intro key
    have after : ({ s with nowMs := s.nowMs + ms } : TokenCalls Tid).redis key = (((s.cache key).filter
        fun entry => s.nowMs + ms < entry.goneAtMs).map CachedToken.issue).map TokenIssue.token := rfl
    rw [after]
    cases there : s.cache key with
    | none => exact .inr rfl
    | some entry =>
      by_cases alive : s.nowMs + ms < entry.goneAtMs
      · left
        have earlier : s.nowMs < entry.goneAtMs := by omega
        rw [redis, found, there, Option.filter_some, if_pos (decide_eq_true alive), Option.filter_some,
          if_pos (decide_eq_true earlier)]
      · right
        rw [Option.filter_some, if_neg (by simpa using alive)]
        rfl
  | hit | miss | issue | fail => exact .inr fun key => .inl rfl

/-- The steps of a call that no other one comes between; `kis` is what KIS answers. -/
def alone (s : TokenCalls Tid) (t : Tid) (appKey : Option String) (kis : Option String) (expiresIn : Option ℤ) :
    List (TokenAction Tid) :=
  match s.found (redisKey appKey), kis with
  | some _, _ => [.getAccessToken t appKey]
  | none, some token => [.getAccessToken t appKey, .issue t token expiresIn, .store t]
  | none, none => [.getAccessToken t appKey, .fail t]

/-- Alone, a call leaves Redis as `getAccessToken` says, and returns the token that it says. -/
theorem getAccessToken_alone (tokenP : TokenEndpoint) {t : Tid} (idle : s.calls t = .idle)
    (appKey appSecret : Option String) (expiresIn : Option ℤ) :
    ∃ s', (machine Tid).runFrom s (s.alone t appKey (tokenP appKey appSecret) expiresIn) = some s' ∧
      ∃ returned, s'.handedOut = s.handedOut ++ returned ∧
        getAccessToken tokenP s.redis appKey appSecret = (returned.head?.map (·.1.token), s'.redis) := by
  have redis_key : s.redis (redisKey appKey) = (s.found (redisKey appKey)).map TokenIssue.token := rfl
  cases cached : s.found (redisKey appKey) with
  | some token =>
    have hit : (machine Tid).step s (.getAccessToken t appKey) = some (s.handOut token) := by
      simp only [machine, step, idle, cached]
    simp only [alone, cached]
    refine ⟨_, (Machine.runFrom_cons hit).trans rfl, [(token, s.nowMs)], rfl, ?_⟩
    rw [getAccessToken, redis_key, cached]
    rfl
  | none =>
    have miss : (machine Tid).step s (.getAccessToken t appKey) = some (s.goto t (.asking appKey)) := by
      simp only [machine, step, idle, cached]
    cases kis : tokenP appKey appSecret with
    | none =>
      have fails : (machine Tid).step (s.goto t (.asking appKey)) (.fail t) =
          some ((s.goto t (.asking appKey)).goto t .idle) := by
        simp [machine, step, goto]
      simp only [alone, cached]
      refine ⟨_, (Machine.runFrom_cons miss).trans ((Machine.runFrom_cons fails).trans rfl), [], ?_, ?_⟩
      · exact (List.append_nil _).symm
      · rw [getAccessToken, redis_key, cached, kis]
        rfl
    | some token =>
      let issue : TokenIssue := ⟨token, appKey, s.nowMs, expiresIn.getD 86400⟩
      have issues : (machine Tid).step (s.goto t (.asking appKey)) (.issue t token expiresIn) =
          some ((s.goto t (.asking appKey)).goto t (.issued issue)) := by
        simp [machine, step, goto, issue]
      have stores : (machine Tid).step ((s.goto t (.asking appKey)).goto t (.issued issue)) (.store t) =
          some ((((((s.goto t (.asking appKey)).goto t (.issued issue)).set issue).handOut issue)).goto t .idle) := by
        simp [machine, step, goto]
      simp only [alone, cached]
      refine ⟨_, (Machine.runFrom_cons miss).trans ((Machine.runFrom_cons issues).trans
        ((Machine.runFrom_cons stores).trans rfl)), [(issue, s.nowMs)], rfl, ?_⟩
      rw [getAccessToken, redis_key, cached, kis]
      exact congrArg (Prod.mk (some token)) (redis_set s issue).symm

/-! ## Two calls at once -/

/-- Both calls find nothing and get a token for 24 hours; a third one, a day less five minutes
later, finds the token that was stored last. -/
def race : List (TokenAction Bool) :=
  [.getAccessToken false (some "PSa"), .getAccessToken true (some "PSa"), .issue false "t1" none, .wait 400,
    .issue true "t2" none, .wait 600, .store true, .store false, .wait 86099000, .getAccessToken true (some "PSa")]

theorem alive_of_run_race : ∃ s, (machine Bool).run race = some s ∧ s.handedOut.length = 3 ∧
    ∀ returned ∈ s.handedOut,
      returned.2 + min 300 (returned.1.expiresIn - 60) * 1000 ≤ returned.1.expiresAtMs + 1000 := by
  obtain ⟨s, run, three⟩ := (machine Bool).exists_of_any race (fun s => s.handedOut.length = 3) (by decide +kernel)
  refine ⟨s, run, of_decide_eq_true three, alive_of_run run ?_⟩
  exact Machine.along_of_check (p := fun s a => decide (Prompt 1000 s a)) (fun _ _ => of_decide_eq_true)
    (by decide +kernel)

/-- A token that lives half a minute is still returned when it has expired. -/
example : ((machine Bool).run [.getAccessToken false none, .issue false "t" (some 30), .store false, .wait 59000,
    .getAccessToken false none]).map (fun s => s.handedOut.map fun returned => (returned.2, returned.1.expiresAtMs)) =
      some [(0, 30000), (59000, 30000)] := by decide +kernel

end TokenCalls

end StockAnomaly.ApiServer
