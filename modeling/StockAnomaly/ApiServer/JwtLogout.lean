import Mathlib.Data.Int.Order.Basic
import Mathlib.Logic.Function.Basic
import StockAnomaly.Theory.JavaString
import StockAnomaly.Theory.Machine

/-!
# Logout and the token filter

Three clocks meet: a token is rejected when the milliseconds of the clock are past its
expiration, a logout keeps it in Redis for the remaining time in whole *seconds*, and a key
with a time to live is there for exactly that long. The entry is therefore gone at the
token's last millisecond at the latest, and a logout of a token that is still valid does
not hold: **`loggedOut_iff`**.
-/

namespace StockAnomaly.ApiServer

open StockAnomaly.Theory

structure Claims where
  subject : String
  /-- In milliseconds. -/
  expiration : ℤ
deriving DecidableEq

/-- What is outside: the parser of signed tokens, apart from the expiration, and the users. -/
structure JwtEnv where
  signed : String → Option Claims
  registered : String → Bool

/-- `hasText` and the scheme `Bearer` taken off. -/
def bearerToken (header : Option String) : Option String :=
  header.bind fun text =>
    if JavaString.hasText (some text) then
      some (if JavaString.startsWith text "Bearer " then JavaString.substring text 7 else text)
    else none

namespace JwtTokenProvider

variable (env : JwtEnv)

/-- `parseClaimsJws`, `none` standing for an exception. -/
def parseClaimsJws (token : String) (nowMs : ℤ) : Option Claims :=
  (env.signed token).filter fun claims => nowMs ≤ claims.expiration

def validateToken (token : String) (nowMs : ℤ) : Bool := (parseClaimsJws env token nowMs).isSome

def getRemainingExpirationSeconds (token : String) (nowMs : ℤ) : ℤ :=
  match parseClaimsJws env token nowMs with
  | some claims => max ((claims.expiration - nowMs).tdiv 1000) 0
  | none => 0

/-- The email of the authenticated user; an unknown one is an exception. -/
def getAuthentication (token : String) (nowMs : ℤ) : Option String :=
  (parseClaimsJws env token nowMs).bind fun claims =>
    if env.registered claims.subject then some claims.subject else none

end JwtTokenProvider

/-- The Redis keys `jwt:blacklist:<token>`, each with the instant at which it is gone. -/
abbrev BlacklistStore := String → Option ℤ

namespace JwtBlacklistService

def blacklist (env : JwtEnv) (store : BlacklistStore) (token : String) (nowMs : ℤ) : BlacklistStore :=
  let ttlSeconds := JwtTokenProvider.getRemainingExpirationSeconds env token nowMs
  if ttlSeconds ≤ 0 then store else Function.update store token (some (nowMs + ttlSeconds * 1000))

def isBlacklisted (store : BlacklistStore) (token : String) (nowMs : ℤ) : Bool :=
  (store token).any fun gone => nowMs < gone

end JwtBlacklistService

structure HttpRequest where
  requestURI : String
  authorization : Option String
  /-- The query parameter `token`. -/
  tokenParameter : Option String

namespace JwtAuthenticationFilter

def resolveToken (request : HttpRequest) : Option String :=
  if JavaString.hasText request.authorization then bearerToken request.authorization
  else bearerToken request.tokenParameter

/-- The user the request is authenticated as. -/
def doFilterInternal (env : JwtEnv) (store : BlacklistStore) (request : HttpRequest) (nowMs : ℤ) : Option String :=
  if JavaString.startsWith request.requestURI "/api/v1/auth/" || request.requestURI = "/api/v1/users/signup" then
    none
  else
    match resolveToken request with
    | none => none
    | some token =>
      if JwtTokenProvider.validateToken env token nowMs && !JwtBlacklistService.isBlacklisted store token nowMs then
        JwtTokenProvider.getAuthentication env token nowMs
      else none

end JwtAuthenticationFilter

/-- The blacklist and the clock. -/
structure LogoutState where
  store : BlacklistStore
  nowMs : ℤ

/-- A call of `AuthController.logout`. -/
structure Logout where
  authorization : Option String
  atMs : ℤ

namespace LogoutState

def step (env : JwtEnv) (s : LogoutState) (a : Logout) : Option LogoutState :=
  if s.nowMs ≤ a.atMs then
    some {
      store := match bearerToken a.authorization with
        | some token => JwtBlacklistService.blacklist env s.store token a.atMs
        | none => s.store
      nowMs := a.atMs }
  else none

def machine (env : JwtEnv) : Machine LogoutState Logout where
  init := ⟨fun _ => none, 0⟩
  step := step env

variable {env : JwtEnv}

/-- No entry outlives its token. -/
def Bounded (env : JwtEnv) (store : BlacklistStore) : Prop :=
  ∀ token gone, store token = some gone → ∃ claims, env.signed token = some claims ∧ gone ≤ claims.expiration

theorem remaining_le {token : String} {nowMs : ℤ}
    (positive : ¬ JwtTokenProvider.getRemainingExpirationSeconds env token nowMs ≤ 0) :
    ∃ claims, env.signed token = some claims ∧
      nowMs + JwtTokenProvider.getRemainingExpirationSeconds env token nowMs * 1000 ≤ claims.expiration := by
  unfold JwtTokenProvider.getRemainingExpirationSeconds at positive ⊢
  cases parsed : JwtTokenProvider.parseClaimsJws env token nowMs with
  | none => simp [parsed] at positive
  | some claims =>
    obtain ⟨signed, valid⟩ := Option.filter_eq_some_iff.1 parsed
    have valid : nowMs ≤ claims.expiration := of_decide_eq_true valid
    refine ⟨claims, signed, ?_⟩
    have rounded := Int.tdiv_mul_add_tmod (claims.expiration - nowMs) 1000
    have rest := Int.tmod_nonneg 1000 (Int.sub_nonneg.2 valid)
    simp only [parsed] at positive ⊢
    omega

theorem Bounded.step {s s' : LogoutState} {a : Logout} (h : Bounded env s.store)
    (step : (machine env).step s a = some s') : Bounded env s'.store := by
  obtain ⟨-, moved⟩ := Option.ite_none_right_eq_some.1 step
  cases moved
  cases bearerToken a.authorization with
  | none => exact h
  | some token =>
    simp only [JwtBlacklistService.blacklist]
    split
    case isTrue => exact h
    case isFalse positive =>
      intro other gone entry
      by_cases same : other = token
      · subst same
        rw [Function.update_self] at entry
        cases entry
        exact remaining_le positive
      · rw [Function.update_of_ne same] at entry
        exact h other gone entry

theorem bounded_of_reachable {s : LogoutState} (reach : (machine env).Reachable s) : Bounded env s.store :=
  reach.induct (I := fun s => Bounded env s.store) (fun _ _ none_there => by cases none_there)
    fun _ _ _ inv step => inv.step step

/-- At the last millisecond of a token no entry is left. -/
theorem Bounded.not_blacklisted {store : BlacklistStore} (h : Bounded env store) {token : String} {claims : Claims}
    (signed : env.signed token = some claims) :
    JwtBlacklistService.isBlacklisted store token claims.expiration = false := by
  unfold JwtBlacklistService.isBlacklisted
  cases entry : store token with
  | none => rfl
  | some gone =>
    obtain ⟨claims', signed', le⟩ := h token gone entry
    obtain rfl : claims = claims' := Option.some.inj (signed.symm.trans signed')
    simpa using le

/-- The request of an API client. -/
def bearerRequest (token : String) : HttpRequest := ⟨"/api/v1/subscriptions", some ("Bearer " ++ token), none⟩

theorem hasText_bearer (token : String) : JavaString.hasText (some ("Bearer " ++ token)) = true := by
  simp [JavaString.hasText, JavaString.isBlank, String.toList_append, JavaString.isWhitespace]

theorem resolveToken_bearer (token : String) :
    JwtAuthenticationFilter.resolveToken (bearerRequest token) = some token := by
  have scheme : JavaString.startsWith ("Bearer " ++ token) "Bearer " = true := JavaString.startsWith_append ..
  have rest : JavaString.substring ("Bearer " ++ token) 7 = token := JavaString.substring_append "Bearer " token
  simp [JwtAuthenticationFilter.resolveToken, bearerRequest, bearerToken, hasText_bearer, scheme, rest]

/-- Where an authentication comes from. -/
theorem doFilterInternal_eq_some {store : BlacklistStore} {request : HttpRequest} {nowMs : ℤ} {email token : String}
    (authenticated : JwtAuthenticationFilter.doFilterInternal env store request nowMs = some email)
    (carries : JwtAuthenticationFilter.resolveToken request = some token) :
    ∃ claims, env.signed token = some claims ∧ nowMs ≤ claims.expiration ∧
      env.registered claims.subject = true := by
  unfold JwtAuthenticationFilter.doFilterInternal at authenticated
  split at authenticated
  · cases authenticated
  · simp only [carries] at authenticated
    split at authenticated
    · obtain ⟨claims, parsed, user⟩ := Option.bind_eq_some_iff.1 authenticated
      obtain ⟨signed, valid⟩ := Option.filter_eq_some_iff.1 parsed
      refine ⟨claims, signed, of_decide_eq_true valid, ?_⟩
      by_contra unknown
      rw [if_neg unknown] at user
      cases user
    · cases authenticated

/-- A token of a known user is accepted at its last millisecond, whatever was logged out. -/
theorem accepted_at_expiration {store : BlacklistStore} (h : Bounded env store) {token : String} {claims : Claims}
    (signed : env.signed token = some claims) (known : env.registered claims.subject = true) :
    JwtAuthenticationFilter.doFilterInternal env store (bearerRequest token) claims.expiration =
      some claims.subject := by
  have parsed : JwtTokenProvider.parseClaimsJws env token claims.expiration = some claims := by
    simp [JwtTokenProvider.parseClaimsJws, signed]
  have not_exempt : (JavaString.startsWith (bearerRequest token).requestURI "/api/v1/auth/" ||
      (bearerRequest token).requestURI = "/api/v1/users/signup") = false := by
    change (JavaString.startsWith "/api/v1/subscriptions" "/api/v1/auth/" ||
      decide ("/api/v1/subscriptions" = "/api/v1/users/signup")) = false
    decide +kernel
  simp [JwtAuthenticationFilter.doFilterInternal, not_exempt, resolveToken_bearer, JwtTokenProvider.validateToken,
    parsed, h.not_blacklisted signed, JwtTokenProvider.getAuthentication, known]

theorem nowMs_le_of_runFrom {s s' : LogoutState} {later : List Logout}
    (run : (machine env).runFrom s later = some s') : s.nowMs ≤ s'.nowMs := by
  induction later generalizing s with
  | nil =>
    cases run
    exact le_rfl
  | cons logout later ih =>
    obtain ⟨next, step, rest⟩ := Option.bind_eq_some_iff.1 run
    obtain ⟨forward, moved⟩ := Option.ite_none_right_eq_some.1 step
    cases moved
    exact forward.trans (ih rest)

/-- **A logout holds for expired tokens only**: after a logout at `t₀` no request that
carries the token is authenticated at any later time, whatever else is logged out, if and
only if the token had expired before `t₀`, or its user does not exist. -/
theorem loggedOut_iff {s s' : LogoutState} {logout : Logout} (reach : (machine env).Reachable s)
    (step : (machine env).step s logout = some s') :
    ∀ token ∈ bearerToken logout.authorization, ∀ claims ∈ env.signed token,
      ((∀ later s'' t request, (machine env).runFrom s' later = some s'' → s''.nowMs ≤ t →
          JwtAuthenticationFilter.resolveToken request = some token →
            JwtAuthenticationFilter.doFilterInternal env s''.store request t = none) ↔
        claims.expiration < logout.atMs ∨ env.registered claims.subject = false) := by
  intro token _ claims signed
  have now : s'.nowMs = logout.atMs := by
    obtain ⟨-, moved⟩ := Option.ite_none_right_eq_some.1 step
    cases moved
    rfl
  constructor
  · intro holds
    by_contra still_valid
    rw [not_or, not_lt, Bool.not_eq_false] at still_valid
    obtain ⟨valid, known⟩ := still_valid
    have accepted := accepted_at_expiration (bounded_of_reachable (reach.step step)) signed known
    rw [holds [] s' claims.expiration (bearerRequest token) rfl (now ▸ valid) (resolveToken_bearer token)] at accepted
    cases accepted
  · intro done later s'' t request run after carries
    by_contra authenticated
    obtain ⟨email, authenticated⟩ := Option.ne_none_iff_exists'.1 authenticated
    obtain ⟨claims', signed', valid, known⟩ := doFilterInternal_eq_some authenticated carries
    obtain rfl : claims = claims' := Option.some.inj (Option.mem_def.1 signed |>.symm.trans signed')
    have clock := nowMs_le_of_runFrom run
    rcases done with expired | unknown
    · omega
    · rw [known] at unknown
      cases unknown

/-- A server with one user, whose only token expires at three seconds. -/
def oneToken : JwtEnv where
  signed token := if token = "h.p.s" then some ⟨"user@example.com", 3000⟩ else none
  registered email := email = "user@example.com"

/-- A logout after the expiration. -/
theorem loggedOut_iff_expired :
    JwtAuthenticationFilter.doFilterInternal oneToken (fun _ => none) (bearerRequest "h.p.s") 5000 = none := by
  have holds := @loggedOut_iff oneToken (machine oneToken).init _ ⟨some "Bearer h.p.s", 4000⟩ ⟨[], rfl⟩ rfl
    "h.p.s" (by decide +kernel) ⟨"user@example.com", 3000⟩ rfl
  exact holds.2 (.inl (by decide)) [] _ 5000 (bearerRequest "h.p.s") rfl (by decide +kernel) (resolveToken_bearer _)

/-- A logout half a second off the full second lets the token in for the last half second. -/
theorem accepted_after_logout :
    ¬ ∀ (env : JwtEnv) (s s' : LogoutState) (logout : Logout), (machine env).Reachable s →
      (machine env).step s logout = some s' →
        ∀ token ∈ bearerToken logout.authorization, ∀ claims ∈ env.signed token,
          ∀ later s'' t request, (machine env).runFrom s' later = some s'' → s''.nowMs ≤ t →
            JwtAuthenticationFilter.resolveToken request = some token →
              JwtAuthenticationFilter.doFilterInternal env s''.store request t = none := by
  intro claim
  have rejected := claim oneToken _ _ ⟨some "Bearer h.p.s", 1500⟩ ⟨[], rfl⟩ rfl "h.p.s" (by decide +kernel)
    ⟨"user@example.com", 3000⟩ rfl [] _ 2500 (bearerRequest "h.p.s") rfl (by decide +kernel) (by decide +kernel)
  revert rejected
  decide +kernel

end LogoutState

end StockAnomaly.ApiServer
