import StockAnomaly.ApiServer.JwtLogout

/-!
# The exceptions of the token filter

`validateToken` turns the exceptions that its `catch` clauses name into `false`. The parser
reports a wrong signature with a `SignatureException`; the `SecurityException` of the first
clause is not its superclass in `io.jsonwebtoken.security`, which is not imported, but
`java.lang.SecurityException`. So one kind of bad token gets through `validateToken`, and
through the filter, as an exception: **`filter_iff`**.
-/

namespace StockAnomaly.ApiServer

open StockAnomaly.Theory

/-- The classes that the filter meets; none of them extends another one. -/
inductive ExceptionClass
  /-- `java.lang.SecurityException` -/
  | security
  | malformedJwt
  | expiredJwt
  | unsupportedJwt
  | illegalArgument
  /-- `io.jsonwebtoken.security.SignatureException` -/
  | signature
  | usernameNotFound
deriving DecidableEq

/-- What `parseClaimsJws` throws. -/
def jwtExceptions : List ExceptionClass :=
  [.malformedJwt, .expiredJwt, .unsupportedJwt, .illegalArgument, .signature]

/-- What the filter calls: the parser with the server's key, the table of users, the Redis keys. -/
structure JwtBackend where
  parseClaimsJws : String → Except ExceptionClass Claims
  throws : ∀ token e, parseClaimsJws token = .error e → e ∈ jwtExceptions
  registered : String → Bool
  isBlacklisted : String → Bool

namespace JwtBackend

/-- The `catch` clauses of `validateToken`. -/
def caught : List ExceptionClass := [.security, .malformedJwt, .expiredJwt, .unsupportedJwt, .illegalArgument]

def validateToken (jwt : JwtBackend) (token : String) : Except ExceptionClass Bool :=
  match jwt.parseClaimsJws token with
  | .ok _ => .ok true
  | .error e => if e ∈ caught then .ok false else .error e

/-- The email of the authenticated user. -/
def getAuthentication (jwt : JwtBackend) (token : String) : Except ExceptionClass String := do
  let claims ← jwt.parseClaimsJws token
  if jwt.registered claims.subject then .ok claims.subject else .error .usernameNotFound

/-- The paths that the filter lets pass. -/
def exempt (requestURI : String) : Bool :=
  JavaString.startsWith requestURI "/api/v1/auth/" || requestURI = "/api/v1/users/signup"

/-- What the filter makes of a token. -/
def authenticate (jwt : JwtBackend) (token : String) : Except ExceptionClass (Option String) := do
  let valid ← jwt.validateToken token
  if valid && !jwt.isBlacklisted token then some <$> jwt.getAuthentication token else .ok none

/-- The authentication with which the request goes on to the chain, or the exception that leaves
the filter. -/
def doFilterInternal (jwt : JwtBackend) (request : HttpRequest) : Except ExceptionClass (Option String) :=
  if exempt request.requestURI then .ok none
  else
    match JwtAuthenticationFilter.resolveToken request with
    | none => .ok none
    | some token => jwt.authenticate token

/-- The request carries a token that parses and is not blacklisted, on a path that needs one. -/
def Authenticates (jwt : JwtBackend) (request : HttpRequest) : Prop :=
  exempt request.requestURI = false ∧ ∃ token ∈ JwtAuthenticationFilter.resolveToken request,
    (∃ claims, jwt.parseClaimsJws token = .ok claims) ∧ jwt.isBlacklisted token = false

/-- The request goes on to the chain, authenticated exactly if its token is good. -/
def Filters (jwt : JwtBackend) (request : HttpRequest) : Prop :=
  ∃ authentication, jwt.doFilterInternal request = .ok authentication ∧
    (authentication.isSome = true ↔ jwt.Authenticates request)

/-- On a path that needs a token, the one there is fails with an exception that is not caught. -/
def Uncaught (jwt : JwtBackend) (request : HttpRequest) : Prop :=
  exempt request.requestURI = false ∧ ∃ token ∈ JwtAuthenticationFilter.resolveToken request,
    ∃ e, jwt.parseClaimsJws token = .error e ∧ e ∉ caught

/-- The request is not that of a user who does not exist. -/
def UserExists (jwt : JwtBackend) (request : HttpRequest) : Prop :=
  ∀ token ∈ JwtAuthenticationFilter.resolveToken request, ∀ claims, jwt.parseClaimsJws token = .ok claims →
    jwt.registered claims.subject = true

variable {jwt : JwtBackend} {request : HttpRequest} {token : String}

/-- A token that parses. -/
theorem authenticate_of_ok {claims : Claims} (parsed : jwt.parseClaimsJws token = .ok claims) :
    jwt.authenticate token =
      if jwt.isBlacklisted token then .ok none
      else if jwt.registered claims.subject then .ok (some claims.subject)
      else .error .usernameNotFound := by
  rw [authenticate, validateToken, getAuthentication, parsed]
  cases jwt.isBlacklisted token
  · cases registered : jwt.registered claims.subject <;>
      simp [registered, bind, Except.bind, Functor.map, Except.map]
  · rfl

/-- A token that does not. -/
theorem authenticate_of_error {e : ExceptionClass} (failed : jwt.parseClaimsJws token = .error e) :
    jwt.authenticate token = if e ∈ caught then .ok none else .error e := by
  rw [authenticate, validateToken, failed]
  dsimp only
  split_ifs <;> rfl

theorem doFilterInternal_of_token (path : exempt request.requestURI = false)
    (carries : JwtAuthenticationFilter.resolveToken request = some token) :
    jwt.doFilterInternal request = jwt.authenticate token := by
  rw [doFilterInternal, path, carries]
  rfl

/-- Without a token there is nothing to throw. -/
theorem filters_of_no_token (none_there : exempt request.requestURI = true ∨
    JwtAuthenticationFilter.resolveToken request = none) : jwt.Filters request := by
  refine ⟨none, ?_, ?_⟩
  · unfold doFilterInternal
    split_ifs with path
    · rfl
    · rw [none_there.resolve_left path]
  · apply iff_of_false Bool.false_ne_true
    rintro ⟨path, token, carries, -⟩
    rcases none_there with free | no_token
    · exact absurd (free.symm.trans path) Bool.noConfusion
    · exact absurd (no_token.symm.trans carries) nofun

theorem authenticates_iff (path : exempt request.requestURI = false)
    (carries : JwtAuthenticationFilter.resolveToken request = some token) : jwt.Authenticates request ↔
      (∃ claims, jwt.parseClaimsJws token = .ok claims) ∧ jwt.isBlacklisted token = false := by
  simp [Authenticates, path, carries]

theorem filters_of_ok {claims : Claims} (exist : jwt.UserExists request)
    (path : exempt request.requestURI = false)
    (carries : JwtAuthenticationFilter.resolveToken request = some token)
    (parsed : jwt.parseClaimsJws token = .ok claims) : jwt.Filters request := by
  have good : jwt.Authenticates request ↔ jwt.isBlacklisted token = false := by
    rw [authenticates_iff path carries, and_iff_right ⟨claims, parsed⟩]
  rw [Filters, doFilterInternal_of_token path carries, authenticate_of_ok parsed, good,
    if_pos (exist token carries claims parsed)]
  cases jwt.isBlacklisted token <;> simp

/-- **The filter is total but for the exceptions that `validateToken` does not catch.** -/
theorem filters_iff_caught (exist : jwt.UserExists request) : jwt.Filters request ↔ ¬ jwt.Uncaught request := by
  cases path : exempt request.requestURI with
  | true =>
    apply iff_of_true (filters_of_no_token (.inl path))
    rintro ⟨needs, -⟩
    exact absurd (path.symm.trans needs) nofun
  | false =>
    cases carries : JwtAuthenticationFilter.resolveToken request with
    | none =>
      apply iff_of_true (filters_of_no_token (.inr carries))
      rintro ⟨-, token, found, -⟩
      exact absurd (carries.symm.trans found) nofun
    | some token =>
      have uncaught : jwt.Uncaught request ↔ ∃ e, jwt.parseClaimsJws token = .error e ∧ e ∉ caught := by
        simp [Uncaught, path, carries]
      rw [uncaught]
      cases parsed : jwt.parseClaimsJws token with
      | ok claims => exact iff_of_true (filters_of_ok exist path carries parsed) (by simp)
      | error e =>
        rw [Filters, doFilterInternal_of_token path carries, authenticate_of_error parsed,
          authenticates_iff path carries, parsed]
        split_ifs with is_caught <;> simp [is_caught]

/-- **The filter is total and exact but for tokens with a wrong signature.** -/
theorem filter_iff (jwt : JwtBackend) (request : HttpRequest) (exist : jwt.UserExists request) :
    jwt.Filters request ↔ ¬ (exempt request.requestURI = false ∧
      ∃ token ∈ JwtAuthenticationFilter.resolveToken request, jwt.parseClaimsJws token = .error .signature) := by
  rw [filters_iff_caught exist, Uncaught]
  refine not_congr (and_congr_right fun _ => exists_congr fun token => and_congr_right fun _ => ?_)
  constructor
  · rintro ⟨e, failed, out⟩
    have thrown := jwt.throws token e failed
    cases e with
    | signature => exact failed
    | security | usernameNotFound => simp [jwtExceptions] at thrown
    | malformedJwt | expiredJwt | unsupportedJwt | illegalArgument => simp [caught] at out
  · intro failed
    exact ⟨.signature, failed, by decide⟩

/-- The filter of the logout is this one with its exceptions forgotten. -/
theorem doFilterInternal_eq {env : JwtEnv} {store : BlacklistStore} {nowMs : ℤ} (request : HttpRequest)
    (parser : ∀ token, (jwt.parseClaimsJws token).toOption = JwtTokenProvider.parseClaimsJws env token nowMs)
    (users : jwt.registered = env.registered)
    (redis : jwt.isBlacklisted = fun token => JwtBlacklistService.isBlacklisted store token nowMs) :
    JwtAuthenticationFilter.doFilterInternal env store request nowMs =
      (jwt.doFilterInternal request).toOption.join := by
  unfold JwtAuthenticationFilter.doFilterInternal doFilterInternal
  rw [← exempt]
  split_ifs with path
  · rfl
  · cases JwtAuthenticationFilter.resolveToken request with
    | none => rfl
    | some token =>
      dsimp only
      rw [JwtTokenProvider.validateToken, JwtTokenProvider.getAuthentication, ← parser]
      cases parsed : jwt.parseClaimsJws token with
      | ok claims =>
        rw [authenticate_of_ok parsed, redis, users]
        dsimp only
        split_ifs <;> simp_all [Except.toOption]
      | error e =>
        rw [authenticate_of_error parsed]
        split_ifs <;> simp_all [Except.toOption]

/-- The parser of a server with one token of one user. -/
def parseOne (token : String) : Except ExceptionClass Claims :=
  if token = "h.p.s" then .ok ⟨"user@example.com", 3000⟩
  else if token = "h.p.x" then .error .signature
  else .error .malformedJwt

def oneUser : JwtBackend where
  parseClaimsJws := parseOne
  throws token e failed := by
    simp only [parseOne] at failed
    split_ifs at failed <;> cases failed <;> decide
  registered email := email = "user@example.com"
  isBlacklisted _ := false

theorem userExists_oneUser (request : HttpRequest) : oneUser.UserExists request := by
  intro token _ claims parsed
  simp only [oneUser, parseOne] at parsed
  split_ifs at parsed
  cases parsed
  rfl

theorem filter_iff_garbage : oneUser.Filters (LogoutState.bearerRequest "not-a-jwt") := by
  apply (filter_iff oneUser _ (userExists_oneUser _)).2
  rintro ⟨-, token, carries, failed⟩
  rw [LogoutState.resolveToken_bearer] at carries
  cases carries
  exact absurd failed nofun

/-- A token signed with another key. -/
theorem wrong_signature_throws :
    ¬ ∀ (jwt : JwtBackend) (request : HttpRequest), jwt.UserExists request → jwt.Filters request := by
  intro claim
  obtain ⟨authentication, passed, -⟩ := claim oneUser (LogoutState.bearerRequest "h.p.x") (userExists_oneUser _)
  have thrown : oneUser.doFilterInternal (LogoutState.bearerRequest "h.p.x") = .error .signature :=
    (doFilterInternal_of_token (by decide +kernel) (LogoutState.resolveToken_bearer _)).trans rfl
  rw [thrown] at passed
  cases passed

end JwtBackend

end StockAnomaly.ApiServer
