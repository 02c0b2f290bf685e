import StockAnomaly.ApiServer.JwtFilter
import StockAnomaly.ApiServer.KisTokens

/-!
# Accounts, logins and what they authorise

`UserService`, `AuthService`, the token provider, the blacklist and the filter over whole
runs of the server. Clients cannot sign claims of their own, so a request is authenticated
exactly while the text it carries has the claims of a login that is not expired, and this
text is not logged out; the login knew a password of the account: **`authenticated_iff`**.
No row of `users` changes but by its own sign-up and by requests with such a text of its
own: **`row_changed`**. The parser accepts several texts with the same claims, and the
blacklist goes by the text.

A token is a function of the email and of two times in whole seconds. Two logins of a user
within a second may share one, and then a logout ends both sessions:
**`logout_ends_iff`**.
-/

namespace StockAnomaly.ApiServer

open StockAnomaly.Theory

/-- The payload of a token; jjwt writes dates in seconds. -/
structure JwtBody where
  subject : String
  issuedAt : ℤ
  expiration : ℤ

/-- What is outside: BCrypt, the constraint `@Email`, jjwt with the server's key, KIS. -/
structure AuthEnv (Salt : Type) where
  /-- `none` for a password that the encoder refuses. -/
  encode : String → Salt → Option String
  isMatch : String → String → Bool
  isMatch_encode : ∀ raw salt hash, encode raw salt = some hash → isMatch raw hash = true
  isEmail : String → Bool
  /-- What the database compares of an email. -/
  collate : String → String
  compact : JwtBody → String
  signed : String → Option Claims
  signed_compact : ∀ body, signed (compact body) = some ⟨body.subject, body.expiration * 1000⟩
  expirationMs : ℤ
  tokenP : TokenEndpoint

/-- A row of `users`. -/
structure Account where
  email : String
  /-- As BCrypt encodes it. -/
  password : String
  name : String
  phoneNumber : Option String
  keys : KisKeys
deriving DecidableEq

structure SignUpRequest where
  email : Option String
  password : Option String
  name : Option String
  phoneNumber : Option String
  keys : KisKeys

structure LoginRequest where
  email : Option String
  password : Option String

/-- Why a request is answered with status 400. -/
inductive Refusal
  /-- A constraint of the request's class is violated. -/
  | notValid
  | illegalArgument (message : String)
  /-- The exception of the password encoder. -/
  | encoder
deriving DecidableEq

/-- The text, if it meets `@NotBlank`. -/
def notBlank (text : Option String) : Option String := text.filter fun text => JavaString.trim text ≠ ""

/-- A login that was answered with a token. -/
structure Login where
  email : String
  password : String
  token : String
  atMs : ℤ
deriving DecidableEq

/-- The table `users`, Redis, the clock, and the record of the logins and logouts. -/
structure Accounts where
  users : String → Option Account
  redis : Redis
  blacklist : BlacklistStore
  nowMs : ℤ
  logins : List Login
  /-- Each token logged out, with the time. -/
  logouts : List (String × ℤ)

namespace Accounts

variable {Salt : Type} (env : AuthEnv Salt)

def createToken (email : String) (nowMs : ℤ) : String :=
  env.compact ⟨email, nowMs.tdiv 1000, (nowMs + env.expirationMs).tdiv 1000⟩

/-- The last millisecond of a token created at `nowMs`. -/
def expiration (nowMs : ℤ) : ℤ := (nowMs + env.expirationMs).tdiv 1000 * 1000

def findByEmail (s : Accounts) (email : String) : Option Account := s.users (env.collate email)

def save (s : Accounts) (user : Account) : Accounts :=
  { s with users := Function.update s.users (env.collate user.email) (some user) }

/-- The parser and the users that the filter asks. -/
def jwt (s : Accounts) : JwtEnv where
  signed := env.signed
  registered email := (s.findByEmail env email).isSome

def signUp (s : Accounts) (request : SignUpRequest) (salt : Salt) : Except Refusal Unit × Accounts :=
  match notBlank request.email, notBlank request.password, notBlank request.name with
  | some email, some password, some name =>
    if !env.isEmail email then (.error .notValid, s)
    else if (s.findByEmail env email).isSome then (.error (.illegalArgument "이미 사용 중인 이메일입니다."), s)
    else
      let hasKisKeys := UserService.hasKisKeys request.keys
      let (valid, redis) :=
        if hasKisKeys then
          KisTokenManager.validateKeys env.tokenP s.redis request.keys.kisApiKey request.keys.kisSecretKey
        else (true, s.redis)
      if !valid then (.error (.illegalArgument UserService.invalidKeys), { s with redis })
      else
        match env.encode password salt with
        | none => (.error .encoder, { s with redis })
        | some hash =>
          (.ok (), { s with redis }.save env {
            email, password := hash, name, phoneNumber := request.phoneNumber
            keys := if hasKisKeys then request.keys else ⟨none, none⟩ })
  | _, _, _ => (.error .notValid, s)

/-- The user of a login, before the token is created. -/
def userOf (s : Accounts) (request : LoginRequest) : Except Refusal Account :=
  match notBlank request.email, notBlank request.password with
  | some email, some password =>
    if !env.isEmail email then .error .notValid
    else
      match s.findByEmail env email with
      | none => .error (.illegalArgument "User not found")
      | some user =>
        if !env.isMatch password user.password then .error (.illegalArgument "Invalid password")
        else .ok user
  | _, _ => .error .notValid

def login (s : Accounts) (request : LoginRequest) : Except Refusal String :=
  (s.userOf env request).map fun user => createToken env user.email s.nowMs

/-- The request that updates the keys, with the token in the header or the parameter. -/
def kisKeysRequest (authorization tokenParameter : Option String) : HttpRequest :=
  ⟨"/api/v1/users/me/kis-keys", authorization, tokenParameter⟩

/-- The body comes with both keys, and KIS or the cached token accepts them. -/
def updateKisKeys (s : Accounts) (user : Account) (body : KisKeys) : Except Refusal Unit × Accounts :=
  if (notBlank body.kisApiKey).isNone || (notBlank body.kisSecretKey).isNone then (.error .notValid, s)
  else
    let (valid, redis) := KisTokenManager.validateKeys env.tokenP s.redis body.kisApiKey body.kisSecretKey
    if !valid then (.error (.illegalArgument UserService.invalidKeys), { s with redis })
    else (.ok (), { s with redis }.save env { user with keys := body })

/-- What the filter authenticates a request as, now. -/
def authenticate (s : Accounts) (request : HttpRequest) : Option String :=
  JwtAuthenticationFilter.doFilterInternal (s.jwt env) s.blacklist request s.nowMs

inductive Action (Salt : Type)
  | signUp (request : SignUpRequest) (salt : Salt)
  | login (request : LoginRequest)
  | logout (authorization : Option String)
  | updateKisKeys (authorization tokenParameter : Option String) (body : KisKeys)
  | wait (ms : ℕ)

def step (s : Accounts) : Action Salt → Option Accounts
  | .signUp request salt => some (s.signUp env request salt).2
  | .login request =>
    match s.userOf env request with
    | .ok user =>
      some { s with logins := s.logins ++
        [⟨user.email, request.password.getD "", createToken env user.email s.nowMs, s.nowMs⟩] }
    | .error _ => some s
  | .logout authorization =>
    match bearerToken authorization with
    | some token =>
      some { s with
        blacklist := JwtBlacklistService.blacklist (s.jwt env) s.blacklist token s.nowMs
        logouts := s.logouts ++ [(token, s.nowMs)] }
    | none => some s
  | .updateKisKeys authorization tokenParameter body =>
    -- without an authentication the chain answers 403
    match (s.authenticate env (kisKeysRequest authorization tokenParameter)).bind (s.findByEmail env) with
    | some user => some (s.updateKisKeys env user body).2
    | none => some s
  | .wait ms => some { s with nowMs := s.nowMs + ms }

def machine : Machine Accounts (Action Salt) where
  init := ⟨fun _ => none, fun _ => none, fun _ => none, 0, [], []⟩
  step := step env

/-! ## The blacklist -/

/-- Until when a logout at `atMs` holds for a token that expires at `expiration`: for the whole
seconds that are left. -/
def heldUntil (expiration atMs : ℤ) : Option ℤ :=
  if atMs + 1000 ≤ expiration then some (expiration - (expiration - atMs) % 1000) else none

/-- Until when the logouts so far hold for a token; the last one that left an entry counts. -/
def revokedUntil (s : Accounts) (token : String) : Option ℤ :=
  (env.signed token).bind fun claims =>
    ((s.logouts.filter (·.1 = token)).filterMap fun l => heldUntil claims.expiration l.2).getLast?

/-- A logout of the token holds. -/
def Revoked (s : Accounts) (token : String) : Prop := ∃ gone ∈ s.revokedUntil env token, s.nowMs < gone

variable {env} {s s' : Accounts} {token email : String} {request : HttpRequest} {claims : Claims}

/-- What a logout does to Redis. -/
theorem blacklist_of_signed {jwt : JwtEnv} {store : BlacklistStore} {nowMs : ℤ}
    (signed : jwt.signed token = some claims) : JwtBlacklistService.blacklist jwt store token nowMs =
      (heldUntil claims.expiration nowMs).elim store fun gone => Function.update store token (some gone) := by
  have remaining : JwtTokenProvider.getRemainingExpirationSeconds jwt token nowMs =
      if nowMs ≤ claims.expiration then (claims.expiration - nowMs) / 1000 else 0 := by
    rw [JwtTokenProvider.getRemainingExpirationSeconds, JwtTokenProvider.parseClaimsJws, signed, Option.filter_some]
    split_ifs with valid expired expired
    · have left : 0 ≤ claims.expiration - nowMs := by omega
      simp only [Int.tdiv_eq_ediv_of_nonneg left]
      omega
    · exact absurd (of_decide_eq_true valid) expired
    · exact absurd (decide_eq_true expired) valid
    · rfl
  rw [JwtBlacklistService.blacklist, remaining, heldUntil]
  by_cases long : nowMs + 1000 ≤ claims.expiration
  · have valid : nowMs ≤ claims.expiration := by omega
    have whole : ¬ (claims.expiration - nowMs) / 1000 ≤ 0 := by omega
    have gone : nowMs + (claims.expiration - nowMs) / 1000 * 1000 =
        claims.expiration - (claims.expiration - nowMs) % 1000 := by omega
    rw [if_pos valid, if_neg whole, if_pos long, gone]
    rfl
  · have short : (if nowMs ≤ claims.expiration then (claims.expiration - nowMs) / 1000 else 0) ≤ 0 := by
      split_ifs <;> omega
    rw [if_pos short, if_neg long]
    rfl

theorem blacklist_of_unsigned {jwt : JwtEnv} {store : BlacklistStore} {nowMs : ℤ}
    (unsigned : jwt.signed token = none) : JwtBlacklistService.blacklist jwt store token nowMs = store := by
  rw [JwtBlacklistService.blacklist, JwtTokenProvider.getRemainingExpirationSeconds,
    JwtTokenProvider.parseClaimsJws, unsigned]
  rfl

/-- The logouts so far and one more. -/
theorem revokedUntil_logout (other : String) (blacklist : BlacklistStore) (atMs : ℤ) :
    ({ s with blacklist, logouts := s.logouts ++ [(other, atMs)] } : Accounts).revokedUntil env token =
      if other = token then
        ((env.signed token).bind fun claims => heldUntil claims.expiration atMs).or (s.revokedUntil env token)
      else s.revokedUntil env token := by
  unfold revokedUntil
  cases env.signed token with
  | none => simp
  | some claims =>
    simp only [Option.bind_some, List.filter_append, List.filterMap_append, List.getLast?_append]
    by_cases same : other = token
    · rw [if_pos same]
      congr 1
      cases held : heldUntil claims.expiration atMs <;> simp [same, held]
    · simp [same]

/-! ## The keys alone -/

/-- What `UserService` has of the state. -/
def userService (s : Accounts) : UserService := ⟨s.redis, fun key => (s.users key).map Account.keys⟩

theorem userService_save (user : Account) (redis : Redis) :
    (({ s with redis } : Accounts).save env user).userService =
      ({ s.userService with redis } : UserService).save (env.collate user.email) user.keys := by
  simp only [userService, Accounts.save, UserService.save, UserService.mk.injEq, true_and]
  funext key
  by_cases same : key = env.collate user.email
  · subst same
    simp
  · simp [same]

/-- A sign-up whose fields are in order does to the keys what the model of the keys alone says. -/
theorem userService_signUp {request : SignUpRequest} {salt : Salt} {password name hash : String}
    (some_email : notBlank request.email = some email) (well_formed : env.isEmail email = true)
    (some_password : notBlank request.password = some password) (some_name : notBlank request.name = some name)
    (encoded : env.encode password salt = some hash) : (s.signUp env request salt).2.userService =
      (UserService.signUp env.tokenP s.userService (env.collate email) request.keys).2 := by
  have row : (s.userService.users (env.collate email)).isSome = (s.findByEmail env email).isSome := Option.isSome_map
  show _ = (UserService.signUp env.tokenP ⟨s.redis, s.userService.users⟩ (env.collate email) request.keys).2
  rw [signUp, UserService.signUp, some_email, some_password, some_name, row]
  simp only [well_formed, Bool.not_true, Bool.false_eq_true, if_false, encoded]
  by_cases taken : (s.findByEmail env email).isSome = true
  · rw [if_pos taken, if_pos taken]
    rfl
  · rw [if_neg taken, if_neg taken]
    cases entered : UserService.hasKisKeys request.keys with
    | false => exact userService_save _ s.redis
    | true =>
      simp only [if_true]
      generalize KisTokenManager.validateKeys env.tokenP s.redis request.keys.kisApiKey
        request.keys.kisSecretKey = checked
      obtain ⟨valid, redis⟩ := checked
      cases valid with
      | false => rfl
      | true => exact userService_save _ redis

/-- So does an update of the keys, of which neither is blank. -/
theorem userService_updateKisKeys {user : Account} {body : KisKeys} (api : (notBlank body.kisApiKey).isSome = true)
    (secret : (notBlank body.kisSecretKey).isSome = true) : (s.updateKisKeys env user body).2.userService =
      (UserService.updateKisKeys env.tokenP s.userService (env.collate user.email) body).2 := by
  show _ = (UserService.updateKisKeys env.tokenP ⟨s.redis, s.userService.users⟩ (env.collate user.email) body).2
  rw [updateKisKeys, UserService.updateKisKeys, Option.isNone_eq_false_iff.2 api, Option.isNone_eq_false_iff.2 secret]
  simp only [Bool.or_self, Bool.false_eq_true, if_false]
  generalize KisTokenManager.validateKeys env.tokenP s.redis body.kisApiKey body.kisSecretKey = checked
  obtain ⟨valid, redis⟩ := checked
  cases valid with
  | false => rfl
  | true => exact userService_save _ redis

/-! ## The filter -/

theorem isBlacklisted_iff {store : BlacklistStore} {nowMs : ℤ} :
    JwtBlacklistService.isBlacklisted store token nowMs = true ↔ ∃ gone ∈ store token, nowMs < gone := by
  rw [JwtBlacklistService.isBlacklisted]
  cases store token <;> simp

theorem doFilterInternal_eq_some_iff {jwt : JwtEnv} {store : BlacklistStore} {nowMs : ℤ}
    (path : JwtBackend.exempt request.requestURI = false)
    (carries : JwtAuthenticationFilter.resolveToken request = some token) :
    JwtAuthenticationFilter.doFilterInternal jwt store request nowMs = some email ↔
      (∃ claims, jwt.signed token = some claims ∧ nowMs ≤ claims.expiration ∧ claims.subject = email) ∧
        jwt.registered email = true ∧ ¬ ∃ gone ∈ store token, nowMs < gone := by
  have not_exempt : (JavaString.startsWith request.requestURI "/api/v1/auth/" ||
      request.requestURI = "/api/v1/users/signup") = false := path
  rw [JwtAuthenticationFilter.doFilterInternal, not_exempt, carries, ← isBlacklisted_iff]
  simp only [Bool.false_eq_true, if_false, JwtTokenProvider.validateToken, JwtTokenProvider.getAuthentication,
    JwtTokenProvider.parseClaimsJws]
  cases JwtBlacklistService.isBlacklisted store token nowMs with
  | true => simp
  | false =>
    obtain unsigned | ⟨claims, signed⟩ := Option.eq_none_or_eq_some (jwt.signed token)
    · simp [unsigned]
    · by_cases valid : nowMs ≤ claims.expiration
      · simp only [signed, Option.filter_some, valid, decide_true, if_true, Option.isSome_some, Bool.not_false,
          Bool.and_self, Option.bind_some, Option.some.injEq, exists_eq_left', true_and, Bool.false_eq_true,
          not_false_eq_true, and_true]
        constructor
        · intro found
          obtain ⟨known, subject⟩ := Option.ite_none_right_eq_some.1 found
          cases subject
          exact ⟨rfl, known⟩
        · rintro ⟨rfl, known⟩
          exact if_pos known
      · simp [signed, valid]

/-- A request is authenticated as the subject of its token. -/
theorem authenticate_eq_some (path : JwtBackend.exempt request.requestURI = false)
    (carries : JwtAuthenticationFilter.resolveToken request = some token) :
    s.authenticate env request = some email ↔
      (∃ claims, env.signed token = some claims ∧ s.nowMs ≤ claims.expiration ∧ claims.subject = email) ∧
        (s.findByEmail env email).isSome = true ∧ ¬ ∃ gone ∈ s.blacklist token, s.nowMs < gone :=
  doFilterInternal_eq_some_iff path carries

/-! ## What every operation keeps -/

/-- The login knew a password of an account, which is still there, and got its token then. -/
structure Genuine (env : AuthEnv Salt) (s : Accounts) (login : Login) : Prop where
  account : ∃ user, s.findByEmail env login.email = some user ∧ user.email = login.email ∧
    env.isMatch login.password user.password = true
  token : login.token = createToken env login.email login.atMs
  past : 0 ≤ login.atMs ∧ login.atMs ≤ s.nowMs

structure Inv (env : AuthEnv Salt) (s : Accounts) : Prop where
  clock : 0 ≤ s.nowMs
  own : ∀ key user, s.users key = some user → env.collate user.email = key
  genuine : ∀ login ∈ s.logins, s.Genuine env login
  blacklist : ∀ token, s.blacklist token = s.revokedUntil env token

theorem Inv.init : Inv env (machine env).init := by
  refine ⟨le_rfl, ?_, ?_, ?_⟩
  · intro key user found
    cases found
  · intro login mem
    cases mem
  · intro token
    show none = Option.bind (env.signed token) fun _ => none
    cases env.signed token <;> rfl

theorem users_save (user : Account) (key : String) : (s.save env user).users key =
    if key = env.collate user.email then some user else s.users key :=
  Function.update_apply ..

theorem Inv.redis (h : Inv env s) (redis : Redis) : Inv env { s with redis } := by
  refine ⟨h.clock, h.own, ?_, h.blacklist⟩
  intro login mem
  obtain ⟨account, token, past⟩ := h.genuine login mem
  exact ⟨account, token, past⟩

/-- A row is written that keeps what logins have seen of it. -/
theorem Inv.save (h : Inv env s) {user : Account} (redis : Redis)
    (kept : ∀ old, s.findByEmail env user.email = some old → old.email = user.email ∧ old.password = user.password) :
    Inv env (({ s with redis } : Accounts).save env user) := by
  refine ⟨h.clock, ?_, ?_, h.blacklist⟩
  · intro key found there
    rw [users_save] at there
    split_ifs at there with same
    · cases there
      exact same.symm
    · exact h.own key found there
  · intro login mem
    obtain ⟨⟨account, found, email, correct⟩, token, past⟩ := h.genuine login mem
    refine ⟨?_, token, past⟩
    rw [findByEmail, users_save]
    split_ifs with same
    · have row : s.findByEmail env user.email = some account := by
        rw [findByEmail, ← same]
        exact found
      obtain ⟨same_email, same_password⟩ := kept account row
      exact ⟨user, rfl, same_email.symm.trans email, same_password ▸ correct⟩
    · exact ⟨account, found, email, correct⟩

/-- A sign-up changes Redis at most, or adds a row for a new email. -/
theorem signUp_cases (env : AuthEnv Salt) (s : Accounts) (request : SignUpRequest) (salt : Salt) :
    ∃ redis, (s.signUp env request salt).2 = { s with redis } ∨
      ∃ user, s.findByEmail env user.email = none ∧
        (∃ raw ∈ request.password, env.encode raw salt = some user.password) ∧
        (s.signUp env request salt).2 = ({ s with redis } : Accounts).save env user := by
  have unchanged : s = { s with redis := s.redis } := rfl
  unfold signUp
  split
  case h_2 => exact ⟨_, .inl unchanged⟩
  case h_1 email password name _ given _ =>
    split
    case isTrue => exact ⟨_, .inl unchanged⟩
    case isFalse =>
      split
      case isTrue => exact ⟨_, .inl unchanged⟩
      case isFalse new =>
        have fresh : s.findByEmail env email = none := Option.not_isSome_iff_eq_none.1 new
        dsimp only
        generalize (if UserService.hasKisKeys request.keys = true then
          KisTokenManager.validateKeys env.tokenP s.redis request.keys.kisApiKey request.keys.kisSecretKey
          else (true, s.redis)) = checked
        obtain ⟨valid, redis⟩ := checked
        cases valid with
        | false => exact ⟨redis, .inl rfl⟩
        | true =>
          dsimp only
          cases encoded : env.encode password salt with
          | none => exact ⟨redis, .inl rfl⟩
          | some hash =>
            have entered := (Option.filter_eq_some_iff.1 given).1
            exact ⟨redis, .inr ⟨_, fresh, ⟨password, entered, encoded⟩, rfl⟩⟩

/-- An update of the keys changes Redis at most, or the keys of the user's row. -/
theorem updateKisKeys_cases (env : AuthEnv Salt) (s : Accounts) (user : Account) (body : KisKeys) :
    ∃ redis, (s.updateKisKeys env user body).2 = { s with redis } ∨
      ((KisTokenManager.validateKeys env.tokenP s.redis body.kisApiKey body.kisSecretKey).1 = true ∧
        (s.updateKisKeys env user body).2 = ({ s with redis } : Accounts).save env { user with keys := body }) := by
  unfold updateKisKeys
  split
  case isTrue => exact ⟨s.redis, .inl rfl⟩
  case isFalse =>
    generalize KisTokenManager.validateKeys env.tokenP s.redis body.kisApiKey body.kisSecretKey = checked
    obtain ⟨valid, redis⟩ := checked
    cases valid with
    | false => exact ⟨redis, .inl rfl⟩
    | true => exact ⟨redis, .inr ⟨rfl, rfl⟩⟩

/-- The user that a login finds. -/
theorem userOf_eq_ok {login : LoginRequest} {user : Account} (accepted : s.userOf env login = .ok user) :
    ∃ email ∈ login.email, ∃ password ∈ login.password,
      s.findByEmail env email = some user ∧ env.isMatch password user.password = true := by
  unfold userOf at accepted
  split at accepted
  case h_2 => cases accepted
  case h_1 email password some_email some_password =>
    split at accepted
    case isTrue => cases accepted
    case isFalse =>
      split at accepted
      case h_1 => cases accepted
      case h_2 found =>
        split at accepted
        case isTrue => cases accepted
        case isFalse correct =>
          cases accepted
          refine ⟨email, (Option.filter_eq_some_iff.1 some_email).1, password,
            (Option.filter_eq_some_iff.1 some_password).1, found, ?_⟩
          simpa using correct

theorem Inv.login (h : Inv env s) {request : LoginRequest} {user : Account}
    (accepted : s.userOf env request = .ok user) :
    Inv env { s with logins := s.logins ++
      [⟨user.email, request.password.getD "", createToken env user.email s.nowMs, s.nowMs⟩] } := by
  refine ⟨h.clock, h.own, ?_, h.blacklist⟩
  intro login mem
  rcases List.mem_append.1 mem with earlier | now
  · obtain ⟨account, token, past⟩ := h.genuine login earlier
    exact ⟨account, token, past⟩
  · obtain rfl := List.mem_singleton.1 now
    obtain ⟨email, -, password, given, found, correct⟩ := userOf_eq_ok accepted
    refine ⟨⟨user, ?_, rfl, ?_⟩, rfl, h.clock, le_rfl⟩
    · show s.users (env.collate user.email) = some user
      rw [h.own _ user found]
      exact found
    · rw [Option.mem_def.1 given]
      exact correct

theorem Inv.logout (h : Inv env s) (token : String) :
    Inv env { s with
      blacklist := JwtBlacklistService.blacklist (s.jwt env) s.blacklist token s.nowMs
      logouts := s.logouts ++ [(token, s.nowMs)] } := by
  refine ⟨h.clock, h.own, ?_, ?_⟩
  · intro login mem
    obtain ⟨account, token, past⟩ := h.genuine login mem
    exact ⟨account, token, past⟩
  · intro other
    rw [revokedUntil_logout]
    show JwtBlacklistService.blacklist (s.jwt env) s.blacklist token s.nowMs other = _
    obtain unsigned | ⟨claims, signed⟩ := Option.eq_none_or_eq_some (env.signed token)
    · rw [@blacklist_of_unsigned _ (s.jwt env) _ _ unsigned, h.blacklist other]
      split_ifs with same
      · rw [← same, unsigned, Option.bind_none, Option.none_or]
      · rfl
    · rw [@blacklist_of_signed _ _ (s.jwt env) _ _ signed]
      by_cases same : token = other
      · subst same
        rw [if_pos rfl, signed, Option.bind_some]
        cases heldUntil claims.expiration s.nowMs with
        | none => exact h.blacklist token
        | some gone => exact Function.update_self ..
      · rw [if_neg same, ← h.blacklist other]
        cases heldUntil claims.expiration s.nowMs with
        | none => rfl
        | some gone => exact Function.update_of_ne (Ne.symm same) ..

theorem Inv.step (h : Inv env s) {a : Action Salt} (step : (machine env).step s a = some s') : Inv env s' := by
  cases a with
  | signUp request salt =>
    cases step
    obtain ⟨redis, refused | ⟨user, new, -, added⟩⟩ := signUp_cases env s request salt
    · rw [refused]
      exact h.redis redis
    · rw [added]
      apply h.save redis
      intro old found
      rw [new] at found
      cases found
  | login request =>
    simp only [machine, Accounts.step] at step
    split at step
    case h_1 user accepted =>
      cases step
      exact h.login accepted
    case h_2 =>
      cases step
      exact h
  | logout authorization =>
    simp only [machine, Accounts.step] at step
    split at step
    case h_1 token _ =>
      cases step
      exact h.logout token
    case h_2 =>
      cases step
      exact h
  | updateKisKeys authorization tokenParameter body =>
    simp only [machine, Accounts.step] at step
    split at step
    case h_1 user found =>
      cases step
      obtain ⟨email, -, row⟩ := Option.bind_eq_some_iff.1 found
      obtain ⟨redis, refused | ⟨-, updated⟩⟩ := updateKisKeys_cases env s user body
      · rw [refused]
        exact h.redis redis
      · rw [updated]
        apply h.save redis
        intro old there
        have same : s.findByEmail env user.email = some user := by
          rw [findByEmail, h.own _ user row]
          exact row
        obtain rfl : old = user := Option.some.inj (there.symm.trans same)
        exact ⟨rfl, rfl⟩
    case h_2 =>
      cases step
      exact h
  | wait ms =>
    cases step
    have later : s.nowMs ≤ s.nowMs + (ms : ℤ) := by omega
    refine ⟨h.clock.trans later, h.own, ?_, h.blacklist⟩
    intro login mem
    obtain ⟨account, token, started, past⟩ := h.genuine login mem
    exact ⟨account, token, started, past.trans later⟩

theorem inv_of_reachable (reach : (machine env).Reachable s) : Inv env s :=
  reach.induct Inv.init fun _ _ _ inv step => inv.step step

/-! ## Sessions -/

/-- Clients cannot sign: a text that parses has the claims of a login. -/
def Unforged (env : AuthEnv Salt) (s : Accounts) (token : String) : Prop :=
  ∀ claims, env.signed token = some claims →
    ∃ login ∈ s.logins, claims = ⟨login.email, expiration env login.atMs⟩

/-- The text has the claims of a login of the user, which is not expired, and no logout of this
text holds. -/
structure Session (env : AuthEnv Salt) (s : Accounts) (token email : String) : Prop where
  login : ∃ login ∈ s.logins, s.Genuine env login ∧
    env.signed token = some ⟨login.email, expiration env login.atMs⟩ ∧ login.email = email ∧
    s.nowMs ≤ expiration env login.atMs
  live : ¬ s.Revoked env token

theorem signed_createToken (env : AuthEnv Salt) (email : String) (atMs : ℤ) :
    env.signed (createToken env email atMs) = some ⟨email, expiration env atMs⟩ :=
  env.signed_compact _

/-- A request that is authenticated carries a text of a session. -/
theorem session_of_authenticate (reach : (machine env).Reachable s)
    (path : JwtBackend.exempt request.requestURI = false)
    (carries : JwtAuthenticationFilter.resolveToken request = some token) (unforged : s.Unforged env token)
    (authenticated : s.authenticate env request = some email) : s.Session env token email := by
  have inv := inv_of_reachable reach
  rw [authenticate_eq_some path carries, inv.blacklist] at authenticated
  obtain ⟨⟨claims, signed, valid, subject⟩, -, live⟩ := authenticated
  obtain ⟨login, mem, rfl⟩ := unforged claims signed
  exact ⟨⟨login, mem, inv.genuine login mem, signed, subject, valid⟩, live⟩

/-- **A request is authenticated exactly while its text is one of a session**, and that login
knew a password of the account. -/
theorem authenticated_iff (reach : (machine env).Reachable s)
    (path : JwtBackend.exempt request.requestURI = false)
    (carries : JwtAuthenticationFilter.resolveToken request = some token) (unforged : s.Unforged env token) :
    s.authenticate env request = some email ↔ s.Session env token email := by
  refine ⟨session_of_authenticate reach path carries unforged, ?_⟩
  have inv := inv_of_reachable reach
  rw [authenticate_eq_some path carries, inv.blacklist]
  rintro ⟨⟨login, -, genuine, signed, email_eq, valid⟩, live⟩
  obtain ⟨user, found, -⟩ := genuine.account
  refine ⟨⟨_, signed, valid, email_eq⟩, ?_, live⟩
  rw [← email_eq, found, Option.isSome_some]

/-- The claims of the request for an update of the keys are not forged. -/
def Action.Unforged (env : AuthEnv Salt) (s : Accounts) : Action Salt → Prop
  | .updateKisKeys authorization tokenParameter _ =>
    ∀ token ∈ JwtAuthenticationFilter.resolveToken (kisKeysRequest authorization tokenParameter), s.Unforged env token
  | _ => True

/-- The row at `key` is added by its sign-up. -/
def SignedUp (env : AuthEnv Salt) (s s' : Accounts) (key : String) (a : Action Salt) : Prop :=
  ∃ request salt user, a = .signUp request salt ∧ s.users key = none ∧ s'.users key = some user ∧
    ∃ raw ∈ request.password, env.encode raw salt = some user.password

/-- A request of a session of the row's own user replaces its keys by a pair that passes. -/
def KeysUpdated (env : AuthEnv Salt) (s s' : Accounts) (key : String) (a : Action Salt) : Prop :=
  ∃ authorization tokenParameter body user, a = .updateKisKeys authorization tokenParameter body ∧
    s.users key = some user ∧ s'.users key = some { user with keys := body } ∧
    (KisTokenManager.validateKeys env.tokenP s.redis body.kisApiKey body.kisSecretKey).1 = true ∧
    ∃ token ∈ JwtAuthenticationFilter.resolveToken (kisKeysRequest authorization tokenParameter),
      s.Session env token user.email

theorem kisKeys_not_exempt (authorization tokenParameter : Option String) :
    JwtBackend.exempt (kisKeysRequest authorization tokenParameter).requestURI = false := by
  show JwtBackend.exempt "/api/v1/users/me/kis-keys" = false
  decide +kernel

/-- Nobody is authenticated without a token. -/
theorem token_of_authenticate (path : JwtBackend.exempt request.requestURI = false)
    (authenticated : s.authenticate env request = some email) :
    ∃ token, JwtAuthenticationFilter.resolveToken request = some token := by
  have not_exempt : (JavaString.startsWith request.requestURI "/api/v1/auth/" ||
      request.requestURI = "/api/v1/users/signup") = false := path
  rw [authenticate, JwtAuthenticationFilter.doFilterInternal, not_exempt] at authenticated
  cases carries : JwtAuthenticationFilter.resolveToken request with
  | none =>
    rw [carries] at authenticated
    cases authenticated
  | some token => exact ⟨token, rfl⟩

/-- **Rows change by their own sign-up and by requests of their own sessions only.** -/
theorem row_changed (reach : (machine env).Reachable s) {a : Action Salt} (unforged : a.Unforged env s)
    (step : (machine env).step s a = some s') {key : String} (differs : s'.users key ≠ s.users key) :
    SignedUp env s s' key a ∨ KeysUpdated env s s' key a := by
  have inv := inv_of_reachable reach
  cases a with
  | signUp request salt =>
    cases step
    obtain ⟨redis, refused | ⟨user, new, encoded, added⟩⟩ := signUp_cases env s request salt
    · rw [refused] at differs
      exact absurd rfl differs
    · rw [added, users_save] at differs
      split_ifs at differs with same
      · subst same
        refine .inl ⟨request, salt, user, rfl, new, ?_, encoded⟩
        rw [added, users_save, if_pos rfl]
      · exact absurd rfl differs
  | updateKisKeys authorization tokenParameter body =>
    simp only [machine, Accounts.step] at step
    split at step
    case h_2 =>
      cases step
      exact absurd rfl differs
    case h_1 user found =>
      cases step
      obtain ⟨email, authenticated, row⟩ := Option.bind_eq_some_iff.1 found
      have path := kisKeys_not_exempt authorization tokenParameter
      obtain ⟨token, carries⟩ := token_of_authenticate path authenticated
      have session := session_of_authenticate reach path carries (unforged token carries) authenticated
      have same_email : user.email = email := by
        obtain ⟨login, -, genuine, -, email_eq, -⟩ := session.login
        obtain ⟨account, there, account_email, -⟩ := genuine.account
        rw [email_eq] at there account_email
        rw [← account_email, Option.some.inj (row.symm.trans there)]
      obtain ⟨redis, refused | ⟨valid, updated⟩⟩ := updateKisKeys_cases env s user body
      · rw [refused] at differs
        exact absurd rfl differs
      · rw [updated, users_save] at differs
        split_ifs at differs with same
        · subst same
          refine .inr ⟨authorization, tokenParameter, body, user, rfl, ?_, ?_, valid, token, carries, ?_⟩
          · rw [same_email]
            exact row
          · rw [updated, users_save, if_pos rfl]
          · rw [same_email]
            exact session
        · exact absurd rfl differs
  | login request =>
    simp only [machine, Accounts.step] at step
    split at step <;> cases step <;> exact absurd rfl differs
  | logout authorization =>
    simp only [machine, Accounts.step] at step
    split at step <;> cases step <;> exact absurd rfl differs
  | wait ms =>
    cases step
    exact absurd rfl differs

/-! ## Logins within a second -/

/-- A lifetime of whole seconds makes the token a function of the user and the second. -/
theorem createToken_eq_iff {seconds t u : ℤ} (whole : env.expirationMs = seconds * 1000) (lasts : 0 ≤ seconds)
    (started : 0 ≤ t) (later : 0 ≤ u) {other : String} :
    createToken env email t = createToken env other u ↔ email = other ∧ t / 1000 = u / 1000 := by
  have expires (v : ℤ) (started : 0 ≤ v) : expiration env v = (v / 1000 + seconds) * 1000 := by
    rw [expiration, Int.tdiv_eq_ediv_of_nonneg (by omega), whole]
    omega
  constructor
  · intro same
    have claims : some _ = some _ :=
      (signed_createToken env email t).symm.trans ((congrArg env.signed same).trans (signed_createToken env other u))
    obtain ⟨subject, expiration⟩ := Claims.mk.inj (Option.some.inj claims)
    rw [expires t started, expires u later] at expiration
    exact ⟨subject, by omega⟩
  · rintro ⟨rfl, second⟩
    have issued : t.tdiv 1000 = u.tdiv 1000 := by
      rw [Int.tdiv_eq_ediv_of_nonneg started, Int.tdiv_eq_ediv_of_nonneg later, second]
    have expiration : (t + env.expirationMs).tdiv 1000 = (u + env.expirationMs).tdiv 1000 := by
      rw [Int.tdiv_eq_ediv_of_nonneg (by omega), Int.tdiv_eq_ediv_of_nonneg (by omega), whole]
      omega
    rw [createToken, createToken, issued, expiration]

/-- **A logout ends the sessions of its user that began within its second**, and no other, when a
second at least is left of the token. -/
theorem logout_ends_iff {seconds : ℤ} (whole : env.expirationMs = seconds * 1000) (lasts : 0 ≤ seconds)
    (reach : (machine env).Reachable s) {login other : Login} (mem : login ∈ s.logins) (other_mem : other ∈ s.logins)
    (left : s.nowMs + 1000 ≤ expiration env login.atMs) (live : s.Session env other.token other.email)
    {authorization : Option String} (named : bearerToken authorization = some login.token)
    (step : (machine env).step s (.logout authorization) = some s') :
    ¬ s'.Session env other.token other.email ↔
      other.email = login.email ∧ other.atMs / 1000 = login.atMs / 1000 := by
  have inv := inv_of_reachable reach
  have genuine := inv.genuine login mem
  have other_genuine := inv.genuine other other_mem
  simp only [machine, Accounts.step, named, Option.some.injEq] at step
  subst step
  rw [← createToken_eq_iff whole lasts other_genuine.past.1 genuine.past.1, ← other_genuine.token, ← genuine.token]
  constructor
  · intro ended
    by_contra differ
    obtain ⟨⟨begun, begun_mem, begun_genuine, signed, begun_email, valid⟩, not_revoked⟩ := live
    refine ended ⟨⟨begun, begun_mem, ?_, signed, begun_email, valid⟩, ?_⟩
    · exact ⟨begun_genuine.account, begun_genuine.token, begun_genuine.past⟩
    · rintro ⟨gone, held, soon⟩
      rw [revokedUntil_logout, if_neg (Ne.symm differ)] at held
      exact not_revoked ⟨gone, held, soon⟩
  · rintro same ⟨-, not_revoked⟩
    apply not_revoked
    refine ⟨expiration env login.atMs - (expiration env login.atMs - s.nowMs) % 1000, ?_, ?_⟩
    · rw [revokedUntil_logout, if_pos same.symm, same, genuine.token, signed_createToken, Option.bind_some, heldUntil,
        if_pos left]
      rfl
    · show s.nowMs < _
      omega

/-! ## A server with one user -/

/-- A sign, the seconds of the expiration, a point and the subject. -/
def compactText (body : JwtBody) : String :=
  String.ofList ((if body.expiration < 0 then '-' else '+') ::
    (List.replicate body.expiration.natAbs '1' ++ '.' :: body.subject.toList))

/-- Any character will do for the point, so several texts have the same claims. -/
def signedText (token : String) : Option Claims :=
  match token.toList with
  | [] => none
  | sign :: rest =>
    if sign = '+' ∨ sign = '-' then
      let seconds : ℤ := (rest.takeWhile (· = '1')).length
      some ⟨String.ofList (rest.dropWhile (· = '1')).tail, (if sign = '-' then -seconds else seconds) * 1000⟩
    else none

theorem signedText_compactText (body : JwtBody) :
    signedText (compactText body) = some ⟨body.subject, body.expiration * 1000⟩ := by
  obtain ⟨subject, issuedAt, expiration⟩ := body
  have digits : ∀ c ∈ List.replicate expiration.natAbs '1', decide (c = '1') = true := by
    intro c mem
    exact decide_eq_true (List.eq_of_mem_replicate mem)
  have taken : (List.replicate expiration.natAbs '1' ++ '.' :: subject.toList).takeWhile (· = '1') =
      List.replicate expiration.natAbs '1' := by
    rw [List.takeWhile_append_of_pos digits]
    simp
  have dropped : (List.replicate expiration.natAbs '1' ++ '.' :: subject.toList).dropWhile (· = '1') =
      '.' :: subject.toList := by
    rw [List.dropWhile_append_of_pos digits]
    simp
  simp only [signedText, compactText, String.toList_ofList, taken, dropped, List.length_replicate, List.tail_cons,
    String.ofList_toList]
  by_cases negative : expiration < 0
  · have seconds : -(expiration.natAbs : ℤ) = expiration := by omega
    rw [if_pos negative, if_pos (.inr rfl), if_pos rfl, seconds]
  · have seconds : (expiration.natAbs : ℤ) = expiration := by omega
    rw [if_neg negative, if_pos (.inl rfl), if_neg (by decide), seconds]

/-- Passwords are stored as they are, and tokens last for three seconds. -/
def oneKey : AuthEnv Unit where
  encode raw _ := some raw
  isMatch raw hash := raw = hash
  isMatch_encode _ _ _ encoded := decide_eq_true (Option.some.inj encoded)
  isEmail _ := true
  collate := id
  compact := compactText
  signed := signedText
  signed_compact := signedText_compactText
  expirationMs := 3000
  tokenP := UserService.onePair

/-- A sign-up and two logins within a second. -/
def signUpLogin : List (Action Unit) :=
  [.signUp ⟨some "user@example.com", some "secret", some "User", none, ⟨none, none⟩⟩ (), .wait 1500,
    .login ⟨some "user@example.com", some "secret"⟩, .wait 400, .login ⟨some "user@example.com", some "secret"⟩]

def loginAt (atMs : ℤ) : Login := ⟨"user@example.com", "secret", "+1111.user@example.com", atMs⟩

theorem exists_signUpLogin : ∃ s, (machine oneKey).run signUpLogin = some s ∧
    s.logins = [loginAt 1500, loginAt 1900] ∧ s.nowMs = 1900 ∧ s.logouts = [] := by
  obtain ⟨s, run, facts⟩ := (machine oneKey).exists_of_any signUpLogin
    (fun s => s.logins = [loginAt 1500, loginAt 1900] ∧ s.nowMs = 1900 ∧ s.logouts = []) (by decide +kernel)
  exact ⟨s, run, of_decide_eq_true facts⟩

theorem session_of_logins {text : String} (reach : (machine oneKey).Reachable s)
    (logins : s.logins = [loginAt 1500, loginAt 1900]) (now : s.nowMs = 1900)
    (parsed : signedText text = some ⟨"user@example.com", 4000⟩) (not_out : ∀ l ∈ s.logouts, l.1 ≠ text) :
    s.Session oneKey text "user@example.com" := by
  have mem : loginAt 1500 ∈ s.logins := by simp [logins]
  refine ⟨⟨loginAt 1500, mem, (inv_of_reachable reach).genuine _ mem, parsed, rfl, ?_⟩, ?_⟩
  · rw [now]
    decide
  · have none_of_it : s.logouts.filter (·.1 = text) = [] := by
      rw [List.filter_eq_nil_iff]
      intro l mem same
      exact not_out l mem (of_decide_eq_true same)
    rintro ⟨gone, held, -⟩
    simp [revokedUntil, none_of_it] at held

theorem unforged_of_logins {text : String} (logins : s.logins = [loginAt 1500, loginAt 1900])
    (parsed : signedText text = some ⟨"user@example.com", 4000⟩) : s.Unforged oneKey text := by
  intro claims signed
  refine ⟨loginAt 1500, by simp [logins], ?_⟩
  exact Option.some.inj (signed.symm.trans parsed)

/-- After the logout of a token another text with its claims is authenticated still. -/
theorem authenticated_iff_login : ∃ s,
    (machine oneKey).run (signUpLogin ++ [.logout (some "Bearer +1111.user@example.com")]) = some s ∧
    s.authenticate oneKey (LogoutState.bearerRequest "+1111 user@example.com") = some "user@example.com" := by
  obtain ⟨s, run, facts⟩ := (machine oneKey).exists_of_any
    (signUpLogin ++ [.logout (some "Bearer +1111.user@example.com")])
    (fun s => s.logins = [loginAt 1500, loginAt 1900] ∧ s.nowMs = 1900 ∧
      s.logouts = [("+1111.user@example.com", 1900)]) (by decide +kernel)
  obtain ⟨logins, now, logouts⟩ := of_decide_eq_true facts
  have parsed : signedText "+1111 user@example.com" = some ⟨"user@example.com", 4000⟩ := by decide +kernel
  have session := session_of_logins ⟨_, run⟩ logins now parsed (by simp [logouts])
  refine ⟨s, run, ?_⟩
  exact (authenticated_iff ⟨_, run⟩ (by decide +kernel) (LogoutState.resolveToken_bearer _)
    (unforged_of_logins logins parsed)).2 session

/-- The user enters the pair that KIS knows. -/
def enterKeys : Action Unit :=
  .updateKisKeys (some "Bearer +1111.user@example.com") none ⟨some "PSa", some "secret-a"⟩

theorem row_changed_keys : ∃ s s', (machine oneKey).run signUpLogin = some s ∧
    (machine oneKey).step s enterKeys = some s' ∧ KeysUpdated oneKey s s' "user@example.com" enterKeys := by
  obtain ⟨s, run, facts⟩ := (machine oneKey).exists_of_any signUpLogin
    (fun s => s.logins = [loginAt 1500, loginAt 1900] ∧
      ((machine oneKey).step s enterKeys).any fun s' => s'.users "user@example.com" ≠ s.users "user@example.com")
    (by decide +kernel)
  obtain ⟨logins, facts⟩ := of_decide_eq_true facts
  obtain ⟨s', step, differs⟩ := (Option.any_eq_true _ _).1 facts
  refine ⟨s, s', run, step, ?_⟩
  have unforged : enterKeys.Unforged oneKey s := by
    intro token carries
    obtain rfl : "+1111.user@example.com" = token := by
      have same : JwtAuthenticationFilter.resolveToken (kisKeysRequest (some "Bearer +1111.user@example.com") none) =
          some "+1111.user@example.com" := by decide +kernel
      exact Option.some.inj (same.symm.trans carries)
    exact unforged_of_logins logins (by decide +kernel)
  refine (row_changed ⟨_, run⟩ unforged step (of_decide_eq_true differs)).resolve_left ?_
  rintro ⟨_, _, _, other, -⟩
  cases other

theorem logout_ends_iff_twice : ∃ s s', (machine oneKey).run signUpLogin = some s ∧
    (machine oneKey).step s (.logout (some "Bearer +1111.user@example.com")) = some s' ∧
      ¬ s'.Session oneKey (loginAt 1900).token (loginAt 1900).email := by
  obtain ⟨s, run, logins, now, no_logout⟩ := exists_signUpLogin
  have named : bearerToken (some "Bearer +1111.user@example.com") = some (loginAt 1500).token := by decide +kernel
  obtain ⟨s', step⟩ : ∃ s', (machine oneKey).step s (.logout (some "Bearer +1111.user@example.com")) = some s' := by
    simp only [machine, Accounts.step, named, Option.some.injEq, exists_eq']
  refine ⟨s, s', run, step, ?_⟩
  have ends := @logout_ends_iff _ oneKey s s' 3 rfl (by decide) ⟨_, run⟩ (loginAt 1500) (loginAt 1900)
  apply (ends _ _ _ _ named step).2
  · decide
  · simp [logins]
  · simp [logins]
  · rw [now]
    decide
  · exact session_of_logins ⟨_, run⟩ logins now (by decide +kernel) (by simp [no_logout])

end Accounts

end StockAnomaly.ApiServer
