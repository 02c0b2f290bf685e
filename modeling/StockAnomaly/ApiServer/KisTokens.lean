import Mathlib.Logic.Function.Basic
import StockAnomaly.Theory.JavaString
import StockAnomaly.Theory.Machine

/-!
# Validation of KIS keys

`validateKeys` asks for an access token, and `getAccessToken` looks for one in Redis under
the *app key* alone. While a token is cached there, whoever has it issued, every secret
passes for that app key: **`validation_sound_iff`** says that this is the only way in which
a pair that KIS rejects passes or is stored. What passes at all is an app key for which KIS
accepted some secret: `accepted_of_validated`.
-/

namespace StockAnomaly.ApiServer

open StockAnomaly.Theory

/-- The token endpoint: the `access_token` that it issues for an app key and a secret. -/
abbrev TokenEndpoint := Option String → Option String → Option String

def TokenEndpoint.Accepts (tokenP : TokenEndpoint) (appKey appSecret : Option String) : Prop :=
  (tokenP appKey appSecret).isSome = true

abbrev Redis := String → Option String

namespace KisTokenManager

/-- `TOKEN_KEY_PREFIX + appKey`, where `null` is written out. -/
def redisKey (appKey : Option String) : String := "kis:token:" ++ appKey.getD "null"

def getAccessToken (tokenP : TokenEndpoint) (redis : Redis) (appKey appSecret : Option String) :
    Option String × Redis :=
  match redis (redisKey appKey) with
  | some cached => (some cached, redis)
  | none =>
    match tokenP appKey appSecret with
    | some token => (some token, Function.update redis (redisKey appKey) (some token))
    | none => (none, redis)

/-- `null` or blank. -/
def missing (text : Option String) : Bool := text.all JavaString.isBlank

def validateKeys (tokenP : TokenEndpoint) (redis : Redis) (appKey appSecret : Option String) : Bool × Redis :=
  if missing appKey || missing appSecret then (false, redis)
  else
    let (token, redis) := getAccessToken tokenP redis appKey appSecret
    (token.isSome, redis)

end KisTokenManager

/-- What the requests and the table `users` have of a KIS key. -/
structure KisKeys where
  kisApiKey : Option String
  kisSecretKey : Option String
deriving DecidableEq

/-- Redis and the table `users`, by email. -/
structure UserService where
  redis : Redis
  users : String → Option KisKeys

/-- The outcome of a request and the state it leaves. -/
abbrev Response := Except String Unit × UserService

namespace UserService

open KisTokenManager

def invalidKeys : String := "유효하지 않은 KIS API 키입니다. 발급받은 키를 다시 확인해주세요."

def save (s : UserService) (email : String) (keys : KisKeys) : UserService :=
  { s with users := Function.update s.users email (some keys) }

def updateKisKeys (tokenP : TokenEndpoint) (s : UserService) (email : String) (request : KisKeys) : Response :=
  let (valid, redis) := validateKeys tokenP s.redis request.kisApiKey request.kisSecretKey
  if !valid then (.error invalidKeys, { s with redis })
  else (.ok (), { s with redis }.save email request)

def hasKisKeys (request : KisKeys) : Bool := !missing request.kisApiKey && !missing request.kisSecretKey

def signUp (tokenP : TokenEndpoint) (s : UserService) (email : String) (request : KisKeys) : Response :=
  if (s.users email).isSome then (.error "이미 사용 중인 이메일입니다.", s)
  else if hasKisKeys request then
    let (valid, redis) := validateKeys tokenP s.redis request.kisApiKey request.kisSecretKey
    if !valid then (.error invalidKeys, { s with redis })
    else (.ok (), { s with redis }.save email request)
  else (.ok (), s.save email ⟨none, none⟩)

end UserService

inductive KeyAction
  | getAccessToken (appKey appSecret : Option String)
  | validateKeys (appKey appSecret : Option String)
  /-- The time to live of a key is over. -/
  | expire (redisKey : String)
  | signUp (email : String) (request : KisKeys)
  | updateKisKeys (email : String) (request : KisKeys)

namespace UserService

open KisTokenManager

def step (tokenP : TokenEndpoint) (s : UserService) : KeyAction → Option UserService
  | .getAccessToken appKey appSecret => some { s with redis := (getAccessToken tokenP s.redis appKey appSecret).2 }
  | .validateKeys appKey appSecret => some { s with redis := (validateKeys tokenP s.redis appKey appSecret).2 }
  | .expire redisKey => some { s with redis := Function.update s.redis redisKey none }
  | .signUp email request => some (signUp tokenP s email request).2
  -- only a user who has logged in calls it
  | .updateKisKeys email request =>
    if (s.users email).isSome then some (updateKisKeys tokenP s email request).2 else none

def machine (tokenP : TokenEndpoint) : Machine UserService KeyAction where
  init := ⟨fun _ => none, fun _ => none⟩
  step := step tokenP

variable {tokenP : TokenEndpoint}

/-! ## The cache -/

/-- Every cached token was issued for its app key, with some secret. -/
def Issued (tokenP : TokenEndpoint) (redis : Redis) : Prop :=
  ∀ key token, redis key = some token → ∃ appKey appSecret, key = redisKey appKey ∧ tokenP.Accepts appKey appSecret

theorem getAccessToken_isSome {redis : Redis} {appKey appSecret : Option String} :
    (getAccessToken tokenP redis appKey appSecret).1.isSome = true ↔
      (redis (redisKey appKey)).isSome = true ∨ tokenP.Accepts appKey appSecret := by
  unfold getAccessToken TokenEndpoint.Accepts
  cases redis (redisKey appKey) with
  | some cached => simp
  | none => cases tokenP appKey appSecret <;> simp

theorem validateKeys_eq_true {redis : Redis} {appKey appSecret : Option String} :
    (validateKeys tokenP redis appKey appSecret).1 = true ↔
      (missing appKey = false ∧ missing appSecret = false) ∧
        ((redis (redisKey appKey)).isSome = true ∨ tokenP.Accepts appKey appSecret) := by
  rw [← getAccessToken_isSome]
  unfold validateKeys
  cases missing appKey <;> cases missing appSecret <;> simp

theorem Issued.getAccessToken {redis : Redis} (h : Issued tokenP redis) (appKey appSecret : Option String) :
    Issued tokenP (getAccessToken tokenP redis appKey appSecret).2 := by
  unfold KisTokenManager.getAccessToken
  cases redis (redisKey appKey) with
  | some cached => exact h
  | none =>
    cases issued : tokenP appKey appSecret with
    | none => exact h
    | some token =>
      intro key other entry
      by_cases same : key = redisKey appKey
      · exact ⟨appKey, appSecret, same, by rw [TokenEndpoint.Accepts, issued, Option.isSome_some]⟩
      · exact h key other ((Function.update_of_ne same _ _).symm.trans entry)

theorem Issued.validateKeys {redis : Redis} (h : Issued tokenP redis) (appKey appSecret : Option String) :
    Issued tokenP (validateKeys tokenP redis appKey appSecret).2 := by
  unfold KisTokenManager.validateKeys
  split
  case isTrue => exact h
  case isFalse => exact h.getAccessToken appKey appSecret

theorem Issued.expire {redis : Redis} (h : Issued tokenP redis) (expired : String) :
    Issued tokenP (Function.update redis expired none) := by
  intro key token entry
  by_cases same : key = expired
  · rw [same, Function.update_self] at entry
    cases entry
  · exact h key token ((Function.update_of_ne same _ _).symm.trans entry)

/-- A pair that does not pass leaves Redis as it was. -/
theorem validateKeys_of_false {redis : Redis} {appKey appSecret : Option String}
    (invalid : (validateKeys tokenP redis appKey appSecret).1 = false) :
    (validateKeys tokenP redis appKey appSecret).2 = redis := by
  unfold validateKeys at invalid ⊢
  split
  case isTrue => rfl
  case isFalse there =>
    rw [if_neg there] at invalid
    unfold KisTokenManager.getAccessToken at invalid ⊢
    cases cached : redis (redisKey appKey) with
    | some token => simp [cached] at invalid
    | none =>
      cases issued : tokenP appKey appSecret with
      | some token => simp [cached, issued] at invalid
      | none => rfl

/-! ## The requests -/

/-- A rejected request changes nothing. -/
theorem updateKisKeys_of_error {s : UserService} {email text : String} {request : KisKeys}
    (rejected : (updateKisKeys tokenP s email request).1 = .error text) :
    (updateKisKeys tokenP s email request).2 = s := by
  unfold updateKisKeys at rejected ⊢
  cases valid : (validateKeys tokenP s.redis request.kisApiKey request.kisSecretKey).1 with
  | true => simp [valid] at rejected
  | false => simp [valid, validateKeys_of_false valid]

/-- For a new email, a sign-up with keys is an update of the keys. -/
theorem signUp_of_new {s : UserService} {email : String} (new : s.users email = none) (request : KisKeys) :
    signUp tokenP s email request =
      if hasKisKeys request then updateKisKeys tokenP s email request else (.ok (), s.save email ⟨none, none⟩) := by
  unfold signUp
  rw [new, Option.isSome_none, if_neg Bool.false_ne_true]
  rfl

theorem signUp_of_error {s : UserService} {email text : String} {request : KisKeys}
    (rejected : (signUp tokenP s email request).1 = .error text) : (signUp tokenP s email request).2 = s := by
  cases entry : s.users email with
  | some keys => simp [signUp, entry]
  | none =>
    rw [signUp_of_new entry] at rejected ⊢
    split
    case isTrue keys =>
      rw [if_pos keys] at rejected
      exact updateKisKeys_of_error rejected
    case isFalse keys =>
      rw [if_neg keys] at rejected
      cases rejected

theorem Issued.updateKisKeys {s : UserService} (h : Issued tokenP s.redis) (email : String) (request : KisKeys) :
    Issued tokenP (updateKisKeys tokenP s email request).2.redis := by
  have after := h.validateKeys request.kisApiKey request.kisSecretKey
  unfold UserService.updateKisKeys
  cases valid : (KisTokenManager.validateKeys tokenP s.redis request.kisApiKey request.kisSecretKey).1 <;>
    simpa [valid, save] using after

theorem updateKisKeys_users (s : UserService) (email : String) (request : KisKeys) :
    (updateKisKeys tokenP s email request).2.users =
      if (validateKeys tokenP s.redis request.kisApiKey request.kisSecretKey).1 then
        Function.update s.users email (some request)
      else s.users := by
  unfold updateKisKeys
  cases valid : (validateKeys tokenP s.redis request.kisApiKey request.kisSecretKey).1 <;> simp [valid, save]

/-- Every stored pair is one that KIS accepts. -/
def Verified (tokenP : TokenEndpoint) (users : String → Option KisKeys) : Prop :=
  ∀ email keys, users email = some keys → keys = ⟨none, none⟩ ∨ tokenP.Accepts keys.kisApiKey keys.kisSecretKey

/-- A token is cached for the app key of the pair, which KIS rejects. -/
structure PassesByCache (tokenP : TokenEndpoint) (redis : Redis) (keys : KisKeys) : Prop where
  present : hasKisKeys keys = true
  cached : (redis (redisKey keys.kisApiKey)).isSome = true
  rejected : ¬ tokenP.Accepts keys.kisApiKey keys.kisSecretKey

theorem validated_accepts_iff (redis : Redis) (keys : KisKeys) :
    ((validateKeys tokenP redis keys.kisApiKey keys.kisSecretKey).1 = true →
      tokenP.Accepts keys.kisApiKey keys.kisSecretKey) ↔ ¬ PassesByCache tokenP redis keys := by
  rw [validateKeys_eq_true]
  constructor
  · intro sound passes
    have present := passes.present
    simp only [hasKisKeys, Bool.and_eq_true, Bool.not_eq_true'] at present
    exact passes.rejected (sound ⟨present, .inl passes.cached⟩)
  · rintro not_by_cache ⟨present, cached | accepted⟩
    · by_contra rejected
      exact not_by_cache ⟨by simp [hasKisKeys, present], cached, rejected⟩
    · exact accepted

theorem Verified.update_iff {users : String → Option KisKeys} (h : Verified tokenP users) (email : String)
    (keys : KisKeys) :
    Verified tokenP (Function.update users email (some keys)) ↔
      keys = ⟨none, none⟩ ∨ tokenP.Accepts keys.kisApiKey keys.kisSecretKey := by
  constructor
  · intro verified
    exact verified email keys (Function.update_self ..)
  · intro good other keys' entry
    by_cases same : other = email
    · subst same
      rw [Function.update_self] at entry
      cases entry
      exact good
    · exact h other keys' ((Function.update_of_ne same _ _).symm.trans entry)

theorem hasKisKeys_of_valid {redis : Redis} {keys : KisKeys}
    (valid : (validateKeys tokenP redis keys.kisApiKey keys.kisSecretKey).1 = true) : hasKisKeys keys = true := by
  obtain ⟨present, -⟩ := validateKeys_eq_true.1 valid
  simp [hasKisKeys, present]

theorem Verified.updateKisKeys_iff {s : UserService} (h : Verified tokenP s.users) (email : String)
    (request : KisKeys) :
    Verified tokenP (updateKisKeys tokenP s email request).2.users ↔ ¬ PassesByCache tokenP s.redis request := by
  rw [updateKisKeys_users, ← validated_accepts_iff]
  split
  case isTrue valid =>
    have given : request ≠ ⟨none, none⟩ := by
      rintro rfl
      cases hasKisKeys_of_valid valid
    simp only [h.update_iff, given, false_or, valid, forall_const]
  case isFalse invalid => exact iff_of_true h fun valid => absurd valid invalid

theorem Verified.signUp_iff {s : UserService} (h : Verified tokenP s.users) (email : String) (request : KisKeys) :
    Verified tokenP (signUp tokenP s email request).2.users ↔
      (s.users email = none → ¬ PassesByCache tokenP s.redis request) := by
  cases entry : s.users email with
  | some keys => simp [signUp, entry, h]
  | none =>
    rw [signUp_of_new entry]
    split
    case isTrue => simp only [h.updateKisKeys_iff, forall_const]
    case isFalse absent =>
      have not_by_cache : ¬ PassesByCache tokenP s.redis request := fun passes => absent passes.present
      simp only [save, h.update_iff, not_by_cache, true_or, not_false_eq_true, implies_true]

/-- What a call stores does not pass by the cache alone. -/
def StoresVerified (tokenP : TokenEndpoint) (s : UserService) : KeyAction → Prop
  | .signUp email request => s.users email = none → ¬ PassesByCache tokenP s.redis request
  | .updateKisKeys _ request => ¬ PassesByCache tokenP s.redis request
  | _ => True

theorem Verified.step_iff {s s' : UserService} {a : KeyAction} (h : Verified tokenP s.users)
    (step : (machine tokenP).step s a = some s') : Verified tokenP s'.users ↔ StoresVerified tokenP s a := by
  cases a with
  | getAccessToken appKey appSecret | validateKeys appKey appSecret | expire redisKey =>
    cases step
    exact iff_of_true h trivial
  | signUp email request =>
    cases step
    exact h.signUp_iff email request
  | updateKisKeys email request =>
    obtain ⟨-, moved⟩ := Option.ite_none_right_eq_some.1 step
    cases moved
    exact h.updateKisKeys_iff email request

/-! ## The runs -/

theorem Issued.signUp {s : UserService} (h : Issued tokenP s.redis) (email : String) (request : KisKeys) :
    Issued tokenP (signUp tokenP s email request).2.redis := by
  cases entry : s.users email with
  | some keys => simpa [UserService.signUp, entry] using h
  | none =>
    rw [signUp_of_new entry]
    split
    case isTrue => exact h.updateKisKeys email request
    case isFalse => exact h

theorem issued_of_reachable {s : UserService} (reach : (machine tokenP).Reachable s) : Issued tokenP s.redis := by
  refine reach.induct (I := fun s => Issued tokenP s.redis) (fun _ _ none_there => by cases none_there) ?_
  intro s a s' h step
  cases a with
  | getAccessToken appKey appSecret =>
    cases step
    exact h.getAccessToken appKey appSecret
  | validateKeys appKey appSecret =>
    cases step
    exact h.validateKeys appKey appSecret
  | expire redisKey =>
    cases step
    exact h.expire redisKey
  | signUp email request =>
    cases step
    exact h.signUp email request
  | updateKisKeys email request =>
    obtain ⟨-, moved⟩ := Option.ite_none_right_eq_some.1 step
    cases moved
    exact h.updateKisKeys email request

/-- **What a validated pair is worth**: KIS accepts its app key with some secret. -/
theorem accepted_of_validated {s : UserService} (reach : (machine tokenP).Reachable s)
    {appKey appSecret : Option String} (valid : (validateKeys tokenP s.redis appKey appSecret).1 = true) :
    ∃ appKey' appSecret', redisKey appKey = redisKey appKey' ∧ tokenP.Accepts appKey' appSecret' := by
  obtain ⟨-, cached | accepted⟩ := validateKeys_eq_true.1 valid
  · obtain ⟨token, entry⟩ := Option.isSome_iff_exists.1 cached
    exact issued_of_reachable reach _ _ entry
  · exact ⟨appKey, appSecret, rfl, accepted⟩

/-- **Validation is sound but for the cache**: after every run a pair that passes is accepted by
KIS unless it passes by the cache, and the pairs stored during the run are all accepted if
and only if no call stored a pair that passed by the cache. -/
theorem validation_sound_iff {acts : List KeyAction} {s : UserService} (run : (machine tokenP).run acts = some s) :
    (∀ appKey appSecret, ((validateKeys tokenP s.redis appKey appSecret).1 = true → tokenP.Accepts appKey appSecret) ↔
        ¬ PassesByCache tokenP s.redis ⟨appKey, appSecret⟩) ∧
      ((machine tokenP).Always (fun s => Verified tokenP s.users) acts ↔
        (machine tokenP).Along (StoresVerified tokenP) (machine tokenP).init acts) := by
  constructor
  · intro appKey appSecret
    exact validated_accepts_iff s.redis ⟨appKey, appSecret⟩
  · refine Machine.always_iff_along ?_ ?_ acts s run
    · intro email keys none_there
      cases none_there
    · intro s a s' _ verified step
      exact verified.step_iff step

/-- KIS knows one pair. -/
def onePair : TokenEndpoint := fun appKey appSecret =>
  if appKey = some "PSa" ∧ appSecret = some "secret-a" then some "token" else none

theorem onePair_accepts : onePair.Accepts (some "PSa") (some "secret-a") := by
  unfold TokenEndpoint.Accepts
  decide +kernel

theorem onePair_rejects : ¬ onePair.Accepts (some "PSa") (some "wrong") := by
  unfold TokenEndpoint.Accepts
  decide +kernel

/-- A secret is tried while no token is cached, the right one is entered again while one is. -/
def twoUsers : List KeyAction :=
  [.signUp "a@example.com" ⟨some "PSa", some "secret-a"⟩, .expire "kis:token:PSa",
    .signUp "b@example.com" ⟨some "PSa", some "wrong"⟩, .signUp "b@example.com" ⟨some "PSa", some "secret-a"⟩,
    .updateKisKeys "a@example.com" ⟨some "PSa", some "secret-a"⟩]

/-- What is stored is accepted, and then every secret would pass. -/
theorem validation_sound_iff_signUp : (machine onePair).Always (fun s => Verified onePair s.users) twoUsers ∧
    ∃ s, (machine onePair).run twoUsers = some s ∧
      ¬ ((validateKeys onePair s.redis (some "PSa") (some "wrong")).1 = true →
        onePair.Accepts (some "PSa") (some "wrong")) := by
  obtain ⟨s, run, cached⟩ := (machine onePair).exists_of_any twoUsers
    (fun s => (s.redis "kis:token:PSa").isSome) (by decide +kernel)
  have right {redis : Redis} : ¬ PassesByCache onePair redis ⟨some "PSa", some "secret-a"⟩ :=
    fun passes => passes.rejected onePair_accepts
  refine ⟨(validation_sound_iff run).2.2 ⟨fun _ => right, ?_⟩, s, run, ?_⟩
  · rintro _ ⟨⟩
    refine ⟨trivial, ?_⟩
    rintro _ ⟨⟩
    refine ⟨fun _ passes => absurd passes.cached (by decide +kernel), ?_⟩
    rintro _ ⟨⟩
    exact ⟨fun _ => right, fun _ _ => ⟨right, fun _ _ => trivial⟩⟩
  · rw [(validation_sound_iff run).1, not_not]
    exact ⟨by decide +kernel, cached, onePair_rejects⟩

/-- Another user adopts the app key with a secret of her own, while the token is cached. -/
theorem app_key_adopted :
    (¬ ∀ (tokenP : TokenEndpoint) (s : UserService), (machine tokenP).Reachable s →
      ∀ appKey appSecret, (validateKeys tokenP s.redis appKey appSecret).1 = true →
        tokenP.Accepts appKey appSecret) ∧
    ¬ ∀ (tokenP : TokenEndpoint) (s : UserService), (machine tokenP).Reachable s → Verified tokenP s.users := by
  obtain ⟨s, run, adopted⟩ := (machine onePair).exists_of_any
    [.signUp "a@example.com" ⟨some "PSa", some "secret-a"⟩, .signUp "b@example.com" ⟨none, none⟩,
      .updateKisKeys "b@example.com" ⟨some "PSa", some "wrong"⟩]
    (fun s => (validateKeys onePair s.redis (some "PSa") (some "wrong")).1 &&
      s.users "b@example.com" = some ⟨some "PSa", some "wrong"⟩) (by decide +kernel)
  obtain ⟨valid, stored⟩ := Bool.and_eq_true_iff.1 adopted
  constructor
  · intro claim
    exact onePair_rejects (claim onePair s ⟨_, run⟩ _ _ valid)
  · intro claim
    rcases claim onePair s ⟨_, run⟩ "b@example.com" _ (of_decide_eq_true stored) with absent | accepted
    · cases absent
    · exact onePair_rejects accepted

end UserService

end StockAnomaly.ApiServer
