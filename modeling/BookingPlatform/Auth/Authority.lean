import BookingPlatform.Auth.Continuity
import BookingPlatform.Auth.Google
import BookingPlatform.Library.Observation
import BookingPlatform.RefreshToken.TheftResponse

/-!
# Authority of Tokens

Any number of authentication requests, interleaved statement by statement, while accounts and
memberships change in any way. An access token says for which user it is and with which role in
which tenant. Nobody locks the rows from which this is decided, so what a token says was true when
the request that issued it read them.

## Main definitions

- `authServer`: all authentication requests over one database.
- `Known`: what a request can learn.
- `Vouched`: what its tokens say follows from what it has learnt.

## Main results

- `tokens_vouched`: tokens say what was true while they were being issued.
- `families_scoped`: all refresh tokens of a session are for one user and one tenant.
- `guarded_routes`: who gets through to a handler that asks for a role.
-/

namespace BookingPlatform

open Library AuthM

/-! ## Requests -/

inductive AuthRequest where
  | register (dto : RegisterDto)
  | login (dto : LoginDto)
  | google (identity : GoogleIdentity)
  | switchTenant (user : User) (tenantId : Uuid)
  | onboarding (user : User)
  | refresh (refreshToken : String)
  | logout (refreshToken : String)
  deriving DecidableEq, Repr

/-- A sign-in with Google: the verify callback of the strategy, and the handler of the callback
route. -/
def googleSignIn (rt : AuthRuntime) (identity : GoogleIdentity) : AuthM AuthResult := do
  let user ← AuthService.resolveGoogleUser identity
  AuthService.issueSessionFor rt user

/-- The tokens of a new session. -/
def SessionResponse.ofResult (result : AuthResult) : SessionResponse :=
  .tokens result.toSessionTokens

/-- The service calls of a request. -/
def handleAuth (rt : AuthRuntime) : AuthRequest → AuthM SessionResponse
  | .register dto => .ofResult <$> AuthService.register rt dto
  | .login dto => .ofResult <$> AuthService.login rt dto
  | .google identity => .ofResult <$> googleSignIn rt identity
  | .switchTenant user tenantId => .ofResult <$> AuthService.switchTenant rt user tenantId
  | .onboarding user => .ofResult <$> TenantController.create rt user
  | .refresh refreshToken =>
    .tokens <$> ofToken (AuthService.refresh rt.toTokenRuntime refreshToken)
  | .logout refreshToken => do
    ofToken (AuthService.logout rt.toTokenRuntime refreshToken)
    return .loggedOut

/-- Any number of authentication requests. Only they write refresh tokens; everything else may
change at any time, and a request that dies leaves what it has done. -/
def authServer {T : Type} (rt : AuthRuntime) :
    Server AuthSql T AuthDb AuthRequest Thrown SessionResponse where
  program := handleAuth rt
  possible _ g := g.possible
  effect _ g := g.effect
  crash _ g := g
  env g g' := g'.tokens = g.tokens

abbrev AuthWorld (T : Type) : Type := World AuthSql T AuthDb AuthRequest Thrown SessionResponse

/-! ## What a request learns -/

/-- A row that a request has read or inserted. -/
inductive Known where
  | account (u : User)
  | member (m : Membership)
  | token (r : RefreshToken)

/-- The row is there. -/
def Known.HoldsIn : Known → AuthDb → Prop
  | account u, g => u ∈ g.users
  | member m, g => m ∈ g.memberships
  | token r, g => r ∈ g.tokens

/-- The rows that an answer shows. -/
def learnt : (s : AuthStatement) → Except SqlState s.Result → List Known
  | .findByEmail _, .ok (some u) => [.account u]
  | .findByProviderAccount .., .ok (some u) => [.account u]
  | .createUser _, .ok u => [.account u]
  | .findByUser _, .ok ms => ms.map .member
  | .onboard userId, .ok tenantId => [.member ⟨userId, tenantId, .owner⟩]
  | .session (.findByUserAndTenant userId tenantId), .ok (some role) =>
    [.member ⟨userId, tenantId, role⟩]
  | .session (.findByHash _), .ok (some r) => [.token r]
  | .session (.create _), .ok r => [.token r]
  | _, _ => []

/-- The request of a session, and what it has learnt so far. -/
structure Inquiry where
  request : Option AuthRequest
  known : List Known

namespace Inquiry

def idle : Inquiry := ⟨none, []⟩

def start (q : AuthRequest) : Inquiry := ⟨some q, []⟩

def learn (ph : Inquiry) (s : AuthStatement) (x : Except SqlState s.Result) : Inquiry :=
  { ph with known := ph.known ++ learnt s x }

/-- Of the refresh tokens that continue a family it has been learnt for whom they are. -/
def Allows (ph : Inquiry) : AuthStatement → Prop
  | .session (.create data) => ∀ familyId, data.familyId = some familyId →
    ∃ r, .token r ∈ ph.known ∧ r.familyId = familyId ∧ r.userId = data.userId ∧
      r.tenantId = data.tenantId
  | _ => True

/-- The phase is one of the same request, and nothing has been forgotten. -/
structure Extends (ph ph' : Inquiry) : Prop where
  request : ph'.request = ph.request
  known : ∀ k ∈ ph.known, k ∈ ph'.known

variable {ph ph' ph'' : Inquiry}

theorem Extends.refl (ph : Inquiry) : ph.Extends ph := ⟨rfl, fun _ hk => hk⟩

theorem Extends.trans (h : ph.Extends ph') (h' : ph'.Extends ph'') : ph.Extends ph'' :=
  ⟨h'.request.trans h.request, fun k hk => h'.known k (h.known k hk)⟩

theorem extends_learn (ph : Inquiry) (s : AuthStatement) (x : Except SqlState s.Result) :
    ph.Extends (ph.learn s x) :=
  ⟨rfl, fun _ hk => List.mem_append_left _ hk⟩

theorem mem_learn {s : AuthStatement} {x : Except SqlState s.Result} {k : Known}
    (hk : k ∈ learnt s x) :
    k ∈ (ph.learn s x).known :=
  List.mem_append_right _ hk

end Inquiry

/-- What a request may do with what it has learnt; answers are those of a database. -/
def inquiry : Protocol AuthSql Inquiry where
  allows ph s := ph.Allows s
  answers _ s x := ∃ g : AuthDb, g.possible s x
  next ph s x := ph.learn s x

/-- A role is that of a membership. -/
theorem mem_memberships_of_role {g : AuthDb} {userId tenantId : Uuid} {role : MembershipRole}
    (h : g.role userId tenantId = some role) : ⟨userId, tenantId, role⟩ ∈ g.memberships := by
  obtain ⟨m, hm, rfl⟩ := Option.map_eq_some_iff.1 h
  have hkey := List.find?_some hm
  simp only [decide_eq_true_eq] at hkey
  obtain ⟨rfl, rfl⟩ := hkey
  exact List.mem_of_find?_eq_some hm

/-- What an answer shows is there before the statement or after it. -/
theorem holdsIn_of_learnt {g : AuthDb} {s : AuthStatement} {x : Except SqlState s.Result}
    (hx : g.possible s x) {k : Known} (hk : k ∈ learnt s x) :
    k.HoldsIn g ∨ k.HoldsIn (g.effect s x) := by
  cases x with
  | error code => simp [learnt] at hk
  | ok v =>
    cases s with
    | findByEmail email =>
      cases v with
      | none => exact absurd hk List.not_mem_nil
      | some u =>
        -- a row that is found is among the rows
        obtain rfl := List.mem_singleton.1 hk
        have hfound : some u = g.users.find? (·.email = email) := hx
        exact .inl (List.mem_of_find?_eq_some hfound.symm)
    | findByProviderAccount provider account =>
      cases v with
      | none => exact absurd hk List.not_mem_nil
      | some u =>
        obtain rfl := List.mem_singleton.1 hk
        have hfound :
            some u = g.users.find? fun u =>
              u.provider = some provider ∧ u.providerAccountId = some account := hx
        exact .inl (List.mem_of_find?_eq_some hfound.symm)
    -- what a statement inserts is there after it
    | createUser data =>
      obtain rfl := List.mem_singleton.1 hk
      exact .inr (List.mem_append_right _ (List.mem_singleton_self v))
    | findByUser userId =>
      obtain ⟨m, hm, rfl⟩ := List.mem_map.1 hk
      have hrows : v = g.memberships.filter (·.userId = userId) := hx
      rw [hrows] at hm
      exact .inl (List.mem_filter.1 hm).1
    | onboard userId =>
      obtain rfl := List.mem_singleton.1 hk
      exact .inr (List.mem_append_right _ (List.mem_singleton_self _))
    | session s =>
      cases s with
      | findByHash tokenHash =>
        cases v with
        | none => exact absurd hk List.not_mem_nil
        | some r =>
          obtain rfl := List.mem_singleton.1 hk
          have hfound : some r = g.tokens.find? (·.tokenHash = tokenHash) := hx
          exact .inl (List.mem_of_find?_eq_some hfound.symm)
      | findByUserAndTenant userId tenantId =>
        cases v with
        | none => exact absurd hk List.not_mem_nil
        | some role =>
          obtain rfl := List.mem_singleton.1 hk
          have hrole : some role = g.role userId tenantId := hx
          exact .inl (mem_memberships_of_role hrole.symm)
      | create data =>
        obtain rfl := List.mem_singleton.1 hk
        exact .inr (List.mem_append_right _ (List.mem_singleton_self v))
      | _ => exact absurd hk List.not_mem_nil
    | _ => exact absurd hk List.not_mem_nil

/-! ## What tokens say -/

section Vouched

variable (rt : AuthRuntime) (knows : Known → Prop)

/-- The user of a token is the one that the request has shown itself to be from. -/
def Identified : AuthRequest → JwtPayload → Prop
  | .register dto, p => ∃ u, knows (.account u) ∧ u.id = p.sub ∧ u.email = dto.email
  | .login dto, p => ∃ u passwordHash, knows (.account u) ∧ u.id = p.sub ∧ u.email = dto.email ∧
      u.passwordHash = some passwordHash ∧ rt.comparePassword dto.password passwordHash = true
  | .google identity, p => identity.emailVerified = true ∧
      ∃ u, knows (.account u) ∧ u.id = p.sub ∧ (u.Linked identity.sub ∨ u.email = identity.email)
  | .switchTenant user tenantId, p => p.sub = user.id ∧ p.tenantId = some tenantId
  | .onboarding user, p => p.sub = user.id ∧ p.role = some .owner
  | .refresh refreshToken, p => ∃ r, knows (.token r) ∧ r.tokenHash = rt.sha256 refreshToken ∧
      r.revokedAt = none ∧ r.userId = p.sub ∧ r.tenantId = p.tenantId
  | .logout _, _ => False

/-- The tenant and the role of a token: none, those of a membership, or for a super-admin a tenant
alone. -/
inductive Entitled (q : AuthRequest) : JwtPayload → Prop where
  | identity (sub : Uuid) : Entitled q ⟨sub, none, none⟩
  | member {sub tenantId : Uuid} {role : MembershipRole}
    (h : knows (.member ⟨sub, tenantId, role⟩)) :
    Entitled q ⟨sub, some tenantId, some role⟩
  | superAdmin {user : User} {tenantId : Uuid} (hq : q = .switchTenant user tenantId)
    (h : user.isSuperAdmin = true) : Entitled q ⟨user.id, some tenantId, none⟩

/-- A refresh token that is known is for the user, the tenant and the role of an access token. -/
def Backed (refreshToken : String) (p : JwtPayload) : Prop :=
  ∃ r, knows (.token r) ∧ r.tokenHash = rt.sha256 refreshToken ∧ r.userId = p.sub ∧
    r.tenantId = p.tenantId ∧
    r.role = p.role

/-- What the tokens say follows from what is known. -/
def Vouched (q : AuthRequest) (tokens : SessionTokens) : Prop :=
  ∃ p, tokens.token = rt.sign p ∧ Identified rt knows q p ∧ Entitled knows q p ∧
    Backed rt knows tokens.refreshToken p

variable {rt knows} {knows' : Known → Prop} {q : AuthRequest} {p : JwtPayload}

theorem Identified.mono (hle : ∀ k, knows k → knows' k) (h : Identified rt knows q p) :
    Identified rt knows' q p := by
  cases q with
  | register dto =>
    obtain ⟨u, hu, hrest⟩ := h
    exact ⟨u, hle _ hu, hrest⟩
  | login dto =>
    obtain ⟨u, passwordHash, hu, hrest⟩ := h
    exact ⟨u, passwordHash, hle _ hu, hrest⟩
  | google identity =>
    obtain ⟨hverified, u, hu, hrest⟩ := h
    exact ⟨hverified, u, hle _ hu, hrest⟩
  | switchTenant user tenantId => exact h
  | onboarding user => exact h
  | refresh refreshToken =>
    obtain ⟨r, hr, hrest⟩ := h
    exact ⟨r, hle _ hr, hrest⟩
  | logout refreshToken => exact h

theorem Entitled.mono (hle : ∀ k, knows k → knows' k) (h : Entitled knows q p) :
    Entitled knows' q p := by
  cases h with
  | identity sub => exact .identity sub
  | member h => exact .member (hle _ h)
  | superAdmin hq h => exact .superAdmin hq h

theorem Backed.mono (hle : ∀ k, knows k → knows' k) {refreshToken : String}
    (h : Backed rt knows refreshToken p) :
    Backed rt knows' refreshToken p := by
  obtain ⟨r, hr, hrest⟩ := h
  exact ⟨r, hle _ hr, hrest⟩

theorem Vouched.mono (hle : ∀ k, knows k → knows' k) {tokens : SessionTokens}
    (h : Vouched rt knows q tokens) :
    Vouched rt knows' q tokens := by
  obtain ⟨p, htoken, hidentified, hentitled, hbacked⟩ := h
  exact ⟨p, htoken, hidentified.mono hle, hentitled.mono hle, hbacked.mono hle⟩

end Vouched

/-! ## Every request vouches for its tokens -/

section Follows

variable {rt : AuthRuntime} {ph : Inquiry} {α β : Type}

/-- The condition at the end of code: nothing has been forgotten, and a result is as it should
be. -/
def Concludes (ph : Inquiry) (result : Inquiry → α → Prop) (ph' : Inquiry) (r : Except Thrown α) :
    Prop :=
  ph.Extends ph' ∧ ∀ a, r = .ok a → result ph' a

theorem concludes_ret {result : Inquiry → α → Prop} {a : α} (h : result ph a) :
    (Prog.ret a : AuthM α).Follows inquiry (Concludes ph result) ph := by
  refine ⟨.refl ph, fun a' ha' => ?_⟩
  cases ha'
  exact h

theorem concludes_raise {result : Inquiry → α → Prop} (e : Thrown) :
    (Prog.raise e : AuthM α).Follows inquiry (Concludes ph result) ph :=
  ⟨.refl ph, fun a ha => by cases ha⟩

/-- Code that goes on from a phase that has learnt more. -/
theorem concludes_extends {ph' : Inquiry} {result : Inquiry → β → Prop} (h : ph.Extends ph')
    {p : AuthM β} (hp : p.Follows inquiry (Concludes ph' result) ph') :
    p.Follows inquiry (Concludes ph result) ph' :=
  hp.mono fun _ _ ⟨hextends, hresult⟩ => ⟨h.trans hextends, hresult⟩

/-- One statement, and what comes after it. -/
theorem inquiry_exec {s : AuthStatement} {f : s.Result → AuthM β} {result : Inquiry → β → Prop}
    (hallow : ph.Allows s)
    (hf : ∀ v, (∃ g : AuthDb, g.returns s v) →
      (f v).Follows inquiry (Concludes (ph.learn s (.ok v)) result) (ph.learn s (.ok v))) :
    (AuthM.exec s >>= f).Follows inquiry (Concludes ph result) ph := by
  apply follows_execSql_bind.2
  refine ⟨hallow, fun x hx => ?_⟩
  have hlearn := ph.extends_learn s x
  cases x with
  | error code => exact ⟨hlearn, fun a ha => by cases ha⟩
  | ok v =>
    obtain ⟨g, hg⟩ := hx
    apply concludes_extends hlearn
    apply hf v
    refine ⟨g, ?_⟩
    cases s <;> exact hg

/-- One statement at the end. -/
theorem inquiry_last {s : AuthStatement} {result : Inquiry → s.Result → Prop} (hallow : ph.Allows s)
    (hlast : ∀ v, (∃ g : AuthDb, g.returns s v) → result (ph.learn s (.ok v)) v) :
    (AuthM.exec s).Follows inquiry (Concludes ph result) ph := by
  rw [← Prog.bind_ret (AuthM.exec s)]
  exact inquiry_exec hallow fun v hv => concludes_ret (hlast v hv)

/-- One statement of the refresh tokens, and what comes after it. -/
theorem inquiry_token {s : TokenStatement} {f : s.Result → TokenM β} {result : Inquiry → β → Prop}
    (hallow : ph.Allows (.session s))
    (hf : ∀ v, (∃ g : AuthDb, g.returns (.session s) v) → (ofToken (f v)).Follows inquiry
      (Concludes (ph.learn (.session s) (.ok v)) result) (ph.learn (.session s) (.ok v))) :
    (ofToken (TokenM.exec s >>= f)).Follows inquiry (Concludes ph result) ph := by
  rw [ofToken_execSql_bind]
  exact inquiry_exec hallow hf

/-- Sequencing. -/
theorem concludes_bind {p : AuthM α} {f : α → AuthM β} {mid : Inquiry → α → Prop}
    {result : Inquiry → β → Prop} (hp : p.Follows inquiry (Concludes ph mid) ph)
    (hf : ∀ ph' a, ph.Extends ph' → mid ph' a → (f a).Follows inquiry (Concludes ph' result) ph') :
    (p >>= f).Follows inquiry (Concludes ph result) ph := by
  apply Prog.follows_bind.2
  apply hp.mono
  intro ph' r hr
  cases r with
  | error e => exact ⟨hr.1, fun b hb => by cases hb⟩
  | ok a => exact concludes_extends hr.1 (hf ph' a hr.1 (hr.2 a rfl))

theorem concludes_mono {p : AuthM α} {result result' : Inquiry → α → Prop}
    (h : ∀ ph' a, ph.Extends ph' → result ph' a → result' ph' a)
    (hp : p.Follows inquiry (Concludes ph result) ph) :
    p.Follows inquiry (Concludes ph result') ph :=
  hp.mono fun ph' _ ⟨hextends, hresult⟩ => ⟨hextends, fun a ha => h ph' a hextends (hresult a ha)⟩

/-- What a request knows. -/
abbrev Inquiry.Knows (ph : Inquiry) (k : Known) : Prop := k ∈ ph.known

/-- The family that a new refresh token continues is one of which a token is known. -/
def Continued (ph : Inquiry) (userId : Uuid) (tenantId : Option Uuid) (family : Option Uuid) :
    Prop :=
  ∀ familyId, family = some familyId →
    ∃ r, ph.Knows (.token r) ∧ r.familyId = familyId ∧ r.userId = userId ∧ r.tenantId = tenantId

theorem Continued.extends {ph' : Inquiry} (hextends : ph.Extends ph') {userId : Uuid}
    {tenantId family : Option Uuid} (h : Continued ph userId tenantId family) :
    Continued ph' userId tenantId family := by
  intro familyId hfamily
  obtain ⟨r, hr, hrest⟩ := h familyId hfamily
  exact ⟨r, hextends.known _ hr, hrest⟩

theorem issue_inquiry {userId : Uuid} {scope : SessionScope} {family : Option Uuid}
    (h : Continued ph userId scope.tenantId family) :
    (ofToken (RefreshTokenService.issue rt.toTokenRuntime userId scope family)).Follows inquiry
      (Concludes ph fun ph' plaintext =>
        Backed rt ph'.Knows plaintext ⟨userId, scope.tenantId, scope.role⟩) ph := by
  apply inquiry_token (s := .randomBytes) trivial
  intro plaintext _
  apply inquiry_token (s := .now) trivial
  intro now _
  apply inquiry_token
  · exact h.extends ((ph.extends_learn _ _).trans (Inquiry.extends_learn _ _ _))
  · rintro v ⟨g, hrow, -, -⟩
    apply concludes_ret
    refine ⟨v, Inquiry.mem_learn (List.mem_singleton_self _), ?_⟩
    rw [hrow]
    exact ⟨rfl, rfl, rfl, rfl⟩

/-- Tokens that say what is wanted. -/
def Says (rt : AuthRuntime) (p : JwtPayload) (ph : Inquiry) (tokens : SessionTokens) : Prop :=
  tokens.token = rt.sign p ∧ Backed rt ph.Knows tokens.refreshToken p

theorem issueSession_inquiry (userId : Uuid) (scope : SessionScope) :
    (ofToken (AuthService.issueSession rt.toTokenRuntime userId scope)).Follows inquiry
      (Concludes ph (Says rt ⟨userId, scope.tenantId, scope.role⟩)) ph := by
  unfold AuthService.issueSession
  rw [ofToken_bind]
  apply concludes_bind (issue_inquiry fun familyId hfamily => by cases hfamily)
  intro ph' refreshToken _ hbacked
  apply concludes_ret
  exact ⟨rfl, hbacked⟩

theorem session_inquiry (user : User) (scope : SessionScope) :
    (AuthService.session rt user scope).Follows inquiry
      (Concludes ph fun ph' result =>
        Says rt ⟨user.id, scope.tenantId, scope.role⟩ ph' result.toSessionTokens) ph := by
  apply concludes_bind (issueSession_inquiry user.id scope)
  intro ph' tokens _ hsays
  apply concludes_ret
  exact hsays

/-- Tokens of this user to which it is entitled. -/
def SaysOf (rt : AuthRuntime) (q : AuthRequest) (userId : Uuid) (ph : Inquiry)
    (tokens : SessionTokens) : Prop :=
  ∃ p, p.sub = userId ∧ Entitled ph.Knows q p ∧ Says rt p ph tokens

theorem issueSessionFor_inquiry (q : AuthRequest) (user : User) :
    (AuthService.issueSessionFor rt user).Follows inquiry
      (Concludes ph fun ph' result => SaysOf rt q user.id ph' result.toSessionTokens) ph := by
  apply inquiry_exec (s := .findByUser user.id) trivial
  rintro ms ⟨g, hms⟩
  cases ms with
  | nil =>
    apply concludes_mono _ (session_inquiry user ⟨none, none⟩)
    intro ph' result _ hsays
    exact ⟨_, rfl, .identity user.id, hsays⟩
  | cons primary rest =>
    -- the membership that is taken is one of the user's
    have hprimary : primary ∈ g.memberships.filter (·.userId = user.id) := by
      rw [← show primary :: rest = _ from hms]
      exact List.mem_cons_self
    have huser : primary.userId = user.id := of_decide_eq_true (List.mem_filter.1 hprimary).2
    apply concludes_mono _ (session_inquiry user ⟨some primary.tenantId, some primary.role⟩)
    intro ph' result hextends hsays
    refine ⟨_, rfl, .member (hextends.known _ ?_), hsays⟩
    apply Inquiry.mem_learn
    rw [← huser]
    exact List.mem_map_of_mem List.mem_cons_self

theorem register_inquiry (dto : RegisterDto) :
    (AuthService.register rt dto).Follows inquiry
      (Concludes ph fun ph' result =>
        Vouched rt ph'.Knows (.register dto) result.toSessionTokens) ph := by
  apply inquiry_exec (s := .findByEmail dto.email) trivial
  intro existing _
  cases existing with
  -- the address is taken
  | some u => exact concludes_raise _
  -- the account is the one that has just been created
  | none =>
    apply inquiry_exec (s := .hash dto.password) trivial
    intro passwordHash _
    apply inquiry_exec
      (s := .createUser ⟨dto.email, dto.name, some passwordHash, none, none⟩) trivial
    rintro user ⟨g, hrow, -, -⟩
    apply concludes_mono _ (session_inquiry user ⟨none, none⟩)
    intro ph' result hextends hsays
    refine ⟨_, hsays.1, ⟨user, ?_, rfl, ?_⟩, .identity user.id, hsays.2⟩
    · exact hextends.known _ (Inquiry.mem_learn (List.mem_singleton_self _))
    · rw [hrow]

theorem login_inquiry (dto : LoginDto) :
    (AuthService.login rt dto).Follows inquiry
      (Concludes ph fun ph' result =>
        Vouched rt ph'.Knows (.login dto) result.toSessionTokens) ph := by
  apply inquiry_exec (s := .findByEmail dto.email) trivial
  rintro found ⟨g, hfound⟩
  cases found with
  | none => exact concludes_raise _
  | some user =>
    -- what is found by the address has the address
    have hemail : user.email = dto.email := by
      have hfound' : g.users.find? (·.email = dto.email) = some user := hfound.symm
      simpa using List.find?_some hfound'
    cases hhash : user.passwordHash with
    | none =>
      simp only [hhash]
      exact concludes_raise _
    | some passwordHash =>
      simp only [hhash]
      -- only the right password leads on to a session
      by_cases hpassword : rt.comparePassword dto.password passwordHash = true
      · rw [if_pos hpassword]
        apply concludes_mono _ (issueSessionFor_inquiry (.login dto) user)
        rintro ph' result hextends ⟨p, hsub, hentitled, hsays⟩
        refine ⟨p, hsays.1, ⟨user, passwordHash, ?_, hsub.symm, hemail, hhash, hpassword⟩,
          hentitled, hsays.2⟩
        exact hextends.known _ (Inquiry.mem_learn (List.mem_singleton_self _))
      · rw [if_neg hpassword]
        exact concludes_raise _

/-- The account of a Google identity. -/
def GoogleAccount (identity : GoogleIdentity) (ph : Inquiry) (user : User) : Prop :=
  identity.emailVerified = true ∧ ph.Knows (.account user) ∧
  (user.Linked identity.sub ∨ user.email = identity.email)

theorem resolveGoogleUser_inquiry (identity : GoogleIdentity) :
    (AuthService.resolveGoogleUser identity).Follows inquiry
      (Concludes ph (GoogleAccount identity)) ph := by
  unfold AuthService.resolveGoogleUser
  by_cases hverified : identity.emailVerified = true
  · rw [if_neg (by simp [hverified])]
    apply inquiry_exec (s := .findByProviderAccount "google" identity.sub) trivial
    rintro found ⟨g, hfound⟩
    cases found with
    -- linked before
    | some linked =>
      apply concludes_ret
      refine ⟨hverified, Inquiry.mem_learn (List.mem_singleton_self _), .inl ?_⟩
      -- found by the subject, so it has the subject
      have hfound' : g.users.find?
        (fun u => u.provider = some "google" ∧ u.providerAccountId = some identity.sub) =
          some linked := hfound.symm
      have hkey := List.find?_some hfound'
      simp only [decide_eq_true_eq] at hkey
      exact hkey
    | none =>
      apply inquiry_exec (s := .findByEmail identity.email) trivial
      rintro found ⟨g, hfound⟩
      cases found with
      -- known by its address, and linked now
      | some existing =>
        apply inquiry_exec (s := .linkProvider existing.id "google" identity.sub) trivial
        rintro - -
        apply concludes_ret
        refine ⟨hverified, ?_, .inr ?_⟩
        · exact (Inquiry.extends_learn _ _ _).known
            _ (Inquiry.mem_learn (List.mem_singleton_self _))
        · have hfound' : g.users.find? (·.email = identity.email) = some existing := hfound.symm
          simpa using List.find?_some hfound'
      -- a new account, with the identity as its provider
      | none =>
        apply inquiry_last
          (s := .createUser ⟨identity.email, identity.name, none, some "google", some identity.sub⟩)
            trivial
        rintro user ⟨g, hrow, -, -⟩
        refine ⟨hverified, Inquiry.mem_learn (List.mem_singleton_self _), .inl ?_⟩
        rw [hrow]
        exact ⟨rfl, rfl⟩
  · -- addresses that are not verified are refused
    rw [if_pos (by simp [hverified])]
    exact concludes_raise _

theorem googleSignIn_inquiry (identity : GoogleIdentity) :
    (googleSignIn rt identity).Follows inquiry
      (Concludes ph fun ph' result =>
        Vouched rt ph'.Knows (.google identity) result.toSessionTokens) ph := by
  apply concludes_bind (resolveGoogleUser_inquiry identity)
  rintro ph₁ user - ⟨hverified, hknown, haccount⟩
  apply concludes_mono _ (issueSessionFor_inquiry (.google identity) user)
  rintro ph' result hextends ⟨p, hsub, hentitled, hsays⟩
  exact ⟨p, hsays.1, ⟨hverified, user, hextends.known _ hknown, hsub.symm, haccount⟩,
    hentitled, hsays.2⟩

theorem switchTenant_inquiry (user : User) (tenantId : Uuid) :
    (AuthService.switchTenant rt user tenantId).Follows inquiry
      (Concludes ph fun ph' result =>
        Vouched rt ph'.Knows (.switchTenant user tenantId) result.toSessionTokens) ph := by
  have hlookup : ofToken (MembershipService.resolveRole user.id tenantId) =
      exec (.session (.findByUserAndTenant user.id tenantId)) := ofToken_execSql _
  unfold AuthService.switchTenant
  rw [hlookup]
  apply inquiry_exec (s := .session (.findByUserAndTenant user.id tenantId)) trivial
  intro role _
  by_cases hrefused : role = none ∧ user.isSuperAdmin = false
  · rw [if_pos hrefused]
    exact concludes_raise _
  · rw [if_neg hrefused]
    apply concludes_mono _ (session_inquiry user ⟨some tenantId, role⟩)
    intro ph' result hextends hsays
    refine ⟨_, hsays.1, ⟨rfl, rfl⟩, ?_, hsays.2⟩
    cases role with
    | some role =>
      exact .member (hextends.known _ (Inquiry.mem_learn (List.mem_singleton_self _)))
    | none =>
      -- a super-admin needs no membership
      have hadmin : user.isSuperAdmin = true := by simpa using hrefused
      exact .superAdmin rfl hadmin

theorem onboard_inquiry (userId : Uuid) :
    (TenantService.onboard userId).Follows inquiry
      (Concludes ph fun ph' tenantId => ph'.Knows (.member ⟨userId, tenantId, .owner⟩)) ph := by
  have hinsert : (exec (.onboard userId)).Follows inquiry
      (Concludes ph fun ph' tenantId => ph'.Knows (.member ⟨userId, tenantId, .owner⟩)) ph :=
    inquiry_last (s := .onboard userId) trivial fun _ _ =>
      Inquiry.mem_learn (List.mem_singleton_self _)
  apply Prog.follows_tryCatch.2
  apply hinsert.mono
  intro ph' r hr
  -- a failure is passed on, as the same error or as another
  cases r with
  | ok tenantId => exact hr
  | error e =>
    by_cases hunique : e = .query uniqueViolation
    · simp only [hunique, ↓reduceIte]
      exact concludes_extends hr.1 (concludes_raise _)
    · simp only [hunique, ↓reduceIte]
      exact concludes_extends hr.1 (concludes_raise _)

theorem onboarding_inquiry (user : User) :
    (TenantController.create rt user).Follows inquiry
      (Concludes ph fun ph' result =>
        Vouched rt ph'.Knows (.onboarding user) result.toSessionTokens) ph := by
  apply concludes_bind (onboard_inquiry user.id)
  intro ph₁ tenantId _ hmember
  apply concludes_bind (issueSession_inquiry user.id ⟨some tenantId, some .owner⟩)
  intro ph₂ tokens hextends hsays
  apply concludes_ret
  exact ⟨_, hsays.1, ⟨rfl, rfl⟩, .member (hextends.known _ hmember), hsays.2⟩

/-- The session of a refresh token that has been consumed. -/
def ClaimedFrom (rt : AuthRuntime) (refreshToken : String) (ph : Inquiry)
    (claimed : ClaimedSession) : Prop :=
  ∃ r, ph.Knows (.token r) ∧ r.tokenHash = rt.sha256 refreshToken ∧ r.revokedAt = none ∧
    claimed = ⟨⟨r.tenantId, r.role⟩, r.userId, r.familyId⟩

theorem revokeFamily_inquiry (familyId : Uuid) :
    (ofToken (RefreshTokenService.revokeFamily familyId)).Follows inquiry (Concludes ph fun _ _ =>
      True) ph := by
  apply inquiry_token (s := .now) trivial
  intro now _
  apply inquiry_token (s := .revokeFamily familyId now) trivial
  intro _ _
  exact concludes_ret trivial

theorem revokeThenThrow_inquiry {result : Inquiry → α → Prop} (familyId : Uuid) (e : AppException) :
    (ofToken (RefreshTokenService.revokeFamily familyId >>= fun _ =>
      (throwSql e : TokenM α))).Follows inquiry
      (Concludes ph result) ph := by
  rw [ofToken_bind]
  exact concludes_bind (revokeFamily_inquiry familyId) fun _ _ _ _ => concludes_raise _

theorem markUsed_inquiry (id : Uuid) (usedAt : Instant) :
    (ofToken (RefreshTokenRepository.markUsedIfUnused id usedAt)).Follows inquiry
      (Concludes ph fun _ _ => True) ph := by
  apply inquiry_token (s := .markUsedIfUnused id usedAt) trivial
  intro _ _
  exact concludes_ret trivial

theorem claim_inquiry (refreshToken : String) :
    (ofToken (RefreshTokenService.claim rt.toTokenRuntime refreshToken)).Follows inquiry
      (Concludes ph (ClaimedFrom rt refreshToken)) ph := by
  apply inquiry_token (s := .findByHash (rt.sha256 refreshToken)) trivial
  rintro found ⟨g, hfound⟩
  cases found with
  | none => exact concludes_raise _
  | some r =>
    have hhash : r.tokenHash = rt.sha256 refreshToken := by
      have hfound' : g.tokens.find? (·.tokenHash = rt.sha256 refreshToken) = some r := hfound.symm
      simpa using List.find?_some hfound'
    by_cases hrevoked : r.revokedAt.isSome = true
    · simp only [hrevoked, ↓reduceIte]
      exact concludes_raise _
    · simp only [hrevoked]
      apply inquiry_token (s := .now) trivial
      intro now _
      by_cases hexpired : r.expiresAt < now
      · simp only [hexpired, ↓reduceIte]
        exact concludes_raise _
      · simp only [hexpired, ↓reduceIte]
        apply inquiry_token (s := .now) trivial
        intro usedAt _
        rw [ofToken_bind]
        apply concludes_bind (markUsed_inquiry r.id usedAt)
        intro ph' won hextends _
        cases won with
        | false => exact revokeThenThrow_inquiry r.familyId _
        | true =>
          apply concludes_ret
          refine ⟨r, hextends.known _ ?_, hhash, by simpa using hrevoked, rfl⟩
          -- the token has been read before the clock
          apply (Inquiry.extends_learn _ _ _).known
          apply (Inquiry.extends_learn _ _ _).known
          exact Inquiry.mem_learn (List.mem_singleton_self _)

/-- The rest of a refresh for which the scope is known. -/
theorem rotate_inquiry {refreshToken : String} {claimed : ClaimedSession} {scope : SessionScope}
    (hclaimed : ClaimedFrom rt refreshToken ph claimed)
    (htenant : scope.tenantId = claimed.tenantId)
    (hentitled : Entitled ph.Knows (.refresh refreshToken)
      ⟨claimed.userId, scope.tenantId, scope.role⟩) :
    (ofToken (AuthService.rotate rt.toTokenRuntime claimed scope)).Follows inquiry
      (Concludes ph fun ph' tokens => Vouched rt ph'.Knows (.refresh refreshToken) tokens) ph := by
  obtain ⟨r, hr, hhash, hrevoked, rfl⟩ := hclaimed
  unfold AuthService.rotate
  rw [ofToken_bind]
  have hcontinued : Continued ph r.userId scope.tenantId (some r.familyId) := by
    intro familyId hfamily
    exact ⟨r, hr, Option.some.inj hfamily, rfl, htenant.symm⟩
  apply concludes_bind (issue_inquiry hcontinued)
  intro ph' next hextends hbacked
  apply concludes_ret
  refine ⟨_, rfl, ⟨r, hextends.known _ hr, hhash, hrevoked, rfl, htenant.symm⟩, ?_, hbacked⟩
  exact hentitled.mono hextends.known

theorem refresh_inquiry (refreshToken : String) :
    (ofToken (AuthService.refresh rt.toTokenRuntime refreshToken)).Follows inquiry
      (Concludes ph fun ph' tokens => Vouched rt ph'.Knows (.refresh refreshToken) tokens) ph := by
  unfold AuthService.refresh
  rw [ofToken_bind]
  apply concludes_bind (claim_inquiry refreshToken)
  intro ph₁ claimed _ hclaimed
  cases htenant : claimed.tenantId with
  -- without a tenant the token goes on as it was
  | none =>
    exact rotate_inquiry hclaimed htenant.symm (.identity _)
  | some tenantId =>
    apply inquiry_token (s := .findByUserAndTenant claimed.userId tenantId) trivial
    intro role _
    cases role with
    -- the membership has gone: the family is revoked
    | none => exact revokeThenThrow_inquiry claimed.familyId _
    -- the role is the one that has just been read, not the one in the old token
    | some role =>
      apply rotate_inquiry _ htenant.symm
      · exact .member (Inquiry.mem_learn (List.mem_singleton_self _))
      · obtain ⟨r, hr, hrest⟩ := hclaimed
        exact ⟨r, (Inquiry.extends_learn _ _ _).known _ hr, hrest⟩

theorem logout_inquiry (refreshToken : String) :
    (ofToken (AuthService.logout rt.toTokenRuntime refreshToken)).Follows inquiry
      (Concludes ph fun _ _ => True) ph := by
  apply inquiry_token (s := .findByHash (rt.sha256 refreshToken)) trivial
  intro found _
  cases found with
  | none => exact concludes_ret trivial
  | some r => exact revokeFamily_inquiry r.familyId

end Follows

/-- The condition at the end of a request: tokens that it returns are vouched for. -/
def vouches (rt : AuthRuntime) (ph : Inquiry) (r : Except Thrown SessionResponse) : Prop :=
  ∀ tokens, r = .ok (.tokens tokens) → ∃ q, ph.request = some q ∧ Vouched rt ph.Knows q tokens

section Requests

variable {rt : AuthRuntime} {q : AuthRequest}

theorem vouches_result {p : AuthM AuthResult}
    (h : p.Follows inquiry (Concludes (.start q) fun ph' result =>
      Vouched rt ph'.Knows q result.toSessionTokens) (.start q)) :
    (SessionResponse.ofResult <$> p).Follows inquiry (vouches rt) (.start q) := by
  apply Prog.follows_bind.2
  apply h.mono
  intro ph' r hr
  cases r with
  | error e => exact fun tokens htokens => by cases htokens
  | ok result =>
    intro tokens htokens
    cases htokens
    exact ⟨q, hr.1.request, hr.2 result rfl⟩

/-- Every request vouches for the tokens that it returns. -/
theorem follows_inquiry (rt : AuthRuntime) (q : AuthRequest) :
    (handleAuth rt q).Follows inquiry (vouches rt) (.start q) := by
  cases q with
  | register dto => exact vouches_result (register_inquiry dto)
  | login dto => exact vouches_result (login_inquiry dto)
  | google identity => exact vouches_result (googleSignIn_inquiry identity)
  | switchTenant user tenantId => exact vouches_result (switchTenant_inquiry user tenantId)
  | onboarding user => exact vouches_result (onboarding_inquiry user)
  -- the two calls whose tokens come with no user
  | refresh refreshToken =>
    apply Prog.follows_bind.2
    apply (refresh_inquiry refreshToken).mono
    intro ph' r hr
    cases r with
    | error e => exact fun tokens htokens => by cases htokens
    | ok tokens =>
      intro tokens' htokens
      cases htokens
      exact ⟨_, hr.1.request, hr.2 tokens rfl⟩
  | logout refreshToken =>
    apply Prog.follows_bind.2
    apply (logout_inquiry refreshToken).mono
    intro ph' r hr
    cases r with
    | error e => exact fun tokens htokens => by cases htokens
    | ok _ => exact fun tokens htokens => by cases htokens

end Requests

/-! ## Runs -/

section Runs

variable {T : Type} (rt : AuthRuntime)

theorem observes_known (t : T) :
    Observes (authServer rt) inquiry .idle .start t (fun ph k => k ∈ ph.known) Known.HoldsIn where
  idle _ := List.not_mem_nil
  init _ _ := List.not_mem_nil
  next g ph s x k hx hk := by
    rcases List.mem_append.1 hk with hold | hnew
    · exact .inl hold
    · exact .inr (holdsIn_of_learnt hx hnew)

variable [DecidableEq T]

def inquiryTracker : Tracker (authServer (T := T) rt) inquiry .idle .start :=
  Server.possibleTracker _ _ _ _ fun _ g _ _ _ hx => ⟨g, hx⟩

/-- What each session has learnt. -/
def inquiryOf (w : AuthWorld T) : T → Inquiry := (inquiryTracker rt).phase w

variable {rt} {guard : AuthWorld T → Label AuthSql T AuthRequest → Prop} {g : AuthDb}
  {w₀ w w' : AuthWorld T} {t : T}

theorem conforms_fresh : (inquiryTracker (T := T) rt).Conforms (vouches rt) (World.fresh g) :=
  fun _ => rfl

theorem request_phaseAfter (ph : Inquiry) (tr : List (Exchange AuthSql)) :
    (Server.phaseAfter inquiry ph tr).request = ph.request := by
  induction tr generalizing ph with
  | nil => rfl
  | cons x tr ih => exact ih (ph.learn x.1 x.2)

/-- The phase of a session is one of its request. -/
theorem request_inquiryOf {σ : Session AuthSql AuthRequest Thrown SessionResponse}
    (ht : w.session t = some σ) :
    (inquiryOf rt w t).request = some σ.request := by
  have hphase : inquiryOf rt w t = Server.phaseAfter inquiry (.start σ.request) σ.trace := by
    show Server.tracePhase _ _ _ w t = _
    rw [Server.tracePhase, ht]
    rfl
  rw [hphase, request_phaseAfter]
  rfl

/-- **Tokens say what was true while they were being issued.** In every run, whatever else happens
to accounts and memberships, a request that returns tokens has read or inserted, since it began,
rows from which everything follows that its tokens say. -/
theorem tokens_vouched (hreach : Runs (World.Step (authServer rt)) anyStep (World.fresh g) w₀)
    (hidle : w₀.session t = none) (hrun : Runs (World.Step (authServer rt)) guard w₀ w)
    {q : AuthRequest} {tokens : SessionTokens} {tr : List (Exchange AuthSql)}
    (hdone : w.session t = some ⟨q, .ret (.tokens tokens), tr⟩) :
    Vouched rt (fun k => Meanwhile (authServer rt) guard w₀ w t k.HoldsIn) q tokens := by
  have hconforms₀ := (inquiryTracker rt).follows (follows_inquiry rt) conforms_fresh hreach
  have hconforms := (inquiryTracker rt).follows (follows_inquiry rt) hconforms₀ hrun
  have hvouches : vouches rt (inquiryOf rt w t) (.ok (.tokens tokens)) := hconforms.running hdone
  obtain ⟨q', hq', hvouched⟩ := hvouches tokens rfl
  obtain rfl : q = q' := Option.some.inj ((request_inquiryOf hdone).symm.trans hq')
  apply hvouched.mono
  intro k hk
  exact meanwhile_of_seen (observes_known rt t) (follows_inquiry rt) hconforms₀ hidle hrun hk

end Runs

/-! ## Computed runs -/

section Samples

/-- Authentication requests with computed answers; a choice is a number and a text that are
drawn. -/
def authResponder {T : Type} (rt : AuthRuntime) :
    Responder (authServer (T := T) rt) (ℕ × String) where
  answer c _ g
    | .session s => g.sessions.answer c s
    | .findByUser userId => some (.ok (g.memberships.filter (·.userId = userId)))
    | .onboard _ => if ∀ m ∈ g.memberships, m.tenantId ≠ c.1 then some (.ok c.1) else none
    | s => g.answer c.1 s
  sound c t g s x h := by
    cases s with
    | session s =>
      have hpossible : g.sessions.possible s x :=
        (tokenResponder rt.toTokenRuntime).sound c t g.sessions s x h
      exact hpossible
    | findByUser userId =>
      cases h
      rfl
    | onboard userId =>
      dsimp only at h
      split at h
      · rename_i hfresh
        cases h
        exact hfresh
      · cases h
    | _ => exact (accountResponder rt).sound c.1 t g _ x h

/-- User 1 is a member of tenant 1, and nobody has a token. -/
def memberDb : AuthDb := ⟨[sampleMember], [⟨1, 1, .staff⟩], [], []⟩

/-- The member switches to the tenant, and refreshes. -/
def switchAndRefresh : List (Move (Fin 2) AuthRequest (ℕ × String)) :=
  [.start 0 (.switchTenant sampleMember 1), .go 0 (0, ""), .go 0 (0, "a"), .go 0 (0, ""),
    .go 0 (1, ""),
    .start 1 (.refresh "a"), .go 1 (0, ""), .go 1 (1, ""), .go 1 (2, ""), .go 1 (0, ""),
    .go 1 (0, ""), .go 1 (0, "b"), .go 1 (3, ""), .go 1 (2, "")]

/-- The tokens that a session has returned. -/
def returnedTokens {T : Type} (w : AuthWorld T) (t : T) : Option SessionTokens :=
  (w.session t).bind fun σ => match σ.prog with
    | .ret (.tokens tokens) => some tokens
    | _ => none

theorem done_of_returnedTokens {T : Type} {w : AuthWorld T} {t : T} {tokens : SessionTokens}
    {q : AuthRequest} (hrequest : (w.session t).map (·.request) = some q)
    (h : returnedTokens w t = some tokens) :
    ∃ tr, w.session t = some ⟨q, .ret (.tokens tokens), tr⟩ := by
  obtain ⟨⟨q', p, tr⟩, hat, hp⟩ := Option.bind_eq_some_iff.1 h
  rw [hat] at hrequest
  cases hrequest
  dsimp only at hp
  split at hp
  · rename_i tokens' htokens
    cases hp
    exact ⟨tr, by rw [hat]⟩
  · cases hp

theorem tokens_vouched_switch :
    ∃ w : AuthWorld (Fin 2), Vouched sampleAuth
      (fun k => Meanwhile (authServer sampleAuth) anyStep (World.fresh memberDb) w 0 k.HoldsIn)
      (.switchTenant sampleMember 1) ⟨"", "a"⟩ := by
  obtain ⟨w, hrun, hw⟩ := (authResponder sampleAuth).exists_anyRun
    (World.fresh memberDb) switchAndRefresh
    (fun w => (w.session 0).map (·.request) = some (.switchTenant sampleMember 1) ∧
      returnedTokens w 0 = some ⟨"", "a"⟩) (by decide +kernel)
  obtain ⟨hrequest, hreturned⟩ := of_decide_eq_true hw
  obtain ⟨tr, hdone⟩ := done_of_returnedTokens hrequest hreturned
  exact ⟨w, tokens_vouched .refl rfl hrun hdone⟩

end Samples

/-! ## Families -/

section Families

/-- The family of a refresh token, and for whom it is. -/
def RefreshToken.owner (r : RefreshToken) : Uuid × Uuid × Option Uuid :=
  (r.familyId, r.userId, r.tenantId)

/-- All tokens of a family are for one user and one tenant. -/
def FamiliesScoped (tokens : List RefreshToken) : Prop :=
  ∀ r ∈ tokens, ∀ r' ∈ tokens, r.familyId = r'.familyId → r.owner = r'.owner

variable {rt : AuthRuntime} {g g' : AuthDb} {tokens tokens' : List RefreshToken}

theorem FamiliesScoped.of_owners (h : FamiliesScoped tokens)
    (hsub : ∀ r' ∈ tokens', ∃ r ∈ tokens, r.owner = r'.owner) : FamiliesScoped tokens' := by
  intro r' hr' x' hx' hfamily
  obtain ⟨r, hr, howner⟩ := hsub r' hr'
  obtain ⟨x, hx, howner'⟩ := hsub x' hx'
  have hfamilies : r.familyId = x.familyId :=
    (congrArg Prod.fst howner).trans (hfamily.trans (congrArg Prod.fst howner').symm)
  exact howner.symm.trans ((h r hr x hx hfamilies).trans howner')

/-- A new token that continues a family is for whom that is; one that does not begins a family. -/
theorem FamiliesScoped.append (h : FamiliesScoped tokens) {v : RefreshToken}
    (hv : (∃ r ∈ tokens, r.owner = v.owner) ∨ ∀ r ∈ tokens, r.familyId ≠ v.familyId) :
    FamiliesScoped (tokens ++ [v]) := by
  rcases hv with hold | hnew
  · -- the family goes on, with the owner that it has
    apply h.of_owners
    intro r' hr'
    rcases List.mem_append.1 hr' with hr' | hr'
    · exact ⟨r', hr', rfl⟩
    · obtain rfl := List.mem_singleton.1 hr'
      exact hold
  · -- the family begins: no older token is in it
    intro r hr r' hr' hfamily
    rcases List.mem_append.1 hr with hold | hlast
    · rcases List.mem_append.1 hr' with hold' | hlast'
      · exact h r hold r' hold' hfamily
      · obtain rfl := List.mem_singleton.1 hlast'
        exact absurd hfamily (hnew r hold)
    · obtain rfl := List.mem_singleton.1 hlast
      rcases List.mem_append.1 hr' with hold' | hlast'
      · exact absurd hfamily.symm (hnew r' hold')
      · obtain rfl := List.mem_singleton.1 hlast'
        rfl

theorem owner_useRow (id : Uuid) (usedAt : Instant) (r : RefreshToken) :
    (TokenDb.useRow id usedAt r).owner = r.owner := by
  unfold TokenDb.useRow
  split <;> rfl

theorem owner_revokeRow (familyId : Uuid) (revokedAt : Instant) (r : RefreshToken) :
    (TokenDb.revokeRow familyId revokedAt r).owner = r.owner := by
  unfold TokenDb.revokeRow
  split <;> rfl

/-- What a statement does to the refresh tokens: it inserts one, or it leaves their owners as they
are. -/
theorem tokens_effect {s : AuthStatement} {x : Except SqlState s.Result} (hx : g.possible s x) :
    (∃ f : RefreshToken → RefreshToken, (∀ r, (f r).owner = r.owner) ∧
      (g.effect s x).tokens = g.tokens.map f) ∨
    ∃ data v, (⟨s, x⟩ : Exchange AuthSql) = ⟨.session (.create data), .ok v⟩ ∧
      g.sessions.Inserts data v ∧
      (g.effect s x).tokens = g.tokens ++ [v] := by
  have hsame : (g.effect s x).tokens = g.tokens → ∃ f : RefreshToken → RefreshToken,
      (∀ r, (f r).owner = r.owner) ∧ (g.effect s x).tokens = g.tokens.map f :=
    fun heq => ⟨id, fun _ => rfl, heq.trans (List.map_id _).symm⟩
  -- only three statements write to the tokens, and two of them keep the owners
  cases x with
  | error code => exact .inl (hsame rfl)
  | ok v =>
    cases s with
    | session s =>
      cases s with
      | create data => exact .inr ⟨data, v, rfl, hx, rfl⟩
      | markUsedIfUnused id usedAt => exact .inl ⟨_, owner_useRow id usedAt, rfl⟩
      | revokeFamily familyId revokedAt => exact .inl ⟨_, owner_revokeRow familyId revokedAt, rfl⟩
      | _ => exact .inl (hsame rfl)
    | _ => exact .inl (hsame rfl)

variable {T : Type} [DecidableEq T] {w w' : AuthWorld T}

/-- The owner of a token is not forgotten. -/
theorem owners_step {l : Label AuthSql T AuthRequest} (hs : World.Step (authServer rt) w l w')
    {r : RefreshToken} (hr : r ∈ w.shared.tokens) :
    ∃ r' ∈ w'.shared.tokens, r'.owner = r.owner := by
  cases hs with
  | start q hidle => exact ⟨r, hr, rfl⟩
  | crash hat hrun => exact ⟨r, hr, rfl⟩
  | @env g hg =>
    have htokens : g.tokens = w.shared.tokens := hg
    exact ⟨r, htokens ▸ hr, rfl⟩
  | @call t q tr s k x hat hx =>
    -- tokens are changed in place or one is added
    rcases tokens_effect hx with ⟨f, hf, htokens⟩ | ⟨data, v, -, -, htokens⟩
    · refine ⟨f r, ?_, hf r⟩
      rw [show (w.answered (authServer rt) t q (k x) tr s x).shared.tokens = _ from htokens]
      exact List.mem_map_of_mem hr
    · refine ⟨r, ?_, rfl⟩
      rw [show (w.answered (authServer rt) t q (k x) tr s x).shared.tokens = _ from htokens]
      exact List.mem_append_left _ hr

theorem owners_run {guard : AuthWorld T → Label AuthSql T AuthRequest → Prop}
    (hrun : Runs (World.Step (authServer rt)) guard w w') {r : RefreshToken}
    (hr : r ∈ w.shared.tokens) :
    ∃ r' ∈ w'.shared.tokens, r'.owner = r.owner := by
  apply hrun.invariant (I := fun w' => ∃ r' ∈ w'.shared.tokens, r'.owner = r.owner) _ ⟨r, hr, rfl⟩
  rintro x l y ⟨r₁, hr₁, howner₁⟩ - hs
  obtain ⟨r₂, hr₂, howner₂⟩ := owners_step hs hr₁
  exact ⟨r₂, hr₂, howner₂.trans howner₁⟩

/-- One step of the interleaving, after a run from the start. -/
theorem FamiliesScoped.step (hrun : Runs (World.Step (authServer rt)) anyStep (World.fresh g) w)
    (h : FamiliesScoped w.shared.tokens) {l : Label AuthSql T AuthRequest}
    (hs : World.Step (authServer rt) w l w') : FamiliesScoped w'.shared.tokens := by
  cases hs with
  | start q hidle => exact h
  | crash hat hrun => exact h
  | @env g hg =>
    have htokens : g.tokens = w.shared.tokens := hg
    exact htokens ▸ h
  | @call t q tr s k x hat hx =>
    show FamiliesScoped (w.shared.effect s x).tokens
    rcases tokens_effect hx with ⟨f, hf, htokens⟩ | ⟨data, v, hcreate, ⟨hrow, -, hfamily⟩, htokens⟩
    · rw [htokens]
      apply h.of_owners
      intro r' hr'
      obtain ⟨r, hr, rfl⟩ := List.mem_map.1 hr'
      exact ⟨r, hr, (hf r).symm⟩
    · rw [htokens]
      apply h.append
      obtain ⟨rfl, -⟩ := Sigma.mk.inj hcreate
      cases hcontinues : data.familyId with
      | none =>
        rw [hcontinues] at hfamily
        exact .inr hfamily
      | some familyId =>
        rw [hcontinues] at hfamily
        -- a token of the family is known, and so it has been there since the request began
        have hconforms := (inquiryTracker rt).follows (follows_inquiry rt) conforms_fresh hrun
        obtain ⟨r, hr, hrfamily, huser, htenant⟩ := hconforms.allows hat familyId hcontinues
        obtain ⟨w₁, -, -, -, hr₁, hafter⟩ :=
          meanwhile_of_seen (observes_known rt t) (follows_inquiry rt) conforms_fresh
          rfl hrun hr
        obtain ⟨r', hr', howner⟩ := owners_run hafter hr₁
        refine .inl ⟨r', hr', howner.trans ?_⟩
        rw [hrow, RefreshToken.owner, RefreshToken.owner, hrfamily, huser, htenant, hfamily]

/-- **A session stays one user's, in one tenant.** In every reachable state all refresh tokens of a
family are for the same user and the same tenant. -/
theorem families_scoped (rt : AuthRuntime) {g : AuthDb} (hg : FamiliesScoped g.tokens)
    (hrun : Runs (World.Step (authServer rt)) anyStep (World.fresh g) w) :
    FamiliesScoped w.shared.tokens := by
  induction hrun with
  | refl => exact hg
  | tail hbefore hlast ih =>
    obtain ⟨l, -, hs⟩ := hlast
    exact ih.step hbefore hs

theorem families_scoped_refresh :
    ∃ w : AuthWorld (Fin 2), w.shared.tokens.map (·.familyId) = [1, 1] ∧
      FamiliesScoped w.shared.tokens := by
  obtain ⟨w, hrun, hw⟩ := (authResponder sampleAuth).exists_anyRun
    (World.fresh memberDb) switchAndRefresh
    (fun w => w.shared.tokens.map (·.familyId) = [1, 1]) (by decide +kernel)
  exact ⟨w, of_decide_eq_true hw, families_scoped sampleAuth
    (fun r hr => absurd hr List.not_mem_nil) hrun⟩

end Families

/-! ## Routes -/

section Routes

/-- What `@Authorized` can ask for. -/
inductive AuthRole where
  | superAdmin
  | member (role : MembershipRole)
  deriving DecidableEq, Repr

def tenantMember : List AuthRole := [.member .owner, .member .staff]

/-- The pure functions behind bearer tokens. A token that is verified, and has not expired, shows
the claims that have been signed. -/
structure BearerRuntime extends AuthRuntime where
  verify : String → Option JwtPayload
  verify_sign : ∀ p p', verify (sign p) = some p' → p' = p

variable (rt : BearerRuntime)

/-- The user that the strategy of the bearer tokens finds. -/
def bearerUser (g : AuthDb) (token : String) : Option User :=
  (rt.verify token).bind fun payload => g.users.find? (·.id = payload.sub)

/-- The user whose request gets through to a handler that asks for one of these roles. -/
def authorizationChecker (g : AuthDb) (token : String) (roles : List AuthRole) : Option User :=
  match bearerUser rt g token with
  | none => none
  | some user =>
    if user.isSuperAdmin then some user
    else if roles = [] then some user
    else match (rt.verify token).bind (·.role) with
      | some role => if .member role ∈ roles then some user else none
      | none => none

variable {rt}

/-- Who gets through: a super-admin, or everybody else with one of the roles in the token. -/
theorem of_authorizationChecker {g : AuthDb} {token : String} {roles : List AuthRole}
    (hroles : roles ≠ []) {user : User} (h : authorizationChecker rt g token roles = some user) :
    ∃ payload, rt.verify token = some payload ∧ user ∈ g.users ∧ user.id = payload.sub ∧
      (user.isSuperAdmin = true ∨ ∃ role, payload.role = some role ∧ .member role ∈ roles) := by
  unfold authorizationChecker at h
  cases hfound : bearerUser rt g token with
  | none =>
    rw [hfound] at h
    cases h
  | some found =>
    obtain ⟨payload, hpayload, huser⟩ := Option.bind_eq_some_iff.1 hfound
    have hid : found.id = payload.sub := by simpa using List.find?_some huser
    have hmem : found ∈ g.users := List.mem_of_find?_eq_some huser
    simp only [hfound, hpayload, Option.bind_some, if_neg hroles] at h
    -- a super-admin passes whatever the roles are
    by_cases hadmin : found.isSuperAdmin = true
    · rw [if_pos hadmin] at h
      obtain rfl := Option.some.inj h
      exact ⟨payload, hpayload, hmem, hid, .inl hadmin⟩
    · rw [if_neg hadmin] at h
      cases hrole : payload.role with
      | none => simp [hrole] at h
      | some role =>
        simp only [hrole, Option.ite_none_right_eq_some, Option.some.injEq] at h
        obtain ⟨hmember, rfl⟩ := h
        exact ⟨payload, hpayload, hmem, hid, .inr ⟨role, hrole, hmember⟩⟩

variable {T : Type} [DecidableEq T] {guard : AuthWorld T → Label AuthSql T AuthRequest → Prop}
  {g g' : AuthDb} {w₀ w : AuthWorld T} {t : T}

/-- **A role is one that somebody has had.** With a token that a request has returned, whatever has
happened since, a handler that asks for a role is reached by super-admins, and by members that had
one of the roles in the tenant of the token while it was being issued. -/
theorem guarded_routes
    (hreach : Runs (World.Step (authServer rt.toAuthRuntime)) anyStep (World.fresh g) w₀)
    (hidle : w₀.session t = none)
    (hrun : Runs (World.Step (authServer rt.toAuthRuntime)) guard w₀ w) {q : AuthRequest}
    {tokens : SessionTokens} {tr : List (Exchange AuthSql)}
    (hdone : w.session t = some ⟨q, .ret (.tokens tokens), tr⟩) {roles : List AuthRole}
    (hroles : roles ≠ []) {user : User}
    (h : authorizationChecker rt g' tokens.token roles = some user) :
    user ∈ g'.users ∧ (user.isSuperAdmin = true ∨ ∃ tenantId role, .member role ∈ roles ∧
      rt.verify tokens.token = some ⟨user.id, some tenantId, some role⟩ ∧
      Meanwhile (authServer rt.toAuthRuntime) guard w₀ w t fun g =>
        ⟨user.id, tenantId, role⟩ ∈ g.memberships) := by
  obtain ⟨payload, hverify, huser, hid, hpasses⟩ := of_authorizationChecker hroles h
  refine ⟨huser, hpasses.imp_right ?_⟩
  rintro ⟨role, hrole, hmember⟩
  obtain ⟨p, htoken, -, hentitled, -⟩ := tokens_vouched hreach hidle hrun hdone
  obtain rfl : payload = p := rt.verify_sign p payload (htoken ▸ hverify)
  cases hentitled with
  | identity sub => cases hrole
  | superAdmin hq hadmin => cases hrole
  | @member sub tenantId role' hknown =>
    obtain rfl : role' = role := Option.some.inj hrole
    obtain rfl : user.id = sub := hid
    exact ⟨tenantId, role', hmember, hverify, hknown⟩

/-- Tokens of the member of the sample database can be verified. -/
def sampleBearer : BearerRuntime where
  toAuthRuntime := { sampleAuth with
    sign := fun p => if p = ⟨1, some 1, some .staff⟩ then "staff" else "other" }
  verify token := if token = "staff" then some ⟨1, some 1, some .staff⟩ else none
  verify_sign p p' h := by
    by_cases hp : p = ⟨1, some 1, some .staff⟩
    · simp only [hp, ↓reduceIte, Option.some.injEq] at h
      exact h.symm.trans hp.symm
    · simp [hp] at h

theorem guarded_routes_staff :
    ∃ w : AuthWorld (Fin 2), sampleMember ∈ memberDb.users ∧ (sampleMember.isSuperAdmin = true ∨
      ∃ tenantId role, .member role ∈ tenantMember ∧
        sampleBearer.verify "staff" = some ⟨sampleMember.id, some tenantId, some role⟩ ∧
        Meanwhile (authServer sampleBearer.toAuthRuntime) anyStep (World.fresh memberDb) w 0
          fun g => ⟨sampleMember.id, tenantId, role⟩ ∈ g.memberships) := by
  obtain ⟨w, hrun, hw⟩ := (authResponder sampleBearer.toAuthRuntime).exists_anyRun
    (World.fresh memberDb)
    switchAndRefresh (fun w => (w.session 0).map (·.request) = some (.switchTenant sampleMember 1) ∧
      returnedTokens w 0 = some ⟨"staff", "a"⟩) (by decide +kernel)
  obtain ⟨hrequest, hreturned⟩ := of_decide_eq_true hw
  obtain ⟨tr, hdone⟩ := done_of_returnedTokens hrequest hreturned
  have hchecked : authorizationChecker sampleBearer memberDb "staff" tenantMember =
      some sampleMember := by
    decide +kernel
  exact ⟨w, guarded_routes .refl rfl hrun hdone (by decide) hchecked⟩

end Routes

end BookingPlatform
