import BookingPlatform.RefreshToken.Rotation

/-!
# Accounts and Sessions

Registration, login, Google sign-in, tenant switch and onboarding. All of them find or make an
account, and all but the Google resolution end with the first tokens of a session. Every
statement commits on its own, except for the onboarding transaction.

## Main definitions

- `AuthService.resolveGoogleUser`: the account of a Google identity.
- `AuthService.switchTenant`, `issueSessionFor`, `TenantController.create`: where sessions start.
- `AuthDb`: the accounts, the memberships and the refresh tokens.
-/

namespace BookingPlatform

open Library

/-! ## Statements -/

/-- The values of an `INSERT INTO users`. -/
structure UserData where
  email : String
  name : String
  passwordHash : Option String
  provider : Option String
  providerAccountId : Option String
  deriving DecidableEq, Repr

/-- A statement of an authentication request, or a value it draws from its environment;
`onboard` is the transaction that inserts a tenant and its owner's membership. -/
inductive AuthStatement where
  | session (s : TokenStatement)
  | findByEmail (email : String)
  | findByProviderAccount (provider providerAccountId : String)
  | createUser (data : UserData)
  | linkProvider (id : Uuid) (provider providerAccountId : String)
  | findByUser (userId : Uuid)
  | onboard (userId : Uuid)
  | hash (password : String)
  deriving DecidableEq

/-- The result of a statement that succeeds. -/
abbrev AuthStatement.Result : AuthStatement → Type
  | session s => s.Result
  | findByEmail _ => Option User
  | findByProviderAccount .. => Option User
  | createUser _ => User
  | linkProvider .. => Unit
  | findByUser _ => List Membership
  | onboard _ => Uuid
  | hash _ => String

abbrev AuthSql : Signature := sqlSignature AuthStatement AuthStatement.Result

/-- Code that issues authentication statements. -/
abbrev AuthM : Type → Type := SqlM AuthStatement AuthStatement.Result

namespace AuthM

abbrev exec (s : AuthStatement) : AuthM s.Result := execSql s

/-- The code of the refresh tokens as part of the authentication code. -/
def ofToken {α : Type} : TokenM α → AuthM α
  | .ret a => .ret a
  | .raise e => .raise e
  | .call s k => .call (.session s) fun r => ofToken (k r)

end AuthM

open AuthM

/-! ## The services -/

/-- The pure functions behind accounts: what the tokens need, and the password check. -/
structure AuthRuntime extends TokenRuntime where
  comparePassword : (password passwordHash : String) → Bool

structure AuthResult extends SessionTokens where
  user : User
  deriving DecidableEq, Repr

structure RegisterDto where
  email : String
  name : String
  password : String
  deriving DecidableEq, Repr

structure LoginDto where
  email : String
  password : String
  deriving DecidableEq, Repr

/-- The Google identity of a verified OAuth profile; `sub` is the stable account id. -/
structure GoogleIdentity where
  sub : String
  email : String
  emailVerified : Bool
  name : String
  deriving DecidableEq, Repr

namespace AuthService

variable (rt : AuthRuntime)

/-- The first tokens of a session of this user. -/
def session (user : User) (scope : SessionScope) : AuthM AuthResult := do
  let tokens ← ofToken (issueSession rt.toTokenRuntime user.id scope)
  return { tokens with user }

/-- Issues a session scoped to the user's primary tenant (identity-only if none). -/
def issueSessionFor (user : User) : AuthM AuthResult := do
  match ← exec (.findByUser user.id) with
  | primary :: _ => session rt user ⟨some primary.tenantId, some primary.role⟩
  | [] => session rt user ⟨none, none⟩

def register (dto : RegisterDto) : AuthM AuthResult := do
  match ← exec (.findByEmail dto.email) with
  | some _ => throwSql (.conflict "Email already in use")
  | none =>
    let passwordHash ← exec (.hash dto.password)
    let user ← exec (.createUser ⟨dto.email, dto.name, some passwordHash, none, none⟩)
    -- no tenant yet: the session carries only identity until onboarding or an invite
    session rt user ⟨none, none⟩

def login (dto : LoginDto) : AuthM AuthResult := do
  match ← exec (.findByEmail dto.email) with
  | none => throwSql (.unauthorized "Invalid credentials")
  | some user =>
    match user.passwordHash with
    | none => throwSql (.unauthorized "Invalid credentials")
    | some passwordHash =>
      if rt.comparePassword dto.password passwordHash then issueSessionFor rt user
      else throwSql (.unauthorized "Invalid credentials")

/-- A verified Google email links onto an existing account; unverified emails are refused. -/
def resolveGoogleUser (identity : GoogleIdentity) : AuthM User := do
  if !identity.emailVerified then
    throwSql (.unauthorized "Google account email is not verified")
  else
    match ← exec (.findByProviderAccount "google" identity.sub) with
    | some linked => return linked
    | none =>
      match ← exec (.findByEmail identity.email) with
      | some existing => do
        -- whatever Google account it was linked to before
        exec (.linkProvider existing.id "google" identity.sub)
        return existing
      | none =>
        exec (.createUser ⟨identity.email, identity.name, none, some "google", some identity.sub⟩)

def switchTenant (user : User) (tenantId : Uuid) : AuthM AuthResult := do
  let role ← ofToken (MembershipService.resolveRole user.id tenantId)
  if role = none ∧ user.isSuperAdmin = false then
    throwSql (.unauthorized "Not a member of this tenant")
  else
    session rt user ⟨some tenantId, role⟩

/-- The session of a scope that the caller has established. -/
def startTenantSession (userId tenantId : Uuid) (role : MembershipRole) : AuthM SessionTokens :=
  ofToken (issueSession rt.toTokenRuntime userId ⟨some tenantId, some role⟩)

end AuthService

namespace TenantService

/-- Creates the tenant and the membership of its owner. -/
def onboard (userId : Uuid) : AuthM Uuid :=
  Prog.tryCatch (exec (.onboard userId)) fun error =>
    if error = .query uniqueViolation then throwSql (.conflict "Tenant slug already in use")
    else .raise error

end TenantService

namespace TenantController

/-- A user creates a tenant, becomes its owner, and gets tokens for it. -/
def create (rt : AuthRuntime) (user : User) : AuthM AuthResult := do
  let tenantId ← TenantService.onboard user.id
  let tokens ← AuthService.startTenantSession rt user.id tenantId .owner
  return { tokens with user }

end TenantController

/-! ## The tables -/

/-- The accounts, the memberships, oldest first, and the refresh tokens. -/
structure AuthDb where
  users : List User
  memberships : List Membership
  tokens : List RefreshToken
  burned : List Uuid

namespace AuthDb

variable (g : AuthDb)

/-- The role that a user has in a tenant. -/
def role (userId tenantId : Uuid) : Option MembershipRole :=
  (g.memberships.find? fun m => m.userId = userId ∧ m.tenantId = tenantId).map (·.role)

/-- The refresh tokens as the statements on them see them. -/
def sessions : TokenDb := ⟨g.tokens, g.role, g.burned⟩

/-- `v` is the row an `INSERT` of `data` makes: its id and email are new, and so is its Google
account, if it has one. -/
def Inserts (data : UserData) (v : User) : Prop :=
  v = ⟨v.id, data.email, data.name, data.passwordHash, data.provider,
    data.providerAccountId, false⟩ ∧
  (∀ u ∈ g.users, u.id ≠ v.id ∧ u.email ≠ v.email) ∧
  ∀ u ∈ g.users, v.provider ≠ none → u.provider = v.provider →
    u.providerAccountId ≠ v.providerAccountId

/-- `SET provider = …, provider_account_id = … WHERE id = …`, on one row. -/
def linkRow (id : Uuid) (provider providerAccountId : String) (u : User) : User :=
  if u.id = id then { u with
    provider := some provider, providerAccountId := some providerAccountId } else u

/-- The results a statement can have when it succeeds; a Google account belongs to one user. -/
def returns : (s : AuthStatement) → s.Result → Prop
  | .session s, v => g.sessions.returns s v
  | .findByEmail email, v => v = g.users.find? (·.email = email)
  | .findByProviderAccount provider providerAccountId, v =>
    v = g.users.find? fun u =>
      u.provider = some provider ∧ u.providerAccountId = some providerAccountId
  | .createUser data, v => g.Inserts data v
  | .linkProvider id provider providerAccountId, _ =>
    ∀ u ∈ g.users, u.provider = some provider →
      u.providerAccountId = some providerAccountId → u.id = id
  | .findByUser userId, v => v = g.memberships.filter (·.userId = userId)
  | .onboard _, tenantId => ∀ m ∈ g.memberships, m.tenantId ≠ tenantId
  | .hash _, _ => True

/-- The answers a statement can get: only statements on the database fail. -/
def possible : (s : AuthStatement) → Except SqlState s.Result → Prop
  | .session s, x => g.sessions.possible s x
  | s, .ok v => g.returns s v
  | s, .error _ => ∀ password, s ≠ .hash password

/-- What a statement that succeeds does. -/
def apply : (s : AuthStatement) → s.Result → AuthDb
  | .session s, v =>
    { g with tokens := (g.sessions.apply s v).tokens, burned := (g.sessions.apply s v).burned }
  | .createUser _, v => { g with users := g.users ++ [v] }
  | .linkProvider id provider providerAccountId, _ =>
    { g with users := g.users.map (linkRow id provider providerAccountId) }
  | .onboard userId, tenantId =>
    { g with memberships := g.memberships ++ [⟨userId, tenantId, .owner⟩] }
  | _, _ => g

/-- What a statement with a given answer does; one that fails does nothing. -/
def effect (s : AuthStatement) : Except SqlState s.Result → AuthDb
  | .ok v => g.apply s v
  | .error _ => g

end AuthDb

end BookingPlatform
