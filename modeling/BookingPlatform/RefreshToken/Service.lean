import BookingPlatform.Common.Sql

/-!
# Refresh Tokens

Sessions are continued by refresh tokens that are used once. A token and its successors
form a family; presenting a used one again burns the family. Every statement commits on
its own: none of these requests opens a transaction.

## Main definitions

- `RefreshTokenService`: issue, claim and revoke.
- `AuthService`: refresh, logout and the start of a session.
-/

namespace BookingPlatform

open Library

/-! ## Rows and statements -/

/-- A row of `refresh_tokens`. -/
structure RefreshToken where
  id : Uuid
  userId : Uuid
  familyId : Uuid
  tokenHash : String
  tenantId : Option Uuid
  role : Option MembershipRole
  expiresAt : Instant
  usedAt : Option Instant
  revokedAt : Option Instant
  deriving DecidableEq, Repr

/-- The values of an `INSERT INTO refresh_tokens`. Without a `familyId` the code draws one
with `randomUUID()`; it is drawn here when the row is inserted. -/
structure RefreshTokenData where
  userId : Uuid
  familyId : Option Uuid
  tokenHash : String
  tenantId : Option Uuid
  role : Option MembershipRole
  expiresAt : Instant
  deriving DecidableEq, Repr

/-- A statement of a session request, or a value it draws from its environment. -/
inductive TokenStatement where
  | findByHash (tokenHash : String)
  | create (data : RefreshTokenData)
  | markUsedIfUnused (id : Uuid) (usedAt : Instant)
  | revokeFamily (familyId : Uuid) (revokedAt : Instant)
  | findByUserAndTenant (userId tenantId : Uuid)
  | now
  | randomBytes
  deriving DecidableEq

/-- The result of a statement that succeeds; an `UPDATE` reports the affected rows. -/
abbrev TokenStatement.Result : TokenStatement → Type
  | findByHash _ => Option RefreshToken
  | create _ => RefreshToken
  | markUsedIfUnused .. => ℕ
  | revokeFamily .. => ℕ
  | findByUserAndTenant .. => Option MembershipRole
  | now => Instant
  | randomBytes => String

/-- Code that issues token statements. -/
abbrev TokenM : Type → Type := SqlM TokenStatement TokenStatement.Result

abbrev TokenM.exec (s : TokenStatement) : TokenM s.Result := execSql s

open TokenM

/-- Token claims. -/
structure JwtPayload where
  sub : Uuid
  tenantId : Option Uuid
  role : Option MembershipRole
  deriving DecidableEq, Repr

/-- The pure functions behind sessions: SHA-256, the signed access token, and the
configured lifetime of a refresh token. -/
structure TokenRuntime where
  sha256 : String → String
  sign : JwtPayload → String
  refreshTokenTtlDays : ℤ

/-! ## Refresh token service -/

structure SessionScope where
  tenantId : Option Uuid
  role : Option MembershipRole
  deriving DecidableEq, Repr

structure ClaimedSession extends SessionScope where
  userId : Uuid
  familyId : Uuid
  deriving DecidableEq, Repr

namespace RefreshTokenRepository

/-- Atomically claims an unused token; false if it was already used. -/
def markUsedIfUnused (id : Uuid) (usedAt : Instant) : TokenM Bool := do
  let affected ← exec (.markUsedIfUnused id usedAt)
  return affected > 0

def revokeFamily (familyId : Uuid) (revokedAt : Instant) : TokenM Unit := do
  let _ ← exec (.revokeFamily familyId revokedAt)
  return ()

end RefreshTokenRepository

namespace RefreshTokenService

/-- Mints a refresh token; `familyId` continues an existing chain. -/
def issue (rt : TokenRuntime) (userId : Uuid) (scope : SessionScope) (familyId : Option Uuid) :
    TokenM String := do
  let plaintext ← exec .randomBytes
  let now ← exec .now
  let _ ← exec (.create
    { userId, familyId, tokenHash := rt.sha256 plaintext, tenantId := scope.tenantId,
      role := scope.role, expiresAt := now + rt.refreshTokenTtlDays * dayMs })
  return plaintext

/-- Burns the family now. -/
def revokeFamily (familyId : Uuid) : TokenM Unit := do
  let now ← exec .now
  RefreshTokenRepository.revokeFamily familyId now

/-- Validates and consumes the token; a replay burns the whole family. -/
def claim (rt : TokenRuntime) (plaintext : String) : TokenM ClaimedSession := do
  match ← exec (.findByHash (rt.sha256 plaintext)) with
  | none => throwSql (.unauthorized "Invalid refresh token")
  | some record =>
    if record.revokedAt.isSome then
      throwSql (.unauthorized "Invalid refresh token")
    else
      let now ← exec .now
      if record.expiresAt < now then
        throwSql (.unauthorized "Refresh token expired")
      else
        let usedAt ← exec .now
        if !(← RefreshTokenRepository.markUsedIfUnused record.id usedAt) then
          revokeFamily record.familyId
          throwSql (.unauthorized "Refresh token reuse detected")
        else
          return { userId := record.userId, familyId := record.familyId,
                   tenantId := record.tenantId, role := record.role }

/-- Revokes the token's whole family; nothing happens if the token is unknown. -/
def revoke (rt : TokenRuntime) (plaintext : String) : TokenM Unit := do
  match ← exec (.findByHash (rt.sha256 plaintext)) with
  | none => return ()
  | some record => revokeFamily record.familyId

end RefreshTokenService

/-! ## Auth service -/

structure SessionTokens where
  token : String
  refreshToken : String
  deriving DecidableEq, Repr

namespace MembershipService

def resolveRole (userId tenantId : Uuid) : TokenM (Option MembershipRole) :=
  exec (.findByUserAndTenant userId tenantId)

end MembershipService

namespace AuthService

/-- The rest of a refresh, once the scope of the new tokens is known. -/
def rotate (rt : TokenRuntime) (claimed : ClaimedSession) (scope : SessionScope) :
    TokenM SessionTokens := do
  let token := rt.sign ⟨claimed.userId, scope.tenantId, scope.role⟩
  let nextRefresh ← RefreshTokenService.issue rt claimed.userId scope (some claimed.familyId)
  return ⟨token, nextRefresh⟩

/-- Re-resolves the authority from the membership; the family is burned if that is gone. -/
def refresh (rt : TokenRuntime) (refreshToken : String) : TokenM SessionTokens := do
  let claimed ← RefreshTokenService.claim rt refreshToken
  match claimed.tenantId with
  | none => rotate rt claimed ⟨none, none⟩
  | some tenantId =>
    match ← MembershipService.resolveRole claimed.userId tenantId with
    | none => do
      RefreshTokenService.revokeFamily claimed.familyId
      throwSql (.unauthorized "Membership no longer valid")
    | some role => rotate rt claimed ⟨some tenantId, some role⟩

def logout (rt : TokenRuntime) (refreshToken : String) : TokenM Unit :=
  RefreshTokenService.revoke rt refreshToken

/-- The first tokens of a session: login, registration and tenant switch end here. -/
def issueSession (rt : TokenRuntime) (userId : Uuid) (scope : SessionScope) :
    TokenM SessionTokens := do
  let token := rt.sign ⟨userId, scope.tenantId, scope.role⟩
  let refreshToken ← RefreshTokenService.issue rt userId scope none
  return ⟨token, refreshToken⟩

end AuthService

/-! ## Requests -/

inductive SessionRequest where
  | refresh (refreshToken : String)
  | logout (refreshToken : String)
  | issueSession (userId : Uuid) (scope : SessionScope)
  deriving DecidableEq, Repr

inductive SessionResponse where
  | tokens (tokens : SessionTokens)
  | loggedOut
  deriving DecidableEq, Repr

/-- The service call of a request. -/
def handleSession (rt : TokenRuntime) : SessionRequest → TokenM SessionResponse
  | .refresh refreshToken => .tokens <$> AuthService.refresh rt refreshToken
  | .logout refreshToken => do
    AuthService.logout rt refreshToken
    return .loggedOut
  | .issueSession userId scope => .tokens <$> AuthService.issueSession rt userId scope

end BookingPlatform
