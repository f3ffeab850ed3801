import BookingPlatform.Common.Sql
import BookingPlatform.Library.Server

/-!
# Invites

An owner invites an email address to a tenant, and whoever holds the token and an account with
that address redeems the invite. The statements of a redemption commit one by one; the
membership is inserted before the invite is marked, so that a failure between the two cannot
use the invite up.

## Main definitions

- `InviteService.accept`: one redemption.
- `InviteDb`: invites and memberships, with what the invites have yielded so far.
- `inviteServer`: any number of redemptions.
-/

namespace BookingPlatform

open Library

/-! ## Rows and statements -/

/-- A row of `invites`. -/
structure Invite where
  id : Uuid
  tenantId : Uuid
  email : String
  role : MembershipRole
  tokenHash : String
  expiresAt : Instant
  acceptedAt : Option Instant
  deriving DecidableEq, Repr

inductive InviteStatement where
  | findByHash (tokenHash : String)
  | insertMembership (userId tenantId : Uuid) (role : MembershipRole)
  | markAcceptedIfPending (id : Uuid) (acceptedAt : Instant)
  | now
  deriving DecidableEq

/-- The result of a statement that succeeds; an `UPDATE` reports the affected rows. -/
abbrev InviteStatement.Result : InviteStatement → Type
  | findByHash _ => Option Invite
  | insertMembership .. => Membership
  | markAcceptedIfPending .. => ℕ
  | now => Instant

abbrev InviteSql : Signature := sqlSignature InviteStatement InviteStatement.Result

/-- Code that issues invite statements. -/
abbrev InviteM : Type → Type := SqlM InviteStatement InviteStatement.Result

abbrev InviteM.exec (s : InviteStatement) : InviteM s.Result := execSql s

open InviteM

/-- The pure functions behind invites. -/
structure InviteRuntime where
  sha256 : String → String
  toLowerCase : String → String
  toLowerCase_idem : ∀ s, toLowerCase (toLowerCase s) = toLowerCase s

/-! ## The service -/

namespace InviteRepository

/-- Atomically claims a pending invite; false if it was already accepted. -/
def markAcceptedIfPending (id : Uuid) (acceptedAt : Instant) : InviteM Bool := do
  let affected ← exec (.markAcceptedIfPending id acceptedAt)
  return affected > 0

end InviteRepository

namespace InviteService

/-- Redeems an invite for an account. -/
def accept (rt : InviteRuntime) (user : User) (token : String) : InviteM Membership := do
  match ← exec (.findByHash (rt.sha256 token)) with
  | none => throwSql (.notFound "Invalid invite token")
  | some invite =>
    -- blocks re-use, including rejoining with an old token after removal
    if invite.acceptedAt.isSome then
      throwSql (.conflict "Invite already used")
    else
      let now ← exec .now
      if invite.expiresAt < now then
        throwSql (.gone "Invite expired")
      else if rt.toLowerCase invite.email ≠ rt.toLowerCase user.email then
        throwSql (.forbidden "Invite was issued to a different email")
      else
        Prog.tryCatch
          (do
            let membership ← exec (.insertMembership user.id invite.tenantId invite.role)
            let acceptedAt ← exec .now
            -- whether the invite was still pending is not looked at
            let _ ← InviteRepository.markAcceptedIfPending invite.id acceptedAt
            return membership)
          fun error =>
            if error = .query uniqueViolation then throwSql
              (.conflict "Already a member of this tenant")
            else .raise error

end InviteService

/-- A redemption, by the account that the bearer token identifies. -/
structure AcceptRequest where
  user : User
  token : String
  deriving DecidableEq, Repr

/-! ## The tables -/

/-- A membership that an invite has yielded, with the `accepted_at` of the invite at that
moment. -/
structure InviteYield where
  inviteId : Uuid
  userId : Uuid
  acceptedAt : Option Instant
  deriving DecidableEq, Repr

/-- The tables. `found` is the invite that a session has read, and `yields` the memberships that
were inserted for invites so far. -/
structure InviteDb (T : Type) where
  invites : List Invite
  memberships : List Membership
  clock : Instant
  found : T → Option Invite
  yields : List InviteYield

namespace InviteDb

variable {T : Type} (g : InviteDb T) (t : T)

/-- The user is a member of the tenant. -/
def Member (userId tenantId : Uuid) : Prop :=
  ∃ m ∈ g.memberships, m.userId = userId ∧ m.tenantId = tenantId

/-- The results a statement can have when it succeeds; the pair of user and tenant of a
membership is unique. -/
def returns : (s : InviteStatement) → s.Result → Prop
  | .findByHash tokenHash, v => v = g.invites.find? (·.tokenHash = tokenHash)
  | .insertMembership userId tenantId role, m =>
    m = ⟨userId, tenantId, role⟩ ∧ ¬g.Member userId tenantId
  | .markAcceptedIfPending id _, n => n = g.invites.countP fun i => i.id = id ∧ i.acceptedAt = none
  | .now, v => v = g.clock

/-- The answers a statement can get: reading the clock never fails. -/
def possible (s : InviteStatement) : Except SqlState s.Result → Prop
  | .ok v => g.returns s v
  | .error _ => s ≠ .now

/-- `SET accepted_at = … WHERE id = … AND accepted_at IS NULL`, on one row. -/
def acceptRow (id : Uuid) (acceptedAt : Instant) (i : Invite) : Invite :=
  if i.id = id ∧ i.acceptedAt = none then { i with acceptedAt := some acceptedAt } else i

/-- What the invite that session `t` has read yields when its user becomes a member. -/
def yielded (userId : Uuid) : List InviteYield :=
  match g.found t with
  | some i => [⟨i.id, userId, (g.invites.find? (·.id = i.id)).bind (·.acceptedAt)⟩]
  | none => []

variable [DecidableEq T]

/-- What a statement that succeeds does. -/
def apply : (s : InviteStatement) → s.Result → InviteDb T
  | .findByHash _, found => { g with found := Function.update g.found t found }
  | .insertMembership userId _ _, m =>
    { g with
      memberships := m :: g.memberships
      yields := g.yielded t userId ++ g.yields }
  | .markAcceptedIfPending id acceptedAt, _ =>
    { g with invites := g.invites.map (acceptRow id acceptedAt) }
  | .now, _ => g

/-- What a statement with a given answer does; one that fails does nothing. -/
def effect (s : InviteStatement) : Except SqlState s.Result → InviteDb T
  | .ok v => g.apply t s v
  | .error _ => g

omit [DecidableEq T] in
/-- What happens outside the redemptions: an owner invites somebody, a user becomes a member in
another way, and time passes. -/
inductive Env : InviteDb T → InviteDb T → Prop where
  | invites (g : InviteDb T) (i : Invite) (hid : ∀ i' ∈ g.invites, i'.id ≠ i.id)
      (hhash : ∀ i' ∈ g.invites, i'.tokenHash ≠ i.tokenHash) (hpending : i.acceptedAt = none) :
      Env g { g with invites := i :: g.invites }
  | joins (g : InviteDb T) (m : Membership) (hnew : ¬g.Member m.userId m.tenantId) :
      Env g { g with memberships := m :: g.memberships }
  | passes (g : InviteDb T) (clock : Instant) (hclock : g.clock ≤ clock) : Env g { g with clock }

end InviteDb

/-- Any number of redemptions. One that dies leaves what it has done. -/
def inviteServer {T : Type} [DecidableEq T] (rt : InviteRuntime) :
    Server InviteSql T (InviteDb T) AcceptRequest Thrown Membership where
  program q := InviteService.accept rt q.user q.token
  possible _ g := g.possible
  effect t g := g.effect t
  crash _ g := g
  env := InviteDb.Env

/-- Any invites and memberships, before any of the redemptions. -/
structure InviteDb.Initial {T : Type} (g : InviteDb T) : Prop where
  ids : (g.invites.map (·.id)).Nodup
  yields : g.yields = []

abbrev InviteWorld (T : Type) : Type :=
  World InviteSql T (InviteDb T) AcceptRequest Thrown Membership

end BookingPlatform
