import BookingPlatform.Common.Sql
import BookingPlatform.Subscription.Domain

/-!
# Staff and the Plan Limit

An owner adds members of the tenant to its staff, as many as the plan in force allows, and
removes them. The limit is checked on a count of the staff that is read before the insert.

## Main definitions

- `StaffService.create`, `StaffService.remove`: the two operations that change who is staff.
- `SubscriptionService.assertWithinStaffLimit`: the check.
- `handleStaff`: a request inside its transaction.
-/

namespace BookingPlatform

open Library

/-! ## Rows and statements -/

/-- A row of `staff`; `deleted` says that its `deleted_at` is set. -/
structure Staff where
  id : Uuid
  tenantId : Uuid
  userId : Uuid
  displayName : String
  active : Bool
  deleted : Bool
  deriving DecidableEq, Repr

/-- A row of `plans`; a cap of -1 is unlimited. -/
structure Plan where
  id : Uuid
  code : String
  maxStaff : ℤ
  deriving DecidableEq, Repr

/-- The values of an `INSERT INTO staff`. -/
structure StaffData where
  userId : Uuid
  displayName : String
  tenantId : Uuid
  deriving DecidableEq, Repr

/-- Plan code applied to a tenant that has not subscribed to a paid tier. -/
def defaultPlanCode : String := "free"

inductive StaffStatement where
  | findByUserAndTenant (userId tenantId : Uuid)
  | count (tenantId : Uuid)
  | findActive (tenantId : Uuid)
  | findPlanById (id : Uuid)
  | findPlanByCode (code : String)
  | insertStaff (data : StaffData)
  | softDelete (id tenantId : Uuid)
  | commit
  | rollback
  deriving DecidableEq

/-- The result of a statement that succeeds; an `UPDATE` reports the affected rows. -/
abbrev StaffStatement.Result : StaffStatement → Type
  | findByUserAndTenant .. => Option MembershipRole
  | count _ => ℕ
  | findActive _ => Option Subscription
  | findPlanById _ => Option Plan
  | findPlanByCode _ => Option Plan
  | insertStaff _ => Staff
  | softDelete .. => ℕ
  | commit => Unit
  | rollback => Unit

/-- Code of a staff request. -/
abbrev StaffM : Type → Type := SqlM StaffStatement StaffStatement.Result

abbrev StaffM.exec (s : StaffStatement) : StaffM s.Result := execSql s

open StaffM

/-! ## Subscriptions -/

/-- Only `capped` ever enforces a ceiling. -/
inductive StaffEntitlement where
  | unmetered
  | unlimited
  | capped (max : ℤ)
  deriving DecidableEq, Repr

namespace SubscriptionService

/-- No active subscription falls back to the default free tier. -/
def resolveStaffEntitlement (tenantId : Uuid) : StaffM StaffEntitlement := do
  let subscription ← exec (.findActive tenantId)
  let plan ← match subscription with
    | some subscription =>
      if subscription.status ≠ .canceled then exec (.findPlanById subscription.planId)
      else exec (.findPlanByCode defaultPlanCode)
    | none => exec (.findPlanByCode defaultPlanCode)
  match plan with
  | none => return .unmetered
  | some plan => if plan.maxStaff < 0 then return .unlimited else return .capped plan.maxStaff

def planLimitExceeded (max : ℤ) : AppException :=
  ⟨402, "PLAN_LIMIT_EXCEEDED", "Plan allows at most " ++ toString max ++ " staff"⟩

/-- Enforces the plan staff limit. The caller passes its own current usage count. -/
def assertWithinStaffLimit (tenantId : Uuid) (currentStaffCount : ℕ) : StaffM Unit := do
  match ← resolveStaffEntitlement tenantId with
  | .capped max =>
    if (currentStaffCount : ℤ) ≥ max then throwSql (planLimitExceeded max) else return ()
  | _ => return ()

end SubscriptionService

/-! ## Staff -/

structure CreateStaffDto where
  userId : Uuid
  displayName : String
  deriving DecidableEq, Repr

namespace StaffService

/-- A staff profile must map to a member of this tenant. -/
def create (tenantId : Uuid) (dto : CreateStaffDto) : StaffM Staff := do
  match ← exec (.findByUserAndTenant dto.userId tenantId) with
  | none => throwSql (.badRequest "User is not a member of this tenant")
  | some _ =>
    let count ← exec (.count tenantId)
    SubscriptionService.assertWithinStaffLimit tenantId count
    Prog.tryCatch
      (exec (.insertStaff { userId := dto.userId, displayName := dto.displayName, tenantId }))
      fun error =>
        if error = .query uniqueViolation then
          throwSql (.conflict "This user is already a staff member")
        else .raise error

def remove (tenantId id : Uuid) : StaffM Unit := do
  let affected ← exec (.softDelete id tenantId)
  if affected > 0 then return () else throwSql (.notFound "Staff not found")

end StaffService

/-! ## Requests in their transaction -/

/-- A request of a tenant that changes who is staff. -/
inductive StaffRequest where
  | create (tenantId : Uuid) (dto : CreateStaffDto)
  | remove (tenantId id : Uuid)
  deriving DecidableEq, Repr

/-- What the controller returns. -/
inductive StaffResponse where
  | created (staff : Staff)
  | removed
  deriving DecidableEq, Repr

/-- The controller method of a request. -/
def routeStaff : StaffRequest → StaffM StaffResponse
  | .create tenantId dto => .created <$> StaffService.create tenantId dto
  | .remove tenantId id => do
    StaffService.remove tenantId id
    return .removed

/-- A request inside its tenant transaction: commit when the handler returns, roll back when
it throws. -/
def handleStaff (q : StaffRequest) : StaffM StaffResponse := do
  let response ← (routeStaff q).tryCatch fun error => .call .rollback fun _ => .raise error
  exec .commit
  return response

end BookingPlatform
