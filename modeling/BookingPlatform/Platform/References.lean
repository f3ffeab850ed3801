import BookingPlatform.Library.References
import BookingPlatform.Platform.Tables

/-!
# What the Rows of a Tenant Refer to

The foreign keys of the tables compare ids and not tenants. What a row refers to in its own tenant
is written out here: a staff profile refers to a member, a capability to a profile and a service,
and so on.

## Main definitions

- `rowProvides`, `rowNeeds`: what others can refer to in a row, and what the row refers to.
- `references`: the dependencies of the platform's tables.
-/

namespace BookingPlatform

open Library

/-- What a row can refer to: a row of a tenant, or a member of the tenant. -/
inductive Referent where
  | row (τ : TableName) (id tenantId : Uuid)
  | member (userId tenantId : Uuid)
  deriving DecidableEq

/-- What others refer to in a row. -/
def rowProvides : (τ : TableName) → Row τ → List Referent
  | .memberships, r => [.member r.userId r.tenantId]
  | .services, r => [.row .services r.id r.tenantId]
  | .customers, r => [.row .customers r.id r.tenantId]
  | .staff, r => [.row .staff r.id r.tenantId]
  | .recurrences, r => [.row .recurrences r.id r.tenantId]
  | _, _ => []

/-- What an appointment is made of. -/
def appointment (tenantId staffId serviceId customerId : Uuid) : List Referent :=
  [.row .staff staffId tenantId, .row .services serviceId tenantId,
    .row .customers customerId tenantId]

/-- What a row refers to, which is to be in its own tenant. -/
def rowNeeds : (τ : TableName) → Row τ → List Referent
  | .staff, r => [.member r.userId r.tenantId]
  | .staffServices, r => [.row .staff r.staffId r.tenantId, .row .services r.serviceId r.tenantId]
  | .workingHours, r => [.row .staff r.staffId r.tenantId]
  | .timeOff, r => [.row .staff r.staffId r.tenantId]
  | .recurrences, r => appointment r.tenantId r.staffId r.serviceId r.customerId
  | .bookings, r =>
    appointment r.tenantId r.staffId r.serviceId r.customerId ++
      r.recurrenceId.toList.map fun id => .row .recurrences id r.tenantId
  | _, _ => []

/-- The payment reference of a subscription encodes its own tenant. -/
def rowSound (uuid : UuidText) : (τ : TableName) → Row τ → Prop
  | .subscriptions, r => tenantFromReference uuid r.providerReference = some (uuid.text r.tenantId)
  | _, _ => True

/-- The tables whose rows are deleted; other rows are at most marked as deleted. -/
def deletesRows : TableName → Bool
  | .staffServices | .workingHours | .timeOff => true
  | _ => false

/-- The dependencies of the platform's tables. -/
@[reducible] def references (uuid : UuidText) : Dependencies platformSchema where
  Key := Referent
  provides := rowProvides
  needs := rowNeeds
  sound := rowSound uuid
  lasting τ := deletesRows τ = false
  lasting_of_provides := by
    intro τ r k hk
    cases τ <;> first | rfl | exact absurd hk List.not_mem_nil

end BookingPlatform
