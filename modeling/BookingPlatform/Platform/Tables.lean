import BookingPlatform.Booking.Database
import BookingPlatform.Library.Store
import BookingPlatform.Reporting.Service
import BookingPlatform.Staff.Service
import BookingPlatform.Subscription.Store

/-!
# The Tables of the Platform

All tables that the tenant-scoped services read and write, with their unique indexes and EXCLUDE
constraints. Every constraint but two compares the tenant: the reference of a subscription and the
receipt of a payment event are unique across tenants.

Foreign keys are left out. A row is only inserted after the rows it refers to have been read, or a
row that refers to them, and no service removes a row of a table that others refer to.

## Main definitions

- `TableName`, `Row`: the tables.
- `platformSchema`: their ids and constraints.
- `rowTenant`, `rowLive`: the tenant of a row, and whether it is soft-deleted.
-/

namespace BookingPlatform

open Library

/-! ## Rows -/

/-- A row of `services`. The request bodies are validated: a duration has at least a minute, and the
buffers are not negative. -/
structure ServiceRow extends Service where
  id : Uuid
  tenantId : Uuid
  name : String
  bufferBeforeMin : ℕ
  bufferAfterMin : ℕ
  active : Bool
  deletedAt : Option Instant
  duration_pos : 0 < durationMin
  deriving DecidableEq

/-- A row of `customers`. -/
structure CustomerRow extends Customer where
  tenantId : Uuid
  name : String
  email : String
  phone : Option String
  deletedAt : Option Instant
  deriving DecidableEq, Repr

/-- A row of `staff_services`. -/
structure StaffServiceRow extends StaffServiceLink where
  id : Uuid
  tenantId : Uuid
  deriving DecidableEq, Repr

/-- A row of `working_hours`: minutes from local midnight, in the tenant's timezone. -/
structure WorkingHours where
  id : Uuid
  tenantId : Uuid
  staffId : Uuid
  weekday : ℕ
  startMin : ℕ
  endMin : ℕ
  deriving DecidableEq, Repr

/-- A row of `time_off`. -/
structure TimeOff where
  id : Uuid
  tenantId : Uuid
  staffId : Uuid
  startsAt : Instant
  endsAt : Instant
  reason : Option String
  deriving DecidableEq, Repr

/-- A row of `webhook_endpoints`. -/
structure WebhookEndpoint where
  id : Uuid
  tenantId : Uuid
  url : String
  secret : String
  active : Bool
  createdAt : Instant
  deletedAt : Option Instant
  deriving DecidableEq, Repr

structure TenantRow extends Tenant where
  id : Uuid
  deriving DecidableEq, Repr

structure MembershipRow extends Membership where
  id : Uuid
  deriving DecidableEq, Repr

structure PlanRow extends Plan where
  name : String
  priceAmount : ℤ
  priceCurrency : String
  deriving DecidableEq, Repr

structure SubscriptionRow extends Subscription where
  createdAt : Instant
  deriving DecidableEq, Repr

structure ReceiptRow extends WebhookReceipt where
  id : Uuid
  deriving DecidableEq, Repr

inductive TableName where
  | tenants
  | memberships
  | plans
  | services
  | customers
  | staff
  | staffServices
  | workingHours
  | timeOff
  | bookings
  | recurrences
  | idempotencyKeys
  | outboxEvents
  | webhookEndpoints
  | subscriptions
  | webhookReceipts
  deriving DecidableEq, Repr

/-- The rows of a table. -/
abbrev Row : TableName → Type
  | .tenants => TenantRow
  | .memberships => MembershipRow
  | .plans => PlanRow
  | .services => ServiceRow
  | .customers => CustomerRow
  | .staff => Staff
  | .staffServices => StaffServiceRow
  | .workingHours => WorkingHours
  | .timeOff => TimeOff
  | .bookings => StoredBooking
  | .recurrences => Recurrence
  | .idempotencyKeys => IdempotencyKey
  | .outboxEvents => OutboxEvent
  | .webhookEndpoints => WebhookEndpoint
  | .subscriptions => SubscriptionRow
  | .webhookReceipts => ReceiptRow

/-- The primary key of a row. -/
def rowId : (τ : TableName) → Row τ → Uuid
  | .tenants, r => r.id
  | .memberships, r => r.id
  | .plans, r => r.id
  | .services, r => r.id
  | .customers, r => r.id
  | .staff, r => r.id
  | .staffServices, r => r.id
  | .workingHours, r => r.id
  | .timeOff, r => r.id
  | .bookings, r => r.id
  | .recurrences, r => r.id
  | .idempotencyKeys, r => r.id
  | .outboxEvents, r => r.id
  | .webhookEndpoints, r => r.id
  | .subscriptions, r => r.id
  | .webhookReceipts, r => r.id

/-- The tenant that a row belongs to; plans and receipts are global. -/
def rowTenant : (τ : TableName) → Row τ → Option Uuid
  | .tenants, r => some r.id
  | .memberships, r => some r.tenantId
  | .services, r => some r.tenantId
  | .customers, r => some r.tenantId
  | .staff, r => some r.tenantId
  | .staffServices, r => some r.tenantId
  | .workingHours, r => some r.tenantId
  | .timeOff, r => some r.tenantId
  | .bookings, r => some r.tenantId
  | .recurrences, r => some r.tenantId
  | .idempotencyKeys, r => some r.tenantId
  | .outboxEvents, r => some r.tenantId
  | .webhookEndpoints, r => some r.tenantId
  | .subscriptions, r => some r.tenantId
  | .plans, _ | .webhookReceipts, _ => none

/-- The row is not soft-deleted. -/
def rowLive : (τ : TableName) → Row τ → Bool
  | .services, r => r.deletedAt.isNone
  | .customers, r => r.deletedAt.isNone
  | .staff, r => !r.deleted
  | .bookings, r => r.deletedAt.isNone
  | .webhookEndpoints, r => r.deletedAt.isNone
  | _, _ => true

/-! ## Constraints -/

/-- The code for a violated unique index whose key both rows have. -/
def unique (sameKey : Bool) : Option SqlState := if sameKey then some uniqueViolation else none

/-- What the unique indexes and EXCLUDE constraints say of a row beside another one. -/
def constraint : (τ : TableName) → Row τ → Row τ → Option SqlState
  | .memberships, r, r' => unique (r.userId = r'.userId ∧ r.tenantId = r'.tenantId)
  | .plans, r, r' => unique (r.code = r'.code)
  | .services, r, r' =>
    unique (r.tenantId = r'.tenantId ∧ r.name = r'.name ∧ r.deletedAt = none ∧ r'.deletedAt = none)
  | .customers, r, r' =>
    unique (r.tenantId = r'.tenantId ∧ r.email = r'.email ∧ r.deletedAt = none ∧
      r'.deletedAt = none)
  | .staff, r, r' =>
    unique (r.tenantId = r'.tenantId ∧ r.userId = r'.userId ∧ r.deleted = false ∧
      r'.deleted = false)
  | .staffServices, r, r' =>
    unique (r.tenantId = r'.tenantId ∧ r.staffId = r'.staffId ∧ r.serviceId = r'.serviceId)
  | .workingHours, r, r' =>
    if r.tenantId = r'.tenantId ∧ r.staffId = r'.staffId ∧ r.weekday = r'.weekday ∧
        max r.startMin r'.startMin < min r.endMin r'.endMin
    then some exclusionViolation else none
  | .bookings, r, r' =>
    if r.Excludes r'.toBooking ∧ r.deletedAt = none ∧ r'.deletedAt = none
    then some exclusionViolation else none
  | .idempotencyKeys, r, r' => unique (r.tenantId = r'.tenantId ∧ r.key = r'.key)
  | .webhookEndpoints, r, r' =>
    unique (r.tenantId = r'.tenantId ∧ r.active ∧ r'.active ∧ r.deletedAt = none ∧
      r'.deletedAt = none)
  | .subscriptions, r, r' =>
    unique (r.providerReference = r'.providerReference ∨
      (r.tenantId = r'.tenantId ∧ r.status ≠ .canceled ∧ r'.status ≠ .canceled))
  | .webhookReceipts, r, r' => unique (r.provider = r'.provider ∧ r.eventId = r'.eventId)
  | .tenants, _, _ | .timeOff, _, _ | .recurrences, _, _ | .outboxEvents, _, _ => none

/-- The tables of the platform; ids are primary keys. -/
@[reducible] def platformSchema : Schema where
  Table := TableName
  Row := Row
  Id := Uuid
  id := rowId
  conflict τ r r' := if rowId τ r = rowId τ r' then some uniqueViolation else constraint τ r r'
  decTable := inferInstance
  decId := inferInstance

/-- A statement on the platform's tables. -/
abbrev Command : Type := Stmt platformSchema

/-- Code of a tenant-scoped service. -/
abbrev PlatformM : Type → Type := SqlM Command Stmt.Result

abbrev PlatformM.exec (s : Command) : PlatformM s.Result := execSql s

end BookingPlatform
