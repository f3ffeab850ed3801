import BookingPlatform.Common.Types
import BookingPlatform.Library.Program

/-!
# Statements of a Tenant Request

The rows the booking requests read and write, and the statements they send on the
connection of their tenant transaction. A repository method that is one SQL statement is
one statement here.

An `UPDATE` is answered with the rows it wrote. The code sees only their number
(`affected`), or their ids where the statement says `RETURNING id`.
-/

namespace BookingPlatform

open Library

/-! ## Rows -/

/-- What booking reads of a row of `services`. -/
structure Service where
  durationMin : ℤ
  priceAmount : ℤ
  priceCurrency : String
  deriving DecidableEq, Repr

/-- A row of `staff_services`: this staff member can perform this service. -/
structure StaffServiceLink where
  staffId : Uuid
  serviceId : Uuid
  deriving DecidableEq, Repr

/-- What booking reads of a row of `customers`. -/
structure Customer where
  id : Uuid
  deriving DecidableEq, Repr

/-- What booking reads of a row of `tenants`. -/
structure Tenant where
  timezone : String
  deriving DecidableEq, Repr

/-- A row of `bookings`. -/
structure Booking where
  id : Uuid
  tenantId : Uuid
  staffId : Uuid
  serviceId : Uuid
  customerId : Uuid
  startsAt : Instant
  endsAt : Instant
  status : BookingStatus
  priceAmount : ℤ
  priceCurrency : String
  recurrenceId : Option Uuid
  version : ℤ
  deriving DecidableEq, Repr

/-- The values of an `INSERT INTO bookings`; the database adds the id and version 1. -/
structure BookingData where
  tenantId : Uuid
  staffId : Uuid
  serviceId : Uuid
  customerId : Uuid
  startsAt : JsDate
  endsAt : JsDate
  status : BookingStatus
  priceAmount : ℤ
  priceCurrency : String
  recurrenceId : Option Uuid
  deriving DecidableEq, Repr

/-- The payload of a booking event. `startsAt` is the ISO string of an instant, kept as
the instant. -/
structure BookingPayload where
  bookingId : Uuid
  staffId : Uuid
  serviceId : Uuid
  customerId : Uuid
  startsAt : Instant
  status : BookingStatus
  deriving DecidableEq, Repr

structure RecordEventInput where
  aggregateType : String
  aggregateId : Uuid
  eventType : String
  payload : BookingPayload
  deriving DecidableEq, Repr

/-- A row of `outbox_events`. -/
structure OutboxEvent extends RecordEventInput where
  id : Uuid
  tenantId : Uuid
  status : OutboxStatus
  attempts : ℕ
  availableAt : Instant
  createdAt : Instant
  deriving DecidableEq, Repr

/-- A row of `idempotency_keys`. -/
structure IdempotencyKey where
  id : Uuid
  tenantId : Uuid
  key : String
  requestHash : String
  responseBody : Option Json
  deriving DecidableEq, Repr

inductive RecurrenceFreq where
  | daily
  | weekly
  deriving DecidableEq, Repr

/-- The values of an `INSERT INTO recurrences`. -/
structure RecurrenceData where
  tenantId : Uuid
  serviceId : Uuid
  staffId : Uuid
  customerId : Uuid
  freq : RecurrenceFreq
  interval : ℕ
  weekdays : Option (List ℕ)
  startDate : String
  startMinutes : ℕ
  count : Option ℕ
  untilDate : Option String
  timezone : String
  deriving DecidableEq, Repr

/-- A row of `recurrences`. -/
structure Recurrence extends RecurrenceData where
  id : Uuid
  deriving DecidableEq, Repr

/-! ## Statements -/

/-- A statement sent on the connection of a tenant transaction. -/
inductive Statement where
  | findService (tenantId id : Uuid)
  | findLink (tenantId staffId serviceId : Uuid)
  | findCustomer (tenantId id : Uuid)
  | findTenant (id : Uuid)
  | findBooking (tenantId id : Uuid)
  | insertBooking (data : BookingData)
  | updateStatus (tenantId id : Uuid) (version : ℤ) (status : BookingStatus)
  | updateTimes (tenantId id : Uuid) (version : ℤ) (startsAt endsAt : JsDate)
  | cancelSeries (tenantId recurrenceId : Uuid) (now : Instant)
  | insertEvent (tenantId : Uuid) (input : RecordEventInput)
  | insertRecurrence (data : RecurrenceData)
  | insertKey (tenantId : Uuid) (key requestHash : String)
  | findKey (tenantId : Uuid) (key : String)
  | updateKey (id : Uuid) (responseBody : Json)
  | savepoint (i : ℕ)
  | releaseSavepoint (i : ℕ)
  | rollbackToSavepoint (i : ℕ)
  | now
  | commit
  | rollback
  deriving DecidableEq

namespace Statement

/-- The result of a statement that succeeds. -/
abbrev Result : Statement → Type
  | findService .. => Option Service
  | findLink .. => Option StaffServiceLink
  | findCustomer .. => Option Customer
  | findTenant .. => Option Tenant
  | findBooking .. => Option Booking
  | insertBooking .. => Booking
  | updateStatus .. => List Booking
  | updateTimes .. => List Booking
  | cancelSeries .. => List Booking
  | insertEvent .. => OutboxEvent
  | insertRecurrence .. => Recurrence
  | insertKey .. => Option IdempotencyKey
  | findKey .. => Option IdempotencyKey
  | updateKey .. => List IdempotencyKey
  | now => Instant
  | _ => Unit

end Statement

/-- A statement succeeds or fails with an SQLSTATE. -/
def Sql : Signature where
  Stmt := Statement
  Ans s := Except SqlState s.Result

/-- Code that runs on a tenant transaction. -/
abbrev TenantM : Type → Type := Prog Sql Thrown

namespace TenantM

/-- Issue one statement; a failure is thrown. -/
def exec (s : Statement) : TenantM s.Result :=
  .call s fun
    | .ok v => .ret v
    | .error code => .raise (.query code)

/-- `throw new …Exception(…)`. -/
def throwApp {α : Type} (e : AppException) : TenantM α := .raise (.app e)

end TenantM

end BookingPlatform
