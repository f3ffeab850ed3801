import Mathlib.Data.Int.Notation
import Mathlib.Data.Nat.Notation

/-!
# Shared Types

Identifiers, instants, the status vocabularies, the accounts, the constants and the exception
family that all modules of the platform use.
-/

namespace BookingPlatform

/-- A `uuid` column value. -/
abbrev Uuid : Type := ℕ

/-- Milliseconds since the epoch: a `timestamptz`, or the time value of a valid `Date`. -/
abbrev Instant : Type := ℤ

/-- A JavaScript `Date`: `none` is the `Invalid Date` whose time value is `NaN`. -/
abbrev JsDate : Type := Option Instant

/-- The text of a JSON object. -/
abbrev Json : Type := String

/-! ## Status vocabularies -/

/-- Booking lifecycle states. -/
inductive BookingStatus where
  | pending
  | confirmed
  | completed
  | cancelled
  | noShow
  deriving DecidableEq, Repr

/-- The column value of a booking status. -/
def BookingStatus.value : BookingStatus → String
  | pending => "pending"
  | confirmed => "confirmed"
  | completed => "completed"
  | cancelled => "cancelled"
  | noShow => "no_show"

/-- Statuses that occupy a slot; the EXCLUDE constraint guards only these. -/
def activeBookingStatuses : List BookingStatus := [.pending, .confirmed]

/-- Lifecycle of an outbox event as it moves from written to delivered. -/
inductive OutboxStatus where
  | pending
  | dispatched
  | dead
  deriving DecidableEq, Repr

/-- Roles a user holds within a tenant. -/
inductive MembershipRole where
  | owner
  | staff
  deriving DecidableEq, Repr

/-- Tenant lifecycle. A suspended tenant is blocked from all operations. -/
inductive TenantStatus where
  | active
  | suspended
  deriving DecidableEq, Repr

/-! ## Accounts -/

/-- A row of `users`. -/
structure User where
  id : Uuid
  email : String
  name : String
  passwordHash : Option String
  provider : Option String
  providerAccountId : Option String
  isSuperAdmin : Bool
  deriving DecidableEq, Repr

/-- A row of `memberships`. -/
structure Membership where
  userId : Uuid
  tenantId : Uuid
  role : MembershipRole
  deriving DecidableEq, Repr

/-! ## Constants -/

def secondMs : ℤ := 1000

def minuteMs : ℤ := 60 * secondMs

def dayMs : ℤ := 24 * (60 * minuteMs)

def reportMaxRangeMs : ℤ := 366 * dayMs

def outboxBatchSize : ℕ := 20

def outboxMaxAttempts : ℕ := 5

def outboxBackoffBaseMs : ℤ := 30 * secondMs

/-! ## Exceptions -/

/-- An exception that carries its HTTP status and error code. -/
structure AppException where
  status : ℕ
  errorCode : String
  message : String
  deriving DecidableEq, Repr

namespace AppException

def badRequest (message : String) : AppException := ⟨400, "BAD_REQUEST", message⟩

def unauthorized (message : String) : AppException := ⟨401, "UNAUTHORIZED", message⟩

def forbidden (message : String) : AppException := ⟨403, "FORBIDDEN", message⟩

def notFound (message : String) : AppException := ⟨404, "NOT_FOUND", message⟩

def conflict (message : String) : AppException := ⟨409, "CONFLICT", message⟩

def gone (message : String) : AppException := ⟨410, "GONE", message⟩

def preconditionFailed (message : String) : AppException :=
  ⟨412, "PRECONDITION_FAILED", message⟩

def unprocessableState (message : String) : AppException :=
  ⟨422, "INVALID_STATE_TRANSITION", message⟩

def validation (message : String) : AppException := ⟨422, "VALIDATION_ERROR", message⟩

end AppException

/-- The SQLSTATE of a failed statement. -/
abbrev SqlState : Type := String

/-- A violated EXCLUDE constraint. -/
def exclusionViolation : SqlState := "23P01"

/-- A violated unique index. -/
def uniqueViolation : SqlState := "23505"

/-- What the code can throw: one of its own exceptions, the driver's error for a failed
statement, or a plain `Error`. -/
inductive Thrown where
  | app (e : AppException)
  | query (code : SqlState)
  | error (message : String)
  deriving DecidableEq, Repr

end BookingPlatform
