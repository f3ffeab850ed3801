import BookingPlatform.Booking.Statements
import BookingPlatform.Library.Grouping
import Mathlib.Algebra.Ring.Int.Defs
import Mathlib.Algebra.Ring.Nat
import Mathlib.Data.Nat.Cast.Basic

/-!
# Reports

The two reports of a tenant: how many bookings there are in each bucket, by status, and what revenue
was earned in each bucket, by currency. Each is one grouped query over the tenant's bookings between
two local dates.

## Main definitions

- `ReportingRepository.bookings`, `ReportingRepository.revenue`: the two queries.
- `ReportingService.bookings`, `ReportingService.revenue`: the reports of a query.
-/

namespace BookingPlatform

open Library

/-! ## Rows and requests -/

/-- A row of `bookings`; one that is soft-deleted has a `deletedAt`. -/
structure StoredBooking extends Booking where
  deletedAt : Option Instant
  deriving DecidableEq, Repr

inductive ReportGroupBy where
  | day
  | week
  | month
  | service
  | staff
  deriving DecidableEq, Repr

structure ReportQueryDto where
  fromDate : String
  toDate : String
  groupBy : ReportGroupBy
  staffId : Option Uuid
  serviceId : Option Uuid
  deriving DecidableEq, Repr

/-- The dates are local calendar dates, interpreted in the tenant timezone. -/
structure ReportFilters where
  fromDate : String
  toDate : String
  timezone : String
  staffId : Option Uuid
  serviceId : Option Uuid
  deriving DecidableEq, Repr

structure BookingBucketRow where
  bucket : String
  total : ℕ
  pending : ℕ
  confirmed : ℕ
  completed : ℕ
  cancelled : ℕ
  noShow : ℕ
  deriving DecidableEq, Repr

structure RevenueBucketRow where
  bucket : String
  amount : ℤ
  currency : Option String
  deriving DecidableEq, Repr

/-- A `timestamp` without time zone: milliseconds since the local midnight of 1970-01-01. -/
abbrev LocalTime : Type := ℤ

/-- What the reports use of JavaScript's and the database's text conversions, time zones and order
of texts: `Date.parse`, `::timestamp` (which can fail), `timestamp AT TIME ZONE`, `timestamptz AT
TIME ZONE`, `uuid::text` and `ORDER BY`. -/
structure ReportingRuntime where
  parseDate : String → JsDate
  castTimestamp : String → Except SqlState LocalTime
  toInstant : String → LocalTime → Instant
  toLocal : String → Instant → LocalTime
  uuidText : Uuid → String
  collate : String → String → Bool

/-! ## Buckets -/

/-- The day of a local time, counted from 1970-01-01. -/
def LocalTime.day (t : LocalTime) : ℤ := t / dayMs

/-- Year, month and day of month of a day, in the proleptic Gregorian calendar: years are counted
from March in cycles of 400. -/
def civilOfDay (day : ℤ) : ℤ × ℤ × ℤ :=
  let z := day + 719468
  let era := z / 146097
  let doe := z - era * 146097
  let yoe := (doe - doe / 1460 + doe / 36524 - doe / 146096) / 365
  let doy := doe - (365 * yoe + yoe / 4 - yoe / 100)
  let mp := (5 * doy + 2) / 153
  let d := doy - (153 * mp + 2) / 5 + 1
  let m := if mp < 10 then mp + 3 else mp - 9
  (yoe + era * 400 + (if m ≤ 2 then 1 else 0), m, d)

/-- The digits of a number, with leading zeros up to a width. -/
def padded (width : ℕ) (n : ℤ) : String :=
  let digits := toString n.toNat
  String.ofList (List.replicate (width - digits.length) '0') ++ digits

/-- `to_char(…, 'YYYY-MM-DD')`; years before year 1 count backwards from 1 BC. -/
def toChar (day : ℤ) : String :=
  let (y, m, d) := civilOfDay day
  padded 4 (if 0 < y then y else 1 - y) ++ "-" ++ padded 2 m ++ "-" ++ padded 2 d

/-- `date_trunc('week', …)`: the Monday of the week; 1970-01-01 is a Thursday. -/
def mondayOf (day : ℤ) : ℤ := day - (day + 3) % 7

/-- `date_trunc('month', …)`. -/
def firstOfMonth (day : ℤ) : ℤ := day - ((civilOfDay day).2.2 - 1)

/-- The bucket of a booking. -/
def bucketExpr (rt : ReportingRuntime) (timezone : String) (b : StoredBooking) :
    ReportGroupBy → String
  | .service => rt.uuidText b.serviceId
  | .staff => rt.uuidText b.staffId
  | .day => toChar (rt.toLocal timezone b.startsAt).day
  | .week => toChar (mondayOf (rt.toLocal timezone b.startsAt).day)
  | .month => toChar (firstOfMonth (rt.toLocal timezone b.startsAt).day)

/-! ## Queries -/

/-- `Number(…)` of an integer: exact up to 2^53, beyond it rounded to 53 significant bits, ties to
even. -/
def toNumber (n : ℤ) : ℤ :=
  if n.natAbs ≤ 2 ^ 53 then n
  else
    let e := Nat.log2 n.natAbs - 52
    let q := n.natAbs / 2 ^ e
    let r := n.natAbs % 2 ^ e
    let up := if 2 * r > 2 ^ e ∨ (2 * r = 2 ^ e ∧ q % 2 = 1) then 1 else 0
    n.sign * ((q + up) * 2 ^ e : ℕ)

/-- Statuses whose price counts as earned revenue. -/
def revenueStatuses : List BookingStatus := [.completed]

namespace ReportingRepository

variable (rt : ReportingRuntime) (rows : List StoredBooking) (tenantId : Uuid)

/-- The live bookings of the tenant that start between two instants and pass the filters. -/
def baseQuery (filters : ReportFilters) (start stop : Instant) : List StoredBooking :=
  rows.filter fun b => b.tenantId = tenantId ∧ b.deletedAt = none ∧ start ≤ b.startsAt ∧
  b.startsAt < stop ∧
    (∀ id ∈ filters.staffId, b.staffId = id) ∧ ∀ id ∈ filters.serviceId, b.serviceId = id

/-- The range is cast to local times, and interpreted in the tenant timezone. -/
def range (filters : ReportFilters) : Except Thrown (Instant × Instant) :=
  match rt.castTimestamp filters.fromDate, rt.castTimestamp filters.toDate with
  | .ok start, .ok stop =>
    .ok (rt.toInstant filters.timezone start, rt.toInstant filters.timezone stop)
  | .error code, _ => .error (.query code)
  | .ok _, .error code => .error (.query code)

/-- The row of a bucket, with a count for each status. A table has far fewer than 2^53 rows, so that
the counts are exact numbers. -/
def bookingBucket (bucket : String) (group : List StoredBooking) : BookingBucketRow where
  bucket
  total := group.length
  pending := group.countP (·.status = .pending)
  confirmed := group.countP (·.status = .confirmed)
  completed := group.countP (·.status = .completed)
  cancelled := group.countP (·.status = .cancelled)
  noShow := group.countP (·.status = .noShow)

/-- The row of a bucket and a currency. -/
def revenueBucket (key : String × String) (group : List StoredBooking) : RevenueBucketRow where
  bucket := key.1
  amount := toNumber (group.map (·.priceAmount)).sum
  currency := some key.2

/-- Bookings grouped by the chosen dimension, with a breakdown by status. -/
def bookings (groupBy : ReportGroupBy) (filters : ReportFilters) :
    Except Thrown (List BookingBucketRow) := do
  let (start, stop) ← range rt filters
  return selectGroups rt.collate (fun b => bucketExpr rt filters.timezone b groupBy) bookingBucket
    (baseQuery rows tenantId filters start stop)

/-- `ORDER BY bucket, currency`. -/
def collatePair (key key' : String × String) : Bool :=
  if key.1 = key'.1 then rt.collate key.2 key'.2 else rt.collate key.1 key'.1

/-- Summed prices for revenue-counted statuses, grouped by currency. -/
def revenue (groupBy : ReportGroupBy) (filters : ReportFilters) :
    Except Thrown (List RevenueBucketRow) := do
  let (start, stop) ← range rt filters
  return selectGroups (collatePair rt)
    (fun b => (bucketExpr rt filters.timezone b groupBy, b.priceCurrency)) revenueBucket
    ((baseQuery rows tenantId filters start stop).filter (·.status ∈ revenueStatuses))

end ReportingRepository

namespace ReportingService

variable (rt : ReportingRuntime)

/-- `to.getTime() <= from.getTime()`; false if a date is invalid. -/
def inverted (query : ReportQueryDto) : Bool :=
  match rt.parseDate query.fromDate, rt.parseDate query.toDate with
  | some start, some stop => stop ≤ start
  | _, _ => false

/-- The range exceeds one year; false if a date is invalid. -/
def oversized (query : ReportQueryDto) : Bool :=
  match rt.parseDate query.fromDate, rt.parseDate query.toDate with
  | some start, some stop => reportMaxRangeMs < stop - start
  | _, _ => false

/-- Validates the span of a query and runs it with the timezone of the tenant. -/
def run {α : Type} (tenant : Option Tenant) (query : ReportQueryDto)
    (exec : ReportFilters → Except Thrown α) : Except Thrown α := do
  if inverted rt query then
    throw (.app (.validation "`to` must be after `from`"))
  if oversized rt query then
    throw (.app (.validation "Report range must not exceed one year"))
  match tenant with
  | none => throw (.app (.notFound "Tenant not found"))
  | some tenant =>
    exec ⟨query.fromDate, query.toDate, tenant.timezone, query.staffId, query.serviceId⟩

variable (tenant : Option Tenant) (rows : List StoredBooking) (tenantId : Uuid)
  (query : ReportQueryDto)

/-- The bookings report of a tenant, whose row is `tenant`. -/
def bookings : Except Thrown (List BookingBucketRow) :=
  run rt tenant query (ReportingRepository.bookings rt rows tenantId query.groupBy)

/-- The revenue report of a tenant. -/
def revenue : Except Thrown (List RevenueBucketRow) :=
  run rt tenant query (ReportingRepository.revenue rt rows tenantId query.groupBy)

end ReportingService

end BookingPlatform
