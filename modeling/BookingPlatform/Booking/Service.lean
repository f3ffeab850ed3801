import BookingPlatform.Booking.StateMachine
import BookingPlatform.Booking.Statements

/-!
# Booking, Recurrence and Idempotency Services

The services behind `POST /bookings`, the booking transitions and `/recurrences`, as
programs over the statements of the request's tenant transaction. The ambient tenant id
is the argument `tenantId`.

## Main definitions

- `BookingService`: create, transitions, reschedule, series cancellation.
- `IdempotencyService.run`: claim-first deduplication of a create.
- `RecurrenceService.create`: a series under either conflict policy.
- `handle`: a request inside its transaction, as the middleware and the transaction
  interceptor run it.
-/

namespace BookingPlatform

open Library TenantM

/-! ## Requests -/

structure CreateBookingDto where
  staffId : Uuid
  serviceId : Uuid
  customerId : Uuid
  startsAt : String
  deriving DecidableEq, Repr

structure RescheduleBookingDto where
  version : Option ℤ
  startsAt : String
  deriving DecidableEq, Repr

inductive ConflictPolicy where
  | skipConflicts
  | allOrNothing
  deriving DecidableEq, Repr

structure CreateRecurrenceDto where
  staffId : Uuid
  serviceId : Uuid
  customerId : Uuid
  freq : RecurrenceFreq
  interval : ℕ
  weekdays : Option (List ℕ)
  startDate : String
  startMinutes : ℕ
  count : Option ℕ
  untilDate : Option String
  conflictPolicy : Option ConflictPolicy
  deriving DecidableEq, Repr

/-- The argument of `expandRecurrence`. -/
structure RecurrenceRule where
  freq : RecurrenceFreq
  interval : ℕ
  weekdays : Option (List ℕ)
  startDate : String
  startMinutes : ℕ
  count : Option ℕ
  untilDate : Option String
  timezone : String
  deriving DecidableEq, Repr

structure OccurrenceSpec where
  staffId : Uuid
  serviceId : Uuid
  customerId : Uuid
  startsAt : JsDate
  endsAt : JsDate
  priceAmount : ℤ
  priceCurrency : String
  deriving DecidableEq, Repr

/-- The pure functions the services call: `Date.parse`, the SHA-256 of a request body,
class-transformer's `instanceToPlain` followed by `JSON.stringify`, and the expansion of
a recurrence rule. -/
structure Runtime where
  parseDate : String → JsDate
  hashBody : CreateBookingDto → String
  instanceToPlain : Booking → Json
  expandRecurrence : RecurrenceRule → List Instant

/-- `new Date(ms)`: time values beyond 8.64e15 ms are invalid. -/
def newDate (ms : ℤ) : JsDate :=
  if ms.natAbs ≤ 8640000000000000 then some ms else none

/-- `new Date(date.getTime() + ms)`. -/
def addMs (date : JsDate) (ms : ℤ) : JsDate :=
  date.bind fun t => newDate (t + ms)

/-! ## Lookups in the other modules -/

namespace TenantM

def getService (tenantId id : Uuid) : TenantM Service := do
  match ← exec (.findService tenantId id) with
  | some service => return service
  | none => throwApp (.notFound "Service not found")

def canPerform (tenantId staffId serviceId : Uuid) : TenantM Bool := do
  return (← exec (.findLink tenantId staffId serviceId)).isSome

def getCustomer (tenantId id : Uuid) : TenantM Customer := do
  match ← exec (.findCustomer tenantId id) with
  | some customer => return customer
  | none => throwApp (.notFound "Customer not found")

def getTenant (id : Uuid) : TenantM Tenant := do
  match ← exec (.findTenant id) with
  | some tenant => return tenant
  | none => throwApp (.notFound "Tenant not found")

end TenantM

/-! ## Booking repository -/

namespace BookingRepository

/-- The EXCLUDE constraint (23P01) means the slot is taken. -/
def mapSlotConflict : Thrown → Thrown
  | .query code =>
    if code = exclusionViolation then
      .app ⟨409, "BOOKING_SLOT_TAKEN", "This time slot is no longer available"⟩
    else .query code
  | error => error

/-- Inserts a booking. -/
def create (data : BookingData) : TenantM Booking :=
  (exec (.insertBooking data)).tryCatch fun error => .raise (mapSlotConflict error)

def findById (tenantId id : Uuid) : TenantM (Option Booking) :=
  exec (.findBooking tenantId id)

/-- Cancels every future still-active occurrence of a series; returns their ids. -/
def cancelFutureSeries (tenantId recurrenceId : Uuid) (now : Instant) : TenantM (List Uuid) := do
  let rows ← exec (.cancelSeries tenantId recurrenceId now)
  return rows.map (·.id)

/-- Optimistic status change: succeeds only if the version still matches. -/
def applyStatus (tenantId id : Uuid) (version : ℤ) (status : BookingStatus) : TenantM Bool := do
  let affected ← exec (.updateStatus tenantId id version status)
  return affected.length > 0

/-- Optimistic reschedule; the EXCLUDE constraint is checked for the new range. -/
def applyReschedule (tenantId id : Uuid) (version : ℤ) (startsAt endsAt : JsDate) :
    TenantM Bool :=
  Prog.tryCatch
    (do
      let affected ← exec (.updateTimes tenantId id version startsAt endsAt)
      return affected.length > 0)
    fun error => .raise (mapSlotConflict error)

end BookingRepository

/-! ## Booking service -/

namespace BookingService

def payload (booking : Booking) : BookingPayload where
  bookingId := booking.id
  staffId := booking.staffId
  serviceId := booking.serviceId
  customerId := booking.customerId
  startsAt := booking.startsAt
  status := booking.status

/-- Records a booking event on the current transaction. -/
def emit (tenantId : Uuid) (booking : Booking) (eventType : String) : TenantM OutboxEvent :=
  exec (.insertEvent tenantId
    { aggregateType := "booking", aggregateId := booking.id, eventType,
      payload := payload booking })

def getOrThrow (tenantId id : Uuid) : TenantM Booking := do
  match ← BookingRepository.findById tenantId id with
  | some booking => return booking
  | none => throwApp (.notFound "Booking not found")

def staleError : AppException :=
  ⟨409, "STALE_BOOKING", "Booking was modified concurrently; reload and retry"⟩

def doCreate (rt : Runtime) (tenantId : Uuid) (dto : CreateBookingDto) : TenantM Booking := do
  let service ← getService tenantId dto.serviceId
  if !(← canPerform tenantId dto.staffId dto.serviceId) then
    throwApp (.badRequest "This staff member cannot perform the selected service")
  else
    let _ ← getCustomer tenantId dto.customerId
    let startsAt := rt.parseDate dto.startsAt
    let booking ← BookingRepository.create
      { tenantId, staffId := dto.staffId, serviceId := dto.serviceId,
        customerId := dto.customerId, startsAt,
        endsAt := addMs startsAt (service.durationMin * minuteMs), status := .pending,
        priceAmount := service.priceAmount, priceCurrency := service.priceCurrency,
        recurrenceId := none }
    let _ ← emit tenantId booking "booking.created"
    return booking

/-- Inserts one occurrence of a series and emits its event. -/
def createOccurrence (tenantId : Uuid) (spec : OccurrenceSpec) (recurrenceId : Uuid) :
    TenantM Booking := do
  let booking ← BookingRepository.create
    { tenantId, staffId := spec.staffId, serviceId := spec.serviceId,
      customerId := spec.customerId, startsAt := spec.startsAt, endsAt := spec.endsAt,
      status := .pending, priceAmount := spec.priceAmount,
      priceCurrency := spec.priceCurrency, recurrenceId := some recurrenceId }
  let _ ← emit tenantId booking "booking.created"
  return booking

def isSlotTaken : Thrown → Bool
  | .app e => e.errorCode = "BOOKING_SLOT_TAKEN"
  | _ => false

/-- Emits a cancelled event for each id. -/
def emitCancelled (tenantId : Uuid) : List Uuid → TenantM Unit
  | [] => return ()
  | id :: ids => do
    let booking ← getOrThrow tenantId id
    let _ ← emit tenantId booking "booking.cancelled"
    emitCancelled tenantId ids

/-- Cancels future occurrences of a series and emits a cancelled event for each. -/
def cancelSeries (tenantId recurrenceId : Uuid) : TenantM ℕ := do
  let now ← exec .now
  let ids ← BookingRepository.cancelFutureSeries tenantId recurrenceId now
  emitCancelled tenantId ids
  return ids.length

def transition (tenantId id : Uuid) (version : ℤ) (target : BookingStatus) : TenantM Booking := do
  let booking ← getOrThrow tenantId id
  match assertCanTransition booking.status target with
  | .error e => throwApp e
  | .ok () =>
    let applied ← BookingRepository.applyStatus tenantId id version target
    if !applied then
      throwApp staleError
    else
      let updated ← getOrThrow tenantId id
      let _ ← emit tenantId updated ("booking." ++ target.value)
      return updated

def confirm (tenantId id : Uuid) (version : ℤ) : TenantM Booking :=
  transition tenantId id version .confirmed

def complete (tenantId id : Uuid) (version : ℤ) : TenantM Booking :=
  transition tenantId id version .completed

def cancel (tenantId id : Uuid) (version : ℤ) : TenantM Booking :=
  transition tenantId id version .cancelled

def noShow (tenantId id : Uuid) (version : ℤ) : TenantM Booking :=
  transition tenantId id version .noShow

/-- `ifMatchVersion` takes precedence and maps a mismatch to 412; otherwise the body
version maps a mismatch to 409. -/
def reschedule (rt : Runtime) (tenantId id : Uuid) (dto : RescheduleBookingDto)
    (ifMatchVersion : Option ℤ) : TenantM Booking :=
  match ifMatchVersion <|> dto.version with
  | none => throwApp (.badRequest "A version is required, via the If-Match header or the body")
  | some version => do
    let booking ← getOrThrow tenantId id
    if booking.status ∉ activeBookingStatuses then
      throwApp (.unprocessableState "Only active bookings can be rescheduled")
    else
      let service ← getService tenantId booking.serviceId
      let startsAt := rt.parseDate dto.startsAt
      let endsAt := addMs startsAt (service.durationMin * minuteMs)
      let applied ← BookingRepository.applyReschedule tenantId id version startsAt endsAt
      if !applied then
        throwApp (if ifMatchVersion.isSome then
          .preconditionFailed "Booking version does not match If-Match" else staleError)
      else
        let updated ← getOrThrow tenantId id
        let _ ← emit tenantId updated "booking.rescheduled"
        return updated

end BookingService

/-! ## Idempotency service -/

/-- What a deduplicated create answers: the booking it made, or the stored response of
the attempt that made it. -/
inductive CreateResult where
  | fresh (booking : Booking)
  | replayed (body : Json)
  deriving DecidableEq, Repr

namespace IdempotencyService

def keyReused : AppException :=
  ⟨422, "IDEMPOTENCY_KEY_REUSED", "Idempotency-Key was already used with a different request"⟩

def replay (tenantId : Uuid) (key requestHash : String) : TenantM CreateResult := do
  match ← exec (.findKey tenantId key) with
  | none => throwApp keyReused
  | some existing =>
    if existing.requestHash ≠ requestHash then
      throwApp keyReused
    else
      match existing.responseBody with
      | none => throwApp (.conflict "A request with this Idempotency-Key is still in progress")
      | some body => return .replayed body

/-- An absent or empty key runs the operation without deduplication. -/
def run (rt : Runtime) (tenantId : Uuid) (key : Option String) (requestBody : CreateBookingDto)
    (operation : TenantM Booking) : TenantM CreateResult :=
  match key.filter (· ≠ "") with
  | none => do
    let result ← operation
    return .fresh result
  | some key => do
    let requestHash := rt.hashBody requestBody
    match ← exec (.insertKey tenantId key requestHash) with
    | none => replay tenantId key requestHash
    | some claimed =>
      let result ← operation
      let _ ← exec (.updateKey claimed.id (rt.instanceToPlain result))
      return .fresh result

end IdempotencyService

/-- Creates a booking, deduplicated by an optional Idempotency-Key. -/
def BookingService.create (rt : Runtime) (tenantId : Uuid) (dto : CreateBookingDto)
    (idempotencyKey : Option String) : TenantM CreateResult :=
  IdempotencyService.run rt tenantId idempotencyKey dto (BookingService.doCreate rt tenantId dto)

/-! ## Recurrence service -/

structure RecurrenceResult where
  recurrenceId : Uuid
  created : List Instant
  skipped : List Instant
  deriving DecidableEq, Repr

namespace RecurrenceService

/-- Any conflict aborts the whole series. -/
def allOrNothing (tenantId : Uuid) (spec : Instant → OccurrenceSpec) (recurrenceId : Uuid) :
    (occurrences created : List Instant) → TenantM (List Instant × List Instant)
  | [], created => return (created, [])
  | startsAt :: occurrences, created => do
    let _ ← BookingService.createOccurrence tenantId (spec startsAt) recurrenceId
    allOrNothing tenantId spec recurrenceId occurrences (created ++ [startsAt])

/-- Creates one occurrence inside savepoint `i`; a slot conflict rolls back to it. -/
def tryOccurrence (tenantId : Uuid) (spec : OccurrenceSpec) (recurrenceId : Uuid) (i : ℕ) :
    TenantM Bool := do
  exec (.savepoint i)
  Prog.tryCatch
    (do
      let _ ← BookingService.createOccurrence tenantId spec recurrenceId
      exec (.releaseSavepoint i)
      return true)
    fun error => do
      exec (.rollbackToSavepoint i)
      if !BookingService.isSlotTaken error then
        .raise error
      else
        return false

/-- Each occurrence runs inside its own savepoint, so a slot conflict skips it without
poisoning the request's transaction. -/
def skipConflicts (tenantId : Uuid) (spec : Instant → OccurrenceSpec) (recurrenceId : Uuid) :
    (i : ℕ) → (occurrences created skipped : List Instant) →
    TenantM (List Instant × List Instant)
  | _, [], created, skipped => return (created, skipped)
  | i, startsAt :: occurrences, created, skipped => do
    if ← tryOccurrence tenantId (spec startsAt) recurrenceId i then
      skipConflicts tenantId spec recurrenceId (i + 1) occurrences (created ++ [startsAt]) skipped
    else
      skipConflicts tenantId spec recurrenceId (i + 1) occurrences created (skipped ++ [startsAt])

def create (rt : Runtime) (tenantId : Uuid) (dto : CreateRecurrenceDto) :
    TenantM RecurrenceResult := do
  if dto.freq = .daily ∧ (dto.weekdays.getD []).length > 0 then
    throwApp (.badRequest "weekdays only applies to a weekly recurrence")
  else
    let service ← getService tenantId dto.serviceId
    if !(← canPerform tenantId dto.staffId dto.serviceId) then
      throwApp (.badRequest "This staff member cannot perform the selected service")
    else
      let _ ← getCustomer tenantId dto.customerId
      let tenant ← getTenant tenantId
      let occurrences := rt.expandRecurrence
        { freq := dto.freq, interval := dto.interval, weekdays := dto.weekdays,
          startDate := dto.startDate, startMinutes := dto.startMinutes, count := dto.count,
          untilDate := dto.untilDate, timezone := tenant.timezone }
      if occurrences.length = 0 then
        throwApp (.badRequest "The recurrence rule produces no occurrences")
      else
        let recurrence ← exec (.insertRecurrence
          { tenantId, serviceId := dto.serviceId, staffId := dto.staffId,
            customerId := dto.customerId, freq := dto.freq, interval := dto.interval,
            weekdays := dto.weekdays, startDate := dto.startDate,
            startMinutes := dto.startMinutes, count := dto.count,
            untilDate := dto.untilDate, timezone := tenant.timezone })
        let spec : Instant → OccurrenceSpec := fun startsAt =>
          { staffId := dto.staffId, serviceId := dto.serviceId, customerId := dto.customerId,
            startsAt := some startsAt, endsAt :=
              newDate (startsAt + service.durationMin * minuteMs),
            priceAmount := service.priceAmount, priceCurrency := service.priceCurrency }
        let outcome ← match dto.conflictPolicy.getD .skipConflicts with
          | .allOrNothing => allOrNothing tenantId spec recurrence.id occurrences []
          | .skipConflicts => skipConflicts tenantId spec recurrence.id 0 occurrences [] []
        return ⟨recurrence.id, outcome.1, outcome.2⟩

def cancelSeries (tenantId recurrenceId : Uuid) : TenantM ℕ :=
  BookingService.cancelSeries tenantId recurrenceId

end RecurrenceService

/-! ## Requests in their transaction -/

/-- A call of one of the booking endpoints. -/
inductive Operation where
  | create (dto : CreateBookingDto) (idempotencyKey : Option String)
  | createRecurrence (dto : CreateRecurrenceDto)
  | confirm (id : Uuid) (version : ℤ)
  | complete (id : Uuid) (version : ℤ)
  | cancel (id : Uuid) (version : ℤ)
  | noShow (id : Uuid) (version : ℤ)
  | reschedule (id : Uuid) (dto : RescheduleBookingDto) (ifMatchVersion : Option ℤ)
  | cancelSeries (recurrenceId : Uuid)
  deriving DecidableEq, Repr

/-- A request of a tenant. -/
structure Request where
  tenantId : Uuid
  operation : Operation
  deriving DecidableEq, Repr

inductive Response where
  | created (result : CreateResult)
  | booking (booking : Booking)
  | recurrence (result : RecurrenceResult)
  | seriesCancelled (count : ℕ)
  deriving DecidableEq, Repr

/-- The controller method of a request. -/
def route (rt : Runtime) (q : Request) : TenantM Response :=
  match q.operation with
  | .create dto key => .created <$> BookingService.create rt q.tenantId dto key
  | .createRecurrence dto => .recurrence <$> RecurrenceService.create rt q.tenantId dto
  | .confirm id version => .booking <$> BookingService.confirm q.tenantId id version
  | .complete id version => .booking <$> BookingService.complete q.tenantId id version
  | .cancel id version => .booking <$> BookingService.cancel q.tenantId id version
  | .noShow id version => .booking <$> BookingService.noShow q.tenantId id version
  | .reschedule id dto ifMatch =>
    .booking <$> BookingService.reschedule rt q.tenantId id dto ifMatch
  | .cancelSeries id => .seriesCancelled <$> RecurrenceService.cancelSeries q.tenantId id

/-- The handler commits when the body returns and rolls back when it throws. -/
def inTransaction {α : Type} (body : TenantM α) : TenantM α := do
  let value ← body.tryCatch fun error => .call .rollback fun _ => .raise error
  exec .commit
  return value

/-- A request inside its tenant transaction. -/
def handle (rt : Runtime) (q : Request) : TenantM Response :=
  inTransaction (route rt q)

end BookingPlatform
