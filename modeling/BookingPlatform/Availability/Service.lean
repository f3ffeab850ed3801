import BookingPlatform.Library.Zone
import BookingPlatform.Platform.Schedule

/-!
# Availability

The read model that projects working hours, time off, bookings and capabilities into bookable slots:
on a calendar date in the tenant's timezone, every window of working hours is sliced into slots as
long as the service, and those that overlap a time off or a booking padded by the service's buffers
are dropped.

## Main definitions

- `localMinutesToUtc`, `weekdayInZone`: local times of a date.
- `generateSlots`: the slots of one window.
- `AvailabilityService.compute`: the slots of a query.
-/

namespace BookingPlatform

open Library BaseTenantRepository

/-! ## Local times -/

/-- What availability uses of luxon and of JavaScript's dates: reading a calendar date as a number
of days since 1970-01-01, the zones by name with luxon's reading of local times in them, and the ISO
text of an instant, with the order of two such texts. -/
structure AvailabilityRuntime where
  platform : PlatformRuntime
  isoDay : String → Option ℤ
  zone : String → Zone
  clock : (name : String) → LocalClock (zone name)
  toISOString : Instant → String
  localeCompare : String → String → Bool
  parse_iso : ∀ t, newDate t = some t → platform.booking.parseDate (toISOString t) = some t

section LocalTimes

variable (rt : AvailabilityRuntime) (now : Instant) (zone : String)

/-- The local time at which the calendar day of a local time starts. -/
def startOfLocalDay (l : ℤ) : ℤ := l / dayMs * dayMs

/-- `DateTime.fromISO(date, { zone })`, for the date of a day. -/
def fromISO (day : ℤ) : Instant := (rt.clock zone).resolve now (day * dayMs)

/-- `startOf('day')`. -/
def startOfDay (t : Instant) : Instant :=
  (rt.clock zone).resolve t (startOfLocalDay ((rt.zone zone).toLocal t))

/-- `set({ hour, minute })` keeps the second and the millisecond. -/
def setTime (t : Instant) (minutes : ℕ) : Instant :=
  let l := (rt.zone zone).toLocal t
  (rt.clock zone).resolve t (startOfLocalDay l + minutes * minuteMs + l % minuteMs)

/-- The wall-clock hour and minute are set on the start of the day, and not added to midnight. -/
def localMinutesToUtc (day : ℤ) (minutes : ℕ) : Instant :=
  setTime rt zone (startOfDay rt zone (fromISO rt now zone day)) minutes

/-- The weekday of a date, 0 for Sunday; 1970-01-01 is a Thursday. -/
def weekdayInZone (day : ℤ) : ℕ :=
  (((rt.zone zone).toLocal (fromISO rt now zone day) / dayMs + 4) % 7).toNat

end LocalTimes

/-! ## Slots -/

/-- A half-open interval in epoch milliseconds. -/
structure MsInterval where
  start : ℤ
  stop : ℤ
  deriving DecidableEq, Repr

def overlaps (a b : MsInterval) : Bool := a.start < b.stop ∧ b.start < a.stop

/-- The slots from `start` on, of at most `n` that fit. -/
def slotsFrom (durationMs : ℤ) (blockers : List MsInterval) (stop : ℤ) : ℕ → ℤ → List MsInterval
  | 0, _ => []
  | n + 1, start =>
    if start + durationMs ≤ stop then
      let slot : MsInterval := ⟨start, start + durationMs⟩
      if blockers.any (overlaps slot) then slotsFrom durationMs blockers stop n (start + durationMs)
      else slot :: slotsFrom durationMs blockers stop n (start + durationMs)
    else []

/-- Slices a window into consecutive slots and drops those that overlap a blocker. The loop runs as
often as the duration, which is positive, fits in the window. -/
def generateSlots (window : MsInterval) (durationMs : ℤ) (blockers : List MsInterval) :
    List MsInterval :=
  slotsFrom durationMs blockers window.stop
    ((window.stop - window.start) / durationMs).toNat window.start

/-! ## The service -/

structure AvailabilityQueryDto where
  serviceId : Uuid
  staffId : Option Uuid
  date : String
  deriving DecidableEq, Repr

structure AvailabilitySlot where
  staffId : Uuid
  startsAt : String
  endsAt : String
  deriving DecidableEq, Repr

/-- Active bookings of a staff member that overlap `[start, stop)`. -/
def BookingService.activeForStaffBetween (tenantId staffId : Uuid) (start stop : Instant) :
    PlatformM (List StoredBooking) :=
  findMany .bookings tenantId fun r =>
    r.staffId = staffId ∧ r.status ∈ activeBookingStatuses ∧ r.startsAt < stop ∧ start < r.endsAt

namespace AvailabilityService

variable (rt : AvailabilityRuntime) (now : Instant) (tenantId : Uuid)

/-- A time off, as it is. -/
def offBlocker (t : TimeOff) : MsInterval := ⟨t.startsAt, t.endsAt⟩

/-- A booking, padded by the buffers of the queried service. -/
def bookingBlocker (service : ServiceRow) (b : StoredBooking) : MsInterval :=
  ⟨b.startsAt - service.bufferBeforeMin * minuteMs, b.endsAt + service.bufferAfterMin * minuteMs⟩

/-- Time off and padded bookings, of those that overlap the day. -/
def buildBlockers (staffId : Uuid) (dayStart dayEnd : Instant) (service : ServiceRow) :
    PlatformM (List MsInterval) := do
  let timeOffs ← TimeOffService.overlapping tenantId staffId dayStart dayEnd
  let bookings ← BookingService.activeForStaffBetween tenantId staffId dayStart dayEnd
  return timeOffs.map offBlocker ++ bookings.map (bookingBlocker service)

/-- The window of working hours on a day, in the tenant's timezone. -/
def windowInterval (zone : String) (day : ℤ) (window : WorkingHours) : MsInterval :=
  ⟨localMinutesToUtc rt now zone day window.startMin,
    localMinutesToUtc rt now zone day window.endMin⟩

/-- `new Date(ms).toISOString()` throws for an invalid date. -/
def isoString (ms : ℤ) : Except Thrown String :=
  match newDate ms with
  | some t => .ok (rt.toISOString t)
  | none => .error (.error "Invalid time value")

def toSlot (staffId : Uuid) (slot : MsInterval) : Except Thrown AvailabilitySlot := do
  return ⟨staffId, ← isoString rt slot.start, ← isoString rt slot.stop⟩

/-- The staff members a query asks for: the one it names, or all that can perform the service. -/
def staffIdsFor (query : AvailabilityQueryDto) : PlatformM (List Uuid) :=
  match query.staffId with
  | some staffId => pure [staffId]
  | none => StaffServiceService.capableStaffIds tenantId query.serviceId

/-- Whether a staff member that the query names can perform the service. -/
def isCapable (query : AvailabilityQueryDto) (staffId : Uuid) : PlatformM Bool :=
  if query.staffId.isSome then StaffServiceService.canPerform tenantId staffId query.serviceId
  else pure true

/-- The slots of one staff member; none for one who is inactive, off that weekday, or asked for
without being linked to the service. -/
def staffSlots (query : AvailabilityQueryDto) (service : ServiceRow) (zone : String) (day : ℤ)
    (staffId : Uuid) : PlatformM (List AvailabilitySlot) := do
  let capable ← isCapable tenantId query staffId
  if !capable then return []
  else
    match ← StaffService.findById tenantId staffId with
    | none => return []
    | some staff =>
      if !staff.active then return []
      else
        let hours ← WorkingHoursService.forStaffWeekday tenantId staffId
          (weekdayInZone rt now zone day)
        if hours.length = 0 then return []
        else
          let blockers ← buildBlockers tenantId staffId (localMinutesToUtc rt now zone day 0)
            (localMinutesToUtc rt now zone day 1440) service
          PlatformM.ofExcept <| (hours.flatMap fun window =>
            generateSlots (windowInterval rt now zone day window) (service.durationMin * minuteMs)
              blockers).mapM (toSlot rt staffId)

/-- The slots of the staff members, one after the other. -/
def allSlots (query : AvailabilityQueryDto) (service : ServiceRow) (zone : String) (day : ℤ) :
    List Uuid → PlatformM (List AvailabilitySlot)
  | [] => return []
  | staffId :: staffIds => do
    let slots ← staffSlots rt now tenantId query service zone day staffId
    let rest ← allSlots query service zone day staffIds
    return slots ++ rest

/-- The bookable slots of a query. The clock shows `now` while they are computed. -/
def compute (query : AvailabilityQueryDto) : PlatformM (List AvailabilitySlot) :=
  match rt.isoDay query.date with
  | none => throwSql (.badRequest "date is not a valid calendar date")
  | some day => do
    let service ← ServiceService.getById tenantId query.serviceId
    let tenant ← TenantService.getById tenantId
    let staffIds ← staffIdsFor tenantId query
    let slots ← allSlots rt now tenantId query service tenant.timezone day staffIds
    return slots.mergeSort fun a b => rt.localeCompare a.startsAt b.startsAt

end AvailabilityService

end BookingPlatform
