import BookingPlatform.Platform.Directory

/-!
# Capabilities and Schedules of Staff

Which services a staff member can perform, when they work and when they are away. A row is made only
after the staff member, and the service, have been found in the tenant.

## Main definitions

- `StaffServiceService`, `WorkingHoursService`, `TimeOffService`: the services of the three tables.
-/

namespace BookingPlatform

open Library BaseTenantRepository

/-! ## Capabilities -/

namespace StaffServiceService

variable (tenantId : Uuid)

def link (staffId serviceId : Uuid) : PlatformM StaffServiceRow := do
  let _ ← StaffService.getById tenantId staffId
  let _ ← ServiceService.getById tenantId serviceId
  PlatformM.mapCode uniqueViolation (.conflict "Service already linked to this staff") <|
    persist .staffServices tenantId fun tenantId id _ => .ok { id, tenantId, staffId, serviceId }

def unlink (staffId serviceId : Uuid) : PlatformM Unit := do
  let affected ← delete .staffServices tenantId fun r =>
    r.staffId = staffId ∧ r.serviceId = serviceId
  if affected > 0 then return () else throwSql (.notFound "Capability not found")

def list (staffId : Uuid) : PlatformM (List StaffServiceRow) :=
  findMany .staffServices tenantId fun r => r.staffId = staffId

def canPerform (staffId serviceId : Uuid) : PlatformM Bool := do
  let link ← findOne .staffServices tenantId fun r => r.staffId = staffId ∧ r.serviceId = serviceId
  return link.isSome

def capableStaffIds (serviceId : Uuid) : PlatformM (List Uuid) := do
  let links ← findMany .staffServices tenantId fun r => r.serviceId = serviceId
  return links.map (·.staffId)

end StaffServiceService

/-! ## Working hours -/

structure CreateWorkingHoursDto where
  weekday : ℕ
  startMin : ℕ
  endMin : ℕ
  deriving DecidableEq, Repr

namespace WorkingHoursService

variable (tenantId : Uuid)

def forStaffWeekday (staffId : Uuid) (weekday : ℕ) : PlatformM (List WorkingHours) :=
  findMany .workingHours tenantId fun r => r.staffId = staffId ∧ r.weekday = weekday

/-- The overlap is checked before the EXCLUDE constraint checks it again. -/
def create (staffId : Uuid) (dto : CreateWorkingHoursDto) : PlatformM WorkingHours := do
  let _ ← StaffService.getById tenantId staffId
  if dto.startMin ≥ dto.endMin then
    throwSql (.badRequest "startMin must be before endMin")
  else
    let sameDay ← forStaffWeekday tenantId staffId dto.weekday
    if sameDay.any fun h => dto.startMin < h.endMin ∧ h.startMin < dto.endMin then
      throwSql (.conflict "Working hours overlap an existing interval")
    else
      PlatformM.mapCode exclusionViolation
        (.conflict "Working hours overlap an existing interval") <|
        persist .workingHours tenantId fun tenantId id _ =>
          .ok { id, tenantId, staffId, weekday := dto.weekday, startMin := dto.startMin,
                endMin := dto.endMin }

def list (staffId : Uuid) : PlatformM (List WorkingHours) := do
  let hours ← findMany .workingHours tenantId fun r => r.staffId = staffId
  return hours.mergeSort fun r r' =>
    r.weekday < r'.weekday ∨ (r.weekday = r'.weekday ∧ r.startMin ≤ r'.startMin)

def remove (id : Uuid) : PlatformM Unit := do
  let affected ← delete .workingHours tenantId fun r => r.id = id
  if affected > 0 then return () else throwSql (.notFound "Working hours not found")

end WorkingHoursService

/-! ## Time off -/

structure CreateTimeOffDto where
  startsAt : String
  endsAt : String
  reason : Option String
  deriving DecidableEq, Repr

namespace TimeOffService

variable (rt : PlatformRuntime) (tenantId : Uuid)

/-- `endsAt.getTime() <= startsAt.getTime()`; false if a date is invalid. -/
def inverted (startsAt endsAt : JsDate) : Bool :=
  match startsAt, endsAt with
  | some s, some e => e ≤ s
  | _, _ => false

def create (staffId : Uuid) (dto : CreateTimeOffDto) : PlatformM TimeOff := do
  let _ ← StaffService.getById tenantId staffId
  let startsAt := rt.booking.parseDate dto.startsAt
  let endsAt := rt.booking.parseDate dto.endsAt
  if inverted startsAt endsAt then
    throwSql (.badRequest "endsAt must be after startsAt")
  else
    persist .timeOff tenantId fun tenantId id _ =>
      match startsAt, endsAt with
      | some startsAt, some endsAt =>
        .ok { id, tenantId, staffId, startsAt, endsAt, reason := dto.reason }
      | _, _ => .error "22007"

def list (staffId : Uuid) : PlatformM (List TimeOff) := do
  let rows ← findMany .timeOff tenantId fun r => r.staffId = staffId
  return rows.mergeSort fun r r' => r.startsAt ≤ r'.startsAt

/-- The time off of a staff member that overlaps `[start, stop)`. -/
def overlapping (staffId : Uuid) (start stop : Instant) : PlatformM (List TimeOff) :=
  findMany .timeOff tenantId fun r => r.staffId = staffId ∧ r.startsAt < stop ∧ start < r.endsAt

def remove (id : Uuid) : PlatformM Unit := do
  let affected ← delete .timeOff tenantId fun r => r.id = id
  if affected > 0 then return () else throwSql (.notFound "Time-off not found")

end TimeOffService

end BookingPlatform
