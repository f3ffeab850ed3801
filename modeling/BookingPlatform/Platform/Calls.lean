import BookingPlatform.Availability.Service
import BookingPlatform.Platform.Billing
import BookingPlatform.Subscription.Webhook

/-!
# Calls of the Tenant-Scoped Services

All calls of the services that work within one tenant, as programs on the platform's tables. The
tenant is the one of the context in which a call runs, and a call runs in a transaction.

## Main definitions

- `ServiceCall`: a call with its arguments.
- `ServiceCall.program`: what the service does.
-/

namespace BookingPlatform

open Library BaseTenantRepository PlatformM

/-! ## Reports as programs -/

namespace ReportingService

variable (rt : PlatformRuntime) (tenantId : Uuid)

/-- Validates the span of a query and runs its statement with the timezone of the tenant. -/
def runInTenant {α : Type} (query : ReportQueryDto) (report : ReportFilters → PlatformM α) :
    PlatformM α :=
  if inverted rt.reporting query then throwSql (.validation "`to` must be after `from`")
  else if oversized rt.reporting query then throwSql
    (.validation "Report range must not exceed one year")
  else do
    let tenant ← TenantService.getById tenantId
    report ⟨query.fromDate, query.toDate, tenant.timezone, query.staffId, query.serviceId⟩

/-- The live bookings of the tenant, of which a report takes those that pass its filters. -/
def liveBookings : PlatformM (List StoredBooking) :=
  exec (.select .bookings fun r => r.tenantId = tenantId ∧ r.deletedAt = none)

def bookingsReport (query : ReportQueryDto) : PlatformM (List BookingBucketRow) :=
  runInTenant rt tenantId query fun filters => do
    let rows ← liveBookings tenantId
    PlatformM.ofExcept (ReportingRepository.bookings rt.reporting rows tenantId
      query.groupBy filters)

def revenueReport (query : ReportQueryDto) : PlatformM (List RevenueBucketRow) :=
  runInTenant rt tenantId query fun filters => do
    let rows ← liveBookings tenantId
    PlatformM.ofExcept (ReportingRepository.revenue rt.reporting rows tenantId
      query.groupBy filters)

end ReportingService

/-! ## Calls -/

/-- A call of a tenant-scoped service. `consumeWebhook` is the callback that runs in the context of
the tenant that the reference of the event encodes. -/
inductive ServiceCall where
  | booking (o : Operation)
  | getBooking (id : Uuid)
  | createService (dto : CreateServiceDto)
  | getService (id : Uuid)
  | listServices (query : BaseQuery)
  | updateService (id : Uuid) (dto : UpdateServiceDto)
  | removeService (id : Uuid)
  | createCustomer (dto : CreateCustomerDto)
  | getCustomer (id : Uuid)
  | listCustomers (query : BaseQuery)
  | createStaff (dto : CreateStaffDto)
  | getStaff (id : Uuid)
  | listStaff (query : BaseQuery)
  | updateStaff (id : Uuid) (dto : UpdateStaffDto)
  | removeStaff (id : Uuid)
  | link (staffId serviceId : Uuid)
  | unlink (staffId serviceId : Uuid)
  | listLinks (staffId : Uuid)
  | createWorkingHours (staffId : Uuid) (dto : CreateWorkingHoursDto)
  | listWorkingHours (staffId : Uuid)
  | removeWorkingHours (id : Uuid)
  | createTimeOff (staffId : Uuid) (dto : CreateTimeOffDto)
  | listTimeOff (staffId : Uuid)
  | removeTimeOff (id : Uuid)
  | availability (now : Instant) (query : AvailabilityQueryDto)
  | bookingsReport (query : ReportQueryDto)
  | revenueReport (query : ReportQueryDto)
  | createEndpoint (dto : CreateWebhookDto)
  | listEndpoints
  | activeEndpoint
  | removeEndpoint (id : Uuid)
  | subscribe (dto : CreateSubscriptionDto)
  | currentSubscription
  | consumeWebhook (provider : PaymentProviderName) (event : PaymentEvent)

namespace ServiceCall

/-- What a call returns. -/
abbrev Result : ServiceCall → Type
  | booking _ => Response
  | getBooking _ => Booking
  | createService _ | getService _ | updateService _ _ => ServiceRow
  | listServices _ => List ServiceRow × ℕ
  | createCustomer _ | getCustomer _ => CustomerRow
  | listCustomers _ => List CustomerRow × ℕ
  | createStaff _ | getStaff _ | updateStaff _ _ => Staff
  | listStaff _ => List Staff × ℕ
  | link _ _ => StaffServiceRow
  | listLinks _ => List StaffServiceRow
  | createWorkingHours _ _ => WorkingHours
  | listWorkingHours _ => List WorkingHours
  | createTimeOff _ _ => TimeOff
  | listTimeOff _ => List TimeOff
  | availability _ _ => List AvailabilitySlot
  | bookingsReport _ => List BookingBucketRow
  | revenueReport _ => List RevenueBucketRow
  | createEndpoint _ => CreatedEndpoint
  | listEndpoints => List WebhookEndpoint
  | activeEndpoint => Option WebhookEndpoint
  | subscribe _ => SubscribeResult
  | currentSubscription => Option SubscriptionRow
  | removeService _ | removeStaff _ | unlink _ _ | removeWorkingHours _ | removeTimeOff
    _ | removeEndpoint _
  | consumeWebhook _ _ => Unit

/-- The call in the context of a tenant. -/
def program (rt : AvailabilityRuntime) (tenantId : Uuid) :
    (call : ServiceCall) → PlatformM call.Result
  | booking o => (route rt.platform.booking ⟨tenantId, o⟩).translate bookingCommands
  | getBooking id => (BookingService.getOrThrow tenantId id).translate bookingCommands
  | createService dto => ServiceService.create tenantId dto
  | getService id => ServiceService.getById tenantId id
  | listServices query => ServiceService.list rt.platform tenantId query
  | updateService id dto => ServiceService.update tenantId id dto
  | removeService id => ServiceService.remove tenantId id
  | createCustomer dto => CustomerService.create rt.platform tenantId dto
  | getCustomer id => CustomerService.getById tenantId id
  | listCustomers query => CustomerService.list rt.platform tenantId query
  | createStaff dto => (StaffService.create tenantId dto).translate staffCommands
  | getStaff id => StaffService.getById tenantId id
  | listStaff query => StaffService.list rt.platform tenantId query
  | updateStaff id dto => StaffService.update tenantId id dto
  | removeStaff id => (StaffService.remove tenantId id).translate staffCommands
  | link staffId serviceId => StaffServiceService.link tenantId staffId serviceId
  | unlink staffId serviceId => StaffServiceService.unlink tenantId staffId serviceId
  | listLinks staffId => StaffServiceService.list tenantId staffId
  | createWorkingHours staffId dto => WorkingHoursService.create tenantId staffId dto
  | listWorkingHours staffId => WorkingHoursService.list tenantId staffId
  | removeWorkingHours id => WorkingHoursService.remove tenantId id
  | createTimeOff staffId dto => TimeOffService.create rt.platform tenantId staffId dto
  | listTimeOff staffId => TimeOffService.list tenantId staffId
  | removeTimeOff id => TimeOffService.remove tenantId id
  | availability now query => AvailabilityService.compute rt now tenantId query
  | bookingsReport query => ReportingService.bookingsReport rt.platform tenantId query
  | revenueReport query => ReportingService.revenueReport rt.platform tenantId query
  | createEndpoint dto => WebhookService.create rt.platform tenantId dto
  | listEndpoints => WebhookService.list tenantId
  | activeEndpoint => WebhookService.activeEndpoint tenantId
  | removeEndpoint id => WebhookService.remove tenantId id
  | subscribe dto => SubscriptionService.subscribe rt.platform tenantId dto
  | currentSubscription => SubscriptionService.currentSubscription tenantId
  | consumeWebhook provider event =>
    (SubscriptionService.claimAndApply provider event).translate webhookCommands

end ServiceCall

end BookingPlatform
