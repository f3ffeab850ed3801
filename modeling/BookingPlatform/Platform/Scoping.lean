import BookingPlatform.Booking.Footprints
import BookingPlatform.Booking.Sessions
import BookingPlatform.Platform.Calls
import BookingPlatform.Platform.References

/-!
# The Tenant Filter

The filter that the services apply by themselves, without row-level security: which statements of a
tenant find rows of the tenant only, and write rows of the tenant only. It is written in several
ways, a where clause by the base repository, a where clause of a query, or the tenant as a value of
the new row; each statement is checked by itself here.

Two calls name a row by its id alone, or by a payment reference, and are left to other arguments.

## Main definitions

- `TenantScoped`: the statements that the filter confines to a tenant.

## Main results

- `scoped_program`: all statements of the other calls are such.
-/

namespace BookingPlatform

open Library BaseTenantRepository

/-! ## Statements -/

/-- The row belongs to the tenant, or to nobody. -/
def visible (tenantId : Uuid) (τ : TableName) (r : Row τ) : Bool :=
  rowTenant τ r = some tenantId ∨ rowTenant τ r = none

/-- What an update leaves as it is. -/
structure Keeps (uuid : UuidText) {τ : TableName} (r r' : Row τ) : Prop where
  id : rowId τ r' = rowId τ r
  tenant : rowTenant τ r' = rowTenant τ r
  provides : rowProvides τ r' = rowProvides τ r
  needs : rowNeeds τ r' = rowNeeds τ r
  sound : rowSound uuid τ r → rowSound uuid τ r'

/-- A new row of the tenant, with the id that is drawn for it. -/
structure NewRow (uuid : UuidText) (tenantId id : Uuid) {τ : TableName} (r : Row τ) : Prop where
  id : rowId τ r = id
  visible : visible tenantId τ r = true
  sound : rowSound uuid τ r

/-- The statement only concerns rows of the tenant, and inserts only into some tables. -/
def TenantScoped (uuid : UuidText) (tenantId : Uuid) (inserts : TableName → Bool) : Command → Prop
  | .select τ p => ∀ r, p r = true → visible tenantId τ r = true
  | .insert τ row => inserts τ = true ∧ ∀ id time r, row id time = .ok r → NewRow uuid tenantId id r
  | .insertIgnore τ row => inserts τ = true ∧ ∀ id time, NewRow uuid tenantId id (row id time)
  | .update τ p set => (∀ r, p r = true → rowTenant τ r = some tenantId) ∧
    ∀ time r r', set time r = .ok r' → Keeps uuid r r'
  | .delete τ p => deletesRows τ = true ∧ ∀ r, p r = true → visible tenantId τ r = true
  | _ => True

theorem visible_of_tenant {tenantId : Uuid} {τ : TableName} {r : Row τ}
    (h : rowTenant τ r = some tenantId) :
    visible tenantId τ r = true := by simp [visible, h]

/-! ## The base repository -/

section Repository

variable {uuid : UuidText} {tenantId : Uuid} {inserts : TableName → Bool} {τ : TableName}
  {p : Row τ → Bool} {α : Type}

theorem scoped_exec {s : Command} (h : TenantScoped uuid tenantId inserts s) :
    (PlatformM.exec s).Uses (TenantScoped uuid tenantId inserts) := uses_execSql h

theorem scoped_ofExcept (r : Except Thrown α) :
    (PlatformM.ofExcept r).Uses (TenantScoped uuid tenantId inserts) := by
  cases r with
  | ok a => exact uses_pure a
  | error e => exact uses_throw e

theorem scoped_findMany : (findMany τ tenantId p).Uses (TenantScoped uuid tenantId inserts) := by
  refine scoped_exec fun r hr => ?_
  simp only [scopedWhere, Bool.and_eq_true, decide_eq_true_eq] at hr
  exact visible_of_tenant hr.1.2

theorem scoped_findOne : (findOne τ tenantId p).Uses (TenantScoped uuid tenantId inserts) :=
  Prog.Uses.bind scoped_findMany fun rows => uses_pure rows.head?

theorem scoped_findAndCount {order : Row τ → Row τ → Bool} {query : BaseQuery} :
    (findAndCount τ tenantId order query).Uses (TenantScoped uuid tenantId inserts) :=
  Prog.Uses.bind scoped_findMany fun _ => Prog.Uses.bind scoped_findMany fun _ => uses_pure _

theorem scoped_persist {entity : Uuid → Uuid → Instant → Except SqlState (Row τ)}
    (hτ : inserts τ = true)
    (h : ∀ id time r, entity tenantId id time = .ok r → NewRow uuid tenantId id r) :
    (persist τ tenantId entity).Uses (TenantScoped uuid tenantId inserts) := scoped_exec ⟨hτ, h⟩

theorem scopedWhere_tenant {r : Row τ} (h : scopedWhere τ tenantId p r = true) :
    rowTenant τ r = some tenantId := by
  simp only [scopedWhere, Bool.and_eq_true, decide_eq_true_eq] at h
  exact h.2

theorem scoped_update {set : Instant → Row τ → Row τ} (h : ∀ time r, Keeps uuid r (set time r)) :
    (BaseTenantRepository.update τ tenantId p set).Uses (TenantScoped uuid tenantId inserts) := by
  have hscoped : TenantScoped uuid tenantId inserts
      (.update τ (scopedWhere τ tenantId p) fun time r => .ok (set time r)) := by
    refine ⟨fun r => scopedWhere_tenant, fun time r r' hset => ?_⟩
    cases hset
    exact h time r
  exact Prog.Uses.bind (scoped_exec hscoped) fun rows => uses_pure rows.length

theorem scoped_delete (hτ : deletesRows τ = true) :
    (delete τ tenantId p).Uses (TenantScoped uuid tenantId inserts) :=
  scoped_exec ⟨hτ, fun _ hr => visible_of_tenant (scopedWhere_tenant hr)⟩

theorem scoped_getTenant :
    (TenantService.getById tenantId).Uses (TenantScoped uuid tenantId inserts) := by
  refine Prog.Uses.bind (scoped_exec fun r hr => visible_of_tenant ?_) fun rows => ?_
  · simpa [rowTenant] using hr
  · split
    · exact uses_pure _
    · exact uses_throw _

end Repository

/-! ## Services, customers and staff -/

section Directory

variable {uuid : UuidText} {tenantId : Uuid} {inserts : TableName → Bool}

theorem scoped_getService (id : Uuid) :
    (ServiceService.getById tenantId id).Uses (TenantScoped uuid tenantId inserts) := by
  refine Prog.Uses.bind scoped_findOne fun row => ?_
  split
  · exact uses_pure _
  · exact uses_throw _

theorem scoped_createService (h : inserts .services = true) (dto : CreateServiceDto) :
    (ServiceService.create tenantId dto).Uses (TenantScoped uuid tenantId inserts) := by
  refine uses_mapCode (scoped_persist h fun id time r hr => ?_)
  cases hr
  exact ⟨rfl, visible_of_tenant rfl, trivial⟩

theorem scoped_updateService (id : Uuid) (dto : UpdateServiceDto) :
    (ServiceService.update tenantId id dto).Uses (TenantScoped uuid tenantId inserts) := by
  refine uses_mapCode (Prog.Uses.bind (scoped_update fun _ _ =>
    ⟨rfl, rfl, rfl, rfl, fun h => h⟩) fun _ => ?_)
  split
  · exact uses_throw _
  · refine Prog.Uses.bind scoped_findOne fun row => ?_
    split
    · exact uses_pure _
    · exact uses_throw _

theorem scoped_removeService (id : Uuid) :
    (ServiceService.remove tenantId id).Uses (TenantScoped uuid tenantId inserts) := by
  refine Prog.Uses.bind (scoped_update fun _ _ => ⟨rfl, rfl, rfl, rfl, fun h => h⟩) fun _ => ?_
  split
  · exact uses_pure _
  · exact uses_throw _

theorem scoped_createCustomer (h : inserts .customers = true) (rt : PlatformRuntime)
    (dto : CreateCustomerDto) :
    (CustomerService.create rt tenantId dto).Uses (TenantScoped uuid tenantId inserts) := by
  refine uses_mapCode (scoped_persist h fun id time r hr => ?_)
  cases hr
  exact ⟨rfl, visible_of_tenant rfl, trivial⟩

theorem scoped_getCustomer (id : Uuid) :
    (CustomerService.getById tenantId id).Uses (TenantScoped uuid tenantId inserts) := by
  refine Prog.Uses.bind scoped_findOne fun row => ?_
  split
  · exact uses_pure _
  · exact uses_throw _

theorem scoped_getStaff (id : Uuid) :
    (StaffService.getById tenantId id).Uses (TenantScoped uuid tenantId inserts) := by
  refine Prog.Uses.bind scoped_findOne fun row => ?_
  split
  · exact uses_pure _
  · exact uses_throw _

theorem scoped_updateStaff (id : Uuid) (dto : UpdateStaffDto) :
    (StaffService.update tenantId id dto).Uses (TenantScoped uuid tenantId inserts) := by
  refine Prog.Uses.bind (scoped_update fun _ _ => ⟨rfl, rfl, rfl, rfl, fun h => h⟩) fun _ => ?_
  split
  · exact uses_throw _
  · refine Prog.Uses.bind scoped_findOne fun row => ?_
    split
    · exact uses_pure _
    · exact uses_throw _

/-- What a staff request asks about the plan in force. -/
theorem uses_staffLimit {X : StaffStatement → Prop} (hactive : X (.findActive tenantId))
    (hplan : ∀ id, X (.findPlanById id)) (hdefault : X (.findPlanByCode defaultPlanCode))
    (count : ℕ) :
    (SubscriptionService.assertWithinStaffLimit tenantId count).Uses X := by
  refine Prog.Uses.bind (Prog.Uses.bind (uses_execSql hactive) fun subscription => ?_)
    fun entitlement => ?_
  · -- one of two lookups finds the plan, in three branches
    dsimp only
    split
    on_goal 1 => split
    on_goal 1 => refine Prog.Uses.bind (uses_execSql (hplan _)) fun plan => ?_
    on_goal 2 => refine Prog.Uses.bind (uses_execSql hdefault) fun plan => ?_
    on_goal 3 => refine Prog.Uses.bind (uses_execSql hdefault) fun plan => ?_
    all_goals
      split
      · exact uses_pure _
      · split
        · exact uses_pure _
        · exact uses_pure _
  · split
    · split
      · exact uses_throw _
      · exact uses_pure _
    · exact uses_pure _

theorem scoped_createStaff (h : inserts .staff = true) (dto : CreateStaffDto) :
    ((StaffService.create tenantId dto).translate staffCommands).Uses
      (TenantScoped uuid tenantId inserts) := by
  refine Prog.Uses.translated staffCommands ?_
  refine Prog.Uses.bind (uses_execSql fun r hr => visible_of_tenant ?_) fun role => ?_
  · -- the role is looked up within the tenant
    simp only [Bool.decide_and, Bool.and_eq_true, decide_eq_true_eq] at hr
    exact congrArg some hr.2
  · split
    · exact uses_throw _
    · refine Prog.Uses.bind (uses_execSql fun r hr => visible_of_tenant ?_) fun count => ?_
      · simp only [Bool.decide_and, Bool.and_eq_true, decide_eq_true_eq] at hr
        exact congrArg some hr.1
      · have hplans : ∀ p : PlanRow → Bool, TenantScoped uuid tenantId inserts (.select .plans p) :=
          fun p r _ => by simp [visible, rowTenant]
        have hactive : TenantScoped uuid tenantId inserts
            (staffCommand (.findActive tenantId)) := by
          intro r hr
          exact visible_of_tenant (congrArg some (of_decide_eq_true hr))
        refine Prog.Uses.bind (uses_staffLimit hactive
          (fun _ => hplans _) (hplans _) count) fun _ => ?_
        refine Prog.Uses.tryCatch (uses_execSql ?_) fun e => ?_
        · refine ⟨h, fun id time r hr => ?_⟩
          cases hr
          exact ⟨rfl, visible_of_tenant rfl, trivial⟩
        · split
          · exact uses_throw _
          · exact uses_throw _

theorem scoped_removeStaff (id : Uuid) :
    ((StaffService.remove tenantId id).translate staffCommands).Uses
      (TenantScoped uuid tenantId inserts) := by
  refine Prog.Uses.translated staffCommands ?_
  refine Prog.Uses.bind (uses_execSql ⟨fun r hr => ?_, fun time r r' hset => ?_⟩) fun _ => ?_
  · simp only [Bool.decide_and, Bool.and_eq_true, decide_eq_true_eq] at hr
    exact congrArg some hr.2
  · cases hset
    exact ⟨rfl, rfl, rfl, rfl, fun h => h⟩
  · split
    · exact uses_pure _
    · exact uses_throw _

end Directory

/-! ## Capabilities and schedules -/

section Schedule

variable {uuid : UuidText} {tenantId : Uuid} {inserts : TableName → Bool}

theorem scoped_link (h : inserts .staffServices = true) (staffId serviceId : Uuid) :
    (StaffServiceService.link tenantId staffId serviceId).Uses
      (TenantScoped uuid tenantId inserts) := by
  refine Prog.Uses.bind (scoped_getStaff staffId) fun _ => ?_
  refine Prog.Uses.bind (scoped_getService serviceId) fun _ => ?_
  refine uses_mapCode (scoped_persist h fun id time r hr => ?_)
  cases hr
  exact ⟨rfl, visible_of_tenant rfl, trivial⟩

theorem scoped_unlink (staffId serviceId : Uuid) :
    (StaffServiceService.unlink tenantId staffId serviceId).Uses
      (TenantScoped uuid tenantId inserts) := by
  refine Prog.Uses.bind (scoped_delete rfl) fun _ => ?_
  split
  · exact uses_pure _
  · exact uses_throw _

theorem scoped_createWorkingHours (h : inserts .workingHours = true) (staffId : Uuid)
    (dto : CreateWorkingHoursDto) :
    (WorkingHoursService.create tenantId staffId dto).Uses
      (TenantScoped uuid tenantId inserts) := by
  refine Prog.Uses.bind (scoped_getStaff staffId) fun _ => ?_
  split
  · exact uses_throw _
  · refine Prog.Uses.bind scoped_findMany fun sameDay => ?_
    split
    · exact uses_throw _
    · refine uses_mapCode (scoped_persist h fun id time r hr => ?_)
      cases hr
      exact ⟨rfl, visible_of_tenant rfl, trivial⟩

theorem scoped_removeWorkingHours (id : Uuid) :
    (WorkingHoursService.remove tenantId id).Uses (TenantScoped uuid tenantId inserts) := by
  refine Prog.Uses.bind (scoped_delete rfl) fun _ => ?_
  split
  · exact uses_pure _
  · exact uses_throw _

theorem scoped_createTimeOff (h : inserts .timeOff = true) (rt : PlatformRuntime) (staffId : Uuid)
    (dto : CreateTimeOffDto) :
    (TimeOffService.create rt tenantId staffId dto).Uses (TenantScoped uuid tenantId inserts) := by
  refine Prog.Uses.bind (scoped_getStaff staffId) fun _ => ?_
  dsimp only
  split
  · exact uses_throw _
  · refine scoped_persist h fun id time r hr => ?_
    split at hr
    · cases hr
      exact ⟨rfl, visible_of_tenant rfl, trivial⟩
    · cases hr

theorem scoped_removeTimeOff (id : Uuid) :
    (TimeOffService.remove tenantId id).Uses (TenantScoped uuid tenantId inserts) := by
  refine Prog.Uses.bind (scoped_delete rfl) fun _ => ?_
  split
  · exact uses_pure _
  · exact uses_throw _

theorem scoped_staffSlots (rt : AvailabilityRuntime) (now : Instant) (query : AvailabilityQueryDto)
    (service : ServiceRow) (zone : String) (day : ℤ) (staffId : Uuid) :
    (AvailabilityService.staffSlots rt now tenantId query service zone day staffId).Uses
      (TenantScoped uuid tenantId inserts) := by
  -- every lookup is by the tenant
  refine Prog.Uses.bind ?_ fun capable => ?_
  · unfold AvailabilityService.isCapable
    split
    · exact Prog.Uses.bind scoped_findOne fun _ => uses_pure _
    · exact uses_pure _
  · split
    · exact uses_pure _
    · refine Prog.Uses.bind scoped_findOne fun staff => ?_
      split
      · exact uses_pure _
      · split
        · exact uses_pure _
        · refine Prog.Uses.bind scoped_findMany fun hours => ?_
          split
          · exact uses_pure _
          · refine Prog.Uses.bind ?_ fun blockers => scoped_ofExcept _
            refine Prog.Uses.bind scoped_findMany fun timeOffs => ?_
            exact Prog.Uses.bind scoped_findMany fun bookings => uses_pure _

theorem scoped_allSlots (rt : AvailabilityRuntime) (now : Instant) (query : AvailabilityQueryDto)
    (service : ServiceRow) (zone : String) (day : ℤ) (staffIds : List Uuid) :
    (AvailabilityService.allSlots rt now tenantId query service zone day staffIds).Uses
      (TenantScoped uuid tenantId inserts) := by
  induction staffIds with
  | nil => exact uses_pure _
  | cons staffId staffIds ih =>
    refine Prog.Uses.bind (scoped_staffSlots rt now query service zone day staffId) fun slots => ?_
    exact Prog.Uses.bind ih fun rest => uses_pure _

theorem scoped_availability (rt : AvailabilityRuntime) (now : Instant)
    (query : AvailabilityQueryDto) :
    (AvailabilityService.compute rt now tenantId query).Uses
      (TenantScoped uuid tenantId inserts) := by
  unfold AvailabilityService.compute
  split
  · exact uses_throw _
  · refine Prog.Uses.bind (scoped_getService query.serviceId) fun service => ?_
    refine Prog.Uses.bind scoped_getTenant fun tenant => ?_
    refine Prog.Uses.bind ?_ fun staffIds => ?_
    · unfold AvailabilityService.staffIdsFor
      split
      · exact uses_pure _
      · exact Prog.Uses.bind scoped_findMany fun _ => uses_pure _
    · exact Prog.Uses.bind (scoped_allSlots rt now query service _ _ staffIds) fun _ => uses_pure _

end Schedule

/-! ## Reports, endpoints and subscriptions -/

section Billing

variable {uuid : UuidText} {tenantId : Uuid} {inserts : TableName → Bool} {α : Type}

theorem scoped_runInTenant (rt : PlatformRuntime) (query : ReportQueryDto)
    {report : ReportFilters → PlatformM α}
    (h : ∀ filters, (report filters).Uses (TenantScoped uuid tenantId inserts)) :
    (ReportingService.runInTenant rt tenantId query report).Uses
      (TenantScoped uuid tenantId inserts) := by
  unfold ReportingService.runInTenant
  split
  · exact uses_throw _
  · split
    · exact uses_throw _
    · exact Prog.Uses.bind scoped_getTenant fun tenant => h _

theorem scoped_liveBookings :
    (ReportingService.liveBookings tenantId).Uses (TenantScoped uuid tenantId inserts) := by
  refine scoped_exec fun r hr => visible_of_tenant ?_
  simp only [Bool.decide_and, Bool.and_eq_true, decide_eq_true_eq] at hr
  exact congrArg some hr.1

theorem scoped_bookingsReport (rt : PlatformRuntime) (query : ReportQueryDto) :
    (ReportingService.bookingsReport rt tenantId query).Uses
      (TenantScoped uuid tenantId inserts) := by
  refine scoped_runInTenant rt query fun filters => ?_
  exact Prog.Uses.bind scoped_liveBookings fun rows => scoped_ofExcept _

theorem scoped_revenueReport (rt : PlatformRuntime) (query : ReportQueryDto) :
    (ReportingService.revenueReport rt tenantId query).Uses
      (TenantScoped uuid tenantId inserts) := by
  refine scoped_runInTenant rt query fun filters => ?_
  exact Prog.Uses.bind scoped_liveBookings fun rows => scoped_ofExcept _

theorem scoped_createEndpoint (h : inserts .webhookEndpoints = true) (rt : PlatformRuntime)
    (dto : CreateWebhookDto) :
    (WebhookService.create rt tenantId dto).Uses (TenantScoped uuid tenantId inserts) := by
  refine Prog.Uses.bind (scoped_ofExcept _) fun _ => ?_
  refine Prog.Uses.bind scoped_findOne fun active => ?_
  split
  · exact uses_throw _
  · refine Prog.Uses.bind (scoped_exec trivial) fun bytes => ?_
    refine Prog.Uses.bind (uses_mapCode (scoped_persist h fun id time r hr => ?_)) fun _ =>
      uses_pure _
    cases hr
    exact ⟨rfl, visible_of_tenant rfl, trivial⟩

theorem scoped_removeEndpoint (id : Uuid) :
    (WebhookService.remove tenantId id).Uses (TenantScoped uuid tenantId inserts) := by
  refine Prog.Uses.bind (scoped_update fun _ _ => ⟨rfl, rfl, rfl, rfl, fun h => h⟩) fun _ => ?_
  split
  · exact uses_pure _
  · exact uses_throw _

theorem scoped_currentSubscription :
    (SubscriptionService.currentSubscription tenantId).Uses
      (TenantScoped uuid tenantId inserts) := by
  refine Prog.Uses.bind (scoped_exec fun r hr => visible_of_tenant ?_) fun _ => uses_pure _
  simpa [rowTenant] using hr

/-- The reference of a new subscription is made of the tenant. -/
theorem scoped_subscribe (h : inserts .subscriptions = true) (rt : PlatformRuntime)
    (dto : CreateSubscriptionDto) :
    (SubscriptionService.subscribe rt tenantId dto).Uses
      (TenantScoped rt.uuid tenantId inserts) := by
  refine Prog.Uses.bind (scoped_exec fun r hr => ?_) fun plans => ?_
  · -- plans belong to no tenant
    simp [visible, rowTenant]
  · split
    · exact uses_throw _
    · refine Prog.Uses.bind scoped_currentSubscription fun existing => ?_
      split
      · exact uses_throw _
      · refine Prog.Uses.bind (scoped_exec trivial) fun nonce => ?_
        refine Prog.Uses.bind (scoped_ofExcept _) fun checkout => ?_
        refine Prog.Uses.bind (uses_mapCode (scoped_persist h fun id time r hr => ?_)) fun _ =>
          uses_pure _
        cases hr
        exact ⟨rfl, visible_of_tenant rfl,
          tenantFromReference_buildReference rt.uuid tenantId nonce⟩

end Billing

/-! ## Booking requests -/

section Bookings

variable {uuid : UuidText} {tenantId : Uuid} {inserts : TableName → Bool}

theorem scoped_lookups :
    HasLookups (fun s => TenantScoped uuid tenantId inserts (bookingCommand s)) tenantId := by
  refine ⟨fun id r hr => ?_, fun staffId serviceId r hr => ?_, fun id r hr => ?_, fun r hr => ?_,
    fun id r hr => ?_⟩
  all_goals simp only [Bool.decide_and, Bool.and_eq_true, decide_eq_true_eq] at hr
  · exact visible_of_tenant (congrArg some hr.2.1)
  · exact visible_of_tenant (congrArg some hr.2.2)
  · exact visible_of_tenant (congrArg some hr.2.1)
  · exact visible_of_tenant (congrArg some hr)
  · exact visible_of_tenant (congrArg some hr.2.1)

theorem scoped_event (h : inserts .outboxEvents = true) (input : RecordEventInput) :
    TenantScoped uuid tenantId inserts (bookingCommand (.insertEvent tenantId input)) := by
  refine ⟨h, fun id time r hr => ?_⟩
  cases hr
  exact ⟨rfl, visible_of_tenant rfl, trivial⟩

/-- A new booking has the drawn id and the values that are inserted. -/
theorem stored_eq {data : BookingData} {id : Uuid} {b : StoredBooking}
    (h : data.stored id = .ok b) :
    ∃ slot, b = data.storedRow slot id := by
  rcases data.stored_cases id with ⟨slot, -, hstored⟩ | ⟨-, code, -, hstored⟩
  · exact ⟨slot, Except.ok.inj (h.symm.trans hstored)⟩
  · cases h.symm.trans hstored

theorem scoped_inserts (hbookings : inserts .bookings = true)
    (hevents : inserts .outboxEvents = true) :
    HasInserts (fun s => TenantScoped uuid tenantId inserts (bookingCommand s)) tenantId := by
  refine ⟨fun data hdata => ⟨hbookings, fun id time b hb => ?_⟩, scoped_event hevents⟩
  obtain ⟨slot, rfl⟩ := stored_eq hb
  exact ⟨rfl, visible_of_tenant (congrArg some hdata), trivial⟩

theorem scoped_updateStatus (id : Uuid) (version : ℤ) (status : BookingStatus) :
    TenantScoped uuid tenantId inserts
      (bookingCommand (.updateStatus tenantId id version status)) := by
  refine ⟨fun r hr => ?_, fun time r r' hset => ?_⟩
  · simp only [Bool.decide_and, Bool.and_eq_true, decide_eq_true_eq] at hr
    exact congrArg some hr.2.1
  · cases hset
    exact ⟨rfl, rfl, rfl, rfl, fun h => h⟩

theorem checkedRange_eq {b b' : StoredBooking} (h : checkedRange b = .ok b') : b' = b := by
  unfold checkedRange at h
  split at h
  · exact (Except.ok.inj h).symm
  · cases h

theorem scoped_updateTimes (id : Uuid) (version : ℤ) (startsAt endsAt : JsDate) :
    TenantScoped uuid tenantId inserts
      (bookingCommand (.updateTimes tenantId id version startsAt endsAt)) := by
  rcases startsAt with - | startsAt
  · trivial
  · rcases endsAt with - | endsAt
    · trivial
    · refine ⟨fun r hr => ?_, fun time r r' hset => ?_⟩
      · simp only [Bool.decide_and, Bool.and_eq_true, decide_eq_true_eq] at hr
        exact congrArg some hr.2.1
      · obtain rfl := checkedRange_eq hset
        exact ⟨rfl, rfl, rfl, rfl, fun h => h⟩

theorem scoped_cancelSeries (recurrenceId : Uuid) (now : Instant) :
    TenantScoped uuid tenantId inserts
      (bookingCommand (.cancelSeries tenantId recurrenceId now)) := by
  refine ⟨fun r hr => ?_, fun time r r' hset => ?_⟩
  · simp only [Bool.decide_and, Bool.and_eq_true, decide_eq_true_eq] at hr
    exact congrArg some hr.2.1
  · cases hset
    exact ⟨rfl, rfl, rfl, rfl, fun h => h⟩

theorem scoped_createRecurrence (hrecurrences : inserts .recurrences = true)
    (hbookings : inserts .bookings = true) (hevents : inserts .outboxEvents = true) (rt : Runtime)
    (dto : CreateRecurrenceDto) :
    (RecurrenceService.create rt tenantId dto).Uses
      fun s => TenantScoped uuid tenantId inserts (bookingCommand s) := by
  refine uses_recurrenceCreate scoped_lookups (scoped_inserts hbookings hevents)
    (fun data hdata => ?_) ⟨fun _ => trivial, fun _ => trivial, fun _ => trivial⟩ rt dto
  refine ⟨hrecurrences, fun id time r hr => ?_⟩
  cases hr
  exact ⟨rfl, visible_of_tenant (congrArg some hdata), trivial⟩

theorem scoped_transition (h : inserts .outboxEvents = true) (id : Uuid) (version : ℤ)
    (target : BookingStatus) :
    (BookingService.transition tenantId id version target).Uses
      fun s => TenantScoped uuid tenantId inserts (bookingCommand s) :=
  uses_transition scoped_lookups.booking (scoped_event h) scoped_updateStatus id version target

/-- The tables into which a booking request inserts. -/
def Operation.creates : Operation → List TableName
  | .create .. => [.bookings, .outboxEvents, .idempotencyKeys]
  | .createRecurrence _ => [.recurrences, .bookings, .outboxEvents]
  | _ => [.outboxEvents]

/-- A create with an idempotency key completes the key by its id. -/
def Operation.completesKey : Operation → Bool
  | .create .. => true
  | _ => false

theorem scoped_route (rt : Runtime) {o : Operation} (hkey : o.completesKey = false)
    (hcreates : ∀ τ ∈ o.creates, inserts τ = true) :
    (route rt ⟨tenantId, o⟩).Uses fun s =>
      TenantScoped uuid tenantId inserts (bookingCommand s) := by
  have hevents : inserts .outboxEvents = true :=
    hcreates .outboxEvents (by cases o <;> simp [Operation.creates])
  cases o with
  -- `create` completes a key, by its id
  | create dto key => cases hkey
  | createRecurrence dto =>
    refine Prog.Uses.bind (scoped_createRecurrence ?_ ?_ hevents rt dto) fun _ => uses_ret _
    · exact hcreates .recurrences (by simp [Operation.creates])
    · exact hcreates .bookings (by simp [Operation.creates])
  | confirm id version => exact Prog.Uses.bind (scoped_transition hevents _ _ _) fun _ => uses_ret _
  | complete id version =>
    exact Prog.Uses.bind (scoped_transition hevents _ _ _) fun _ => uses_ret _
  | cancel id version => exact Prog.Uses.bind (scoped_transition hevents _ _ _) fun _ => uses_ret _
  | noShow id version => exact Prog.Uses.bind (scoped_transition hevents _ _ _) fun _ => uses_ret _
  | reschedule id dto ifMatch =>
    refine Prog.Uses.bind ?_ fun _ => uses_ret _
    exact uses_reschedule scoped_lookups.booking scoped_lookups.service
      (scoped_event hevents) scoped_updateTimes
      rt id dto ifMatch
  | cancelSeries id =>
    refine Prog.Uses.bind ?_ fun _ => uses_ret _
    exact uses_cancelSeries scoped_lookups.booking
      (scoped_event hevents) trivial scoped_cancelSeries id

end Bookings

/-! ## All calls -/

namespace ServiceCall

/-- The tables into which a call inserts. -/
def creates : ServiceCall → List TableName
  | booking o => o.creates
  | createService _ => [.services]
  | createCustomer _ => [.customers]
  | createStaff _ => [.staff]
  | link _ _ => [.staffServices]
  | createWorkingHours _ _ => [.workingHours]
  | createTimeOff _ _ => [.timeOff]
  | createEndpoint _ => [.webhookEndpoints]
  | subscribe _ => [.subscriptions]
  | consumeWebhook _ _ => [.webhookReceipts]
  | _ => []

/-- The calls that write to a row by its id alone. -/
def writesById : ServiceCall → Bool
  | booking o => o.completesKey
  | consumeWebhook _ _ => true
  | _ => false

end ServiceCall

/-- Every statement of the other calls is confined to the tenant by its filter. -/
theorem scoped_program (rt : AvailabilityRuntime) {tenantId : Uuid} {inserts : TableName → Bool}
    {call : ServiceCall} (hid : call.writesById = false)
    (hcreates : ∀ τ ∈ call.creates, inserts τ = true) :
    (call.program rt tenantId).Uses (TenantScoped rt.platform.uuid tenantId inserts) := by
  have hfirst : ∀ {τ}, call.creates = [τ] → inserts τ = true := by
    intro τ heq
    exact hcreates τ (heq ▸ List.mem_singleton.2 rfl)
  cases call with
  | booking o =>
    exact Prog.Uses.translated bookingCommands (scoped_route rt.platform.booking hid hcreates)
  | getBooking id =>
    exact Prog.Uses.translated bookingCommands (uses_getOrThrow (scoped_lookups.booking id))
  | createService dto => exact scoped_createService (hfirst rfl) dto
  | getService id => exact scoped_getService id
  | listServices query => exact scoped_findAndCount
  | updateService id dto => exact scoped_updateService id dto
  | removeService id => exact scoped_removeService id
  | createCustomer dto => exact scoped_createCustomer (hfirst rfl) rt.platform dto
  | getCustomer id => exact scoped_getCustomer id
  | listCustomers query => exact scoped_findAndCount
  | createStaff dto => exact scoped_createStaff (hfirst rfl) dto
  | getStaff id => exact scoped_getStaff id
  | listStaff query => exact scoped_findAndCount
  | updateStaff id dto => exact scoped_updateStaff id dto
  | removeStaff id => exact scoped_removeStaff id
  | link staffId serviceId => exact scoped_link (hfirst rfl) staffId serviceId
  | unlink staffId serviceId => exact scoped_unlink staffId serviceId
  | listLinks staffId => exact scoped_findMany
  | createWorkingHours staffId dto => exact scoped_createWorkingHours (hfirst rfl) staffId dto
  | listWorkingHours staffId => exact Prog.Uses.bind scoped_findMany fun _ => uses_pure _
  | removeWorkingHours id => exact scoped_removeWorkingHours id
  | createTimeOff staffId dto => exact scoped_createTimeOff (hfirst rfl) rt.platform staffId dto
  | listTimeOff staffId => exact Prog.Uses.bind scoped_findMany fun _ => uses_pure _
  | removeTimeOff id => exact scoped_removeTimeOff id
  | availability now query => exact scoped_availability rt now query
  | bookingsReport query => exact scoped_bookingsReport rt.platform query
  | revenueReport query => exact scoped_revenueReport rt.platform query
  | createEndpoint dto => exact scoped_createEndpoint (hfirst rfl) rt.platform dto
  | listEndpoints => exact Prog.Uses.bind scoped_findMany fun _ => uses_pure _
  | activeEndpoint => exact scoped_findOne
  | removeEndpoint id => exact scoped_removeEndpoint id
  | subscribe dto => exact scoped_subscribe (hfirst rfl) rt.platform dto
  | currentSubscription => exact scoped_currentSubscription
  | consumeWebhook provider event => cases hid

end BookingPlatform
