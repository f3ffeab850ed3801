import BookingPlatform.Booking.Acceptance
import BookingPlatform.Recurrence.Series

/-!
# Staff Who Cannot Be Booked

Availability reads the staff row and leaves out staff members who are removed or inactive. The
creation of bookings reads the link to the service only, which a removal or deactivation does not
touch.

## Main definitions

- `TenantRequest`, `servedAll`: the requests of tenants, served one after the other.
- `Ineligible`: availability leaves the staff member out.
- `RefusesIneligible`: a creation for such a staff member is refused and changes nothing.

## Main results

- `not_listed_of_ineligible`: availability offers no slot of an ineligible staff member.
- `refusesIneligible_iff`: creations refuse an ineligible staff member exactly if another check
  fails.
- `removedStaff_booked`: a removed staff member is booked.
-/

namespace BookingPlatform

open Library BaseTenantRepository

/-! ## Requests one after the other -/

/-- The requests of tenants that the eligibility of their staff depends on. -/
inductive TenantRequest where
  | staff (q : StaffRequest)
  | updateStaff (tenantId id : Uuid) (dto : UpdateStaffDto)
  | link (tenantId staffId serviceId : Uuid)
  | unlink (tenantId staffId serviceId : Uuid)
  | createService (tenantId : Uuid) (dto : CreateServiceDto)
  | updateService (tenantId id : Uuid) (dto : UpdateServiceDto)
  | removeService (tenantId id : Uuid)
  | booking (q : Request)

section Serve

variable (rt : Runtime) (supply : ℕ → Uuid × ℤ)

/-- The machine after a request. -/
def served (m : Machine platformSchema) : TenantRequest → Machine platformSchema
  | .staff q => (((handleStaff q).translate staffCommands).run (Machine.step supply) m).2
  | .updateStaff tenantId id dto =>
    ((PlatformM.transaction (StaffService.update tenantId id dto)).run (Machine.step supply) m).2
  | .link tenantId staffId serviceId =>
    ((PlatformM.transaction (StaffServiceService.link tenantId staffId serviceId)).run
      (Machine.step supply) m).2
  | .unlink tenantId staffId serviceId =>
    ((PlatformM.transaction (StaffServiceService.unlink tenantId staffId serviceId)).run
      (Machine.step supply) m).2
  | .createService tenantId dto =>
    ((PlatformM.transaction (ServiceService.create tenantId dto)).run (Machine.step supply) m).2
  | .updateService tenantId id dto =>
    ((PlatformM.transaction (ServiceService.update tenantId id dto)).run (Machine.step supply) m).2
  | .removeService tenantId id =>
    ((PlatformM.transaction (ServiceService.remove tenantId id)).run (Machine.step supply) m).2
  | .booking q => (((handle rt q).translate bookingCommands).run (Machine.step supply) m).2

/-- The machine after some requests, the first one first. -/
def servedAll (requests : List TenantRequest) (m : Machine platformSchema) :
    Machine platformSchema :=
  requests.foldl (served rt supply) m

end Serve

section Resting

variable {rt : Runtime} {supply : ℕ → Uuid × ℤ} {m : Machine platformSchema} {tenantId : Uuid}

theorem bookingCommand_identifies (s : Statement) : (bookingCommand s).Identifies := by
  cases s with
  | insertBooking data =>
    intro id time row hrow
    rcases data.stored_cases id with ⟨slot, -, hstored⟩ | ⟨-, code, -, hstored⟩
    · obtain rfl : row = data.storedRow slot id := Except.ok.inj (hrow.symm.trans hstored)
      rfl
    · cases hrow.symm.trans hstored
  | updateTimes tenantId id version startsAt endsAt =>
    cases startsAt with
    | none => exact trivial
    | some s =>
      cases endsAt with
      | none => exact trivial
      | some e =>
        intro time r r' hr'
        have hr' : checkedRange { r with toBooking := r.toBooking.setTimes s e } = .ok r' := hr'
        unfold checkedRange at hr'
        split at hr'
        · cases hr'
          rfl
        · cases hr'
  -- an update leaves the id of its row
  | updateStatus | cancelSeries | updateKey =>
    intro time r r' hr'
    cases hr'
    rfl
  | insertEvent | insertRecurrence =>
    intro id time row hrow
    cases hrow
    rfl
  | insertKey => exact fun id time => rfl
  | _ => exact trivial

theorem staffCommand_identifies (s : StaffStatement) : (staffCommand s).Identifies := by
  cases s with
  | insertStaff data =>
    intro id time row hrow
    cases hrow
    rfl
  | softDelete id tenantId =>
    intro time r r' hr'
    cases hr'
    rfl
  | _ => exact trivial

theorem uses_translate_getService {id : Uuid} :
    (ServiceService.getById tenantId id).Uses Stmt.Identifies :=
  Prog.Uses.bind uses_findOne fun
    | some service => uses_pure service
    | none => uses_throw _

theorem uses_getStaff {id : Uuid} : (StaffService.getById tenantId id).Uses Stmt.Identifies :=
  Prog.Uses.bind uses_findOne fun
    | some staff => uses_pure staff
    | none => uses_throw _

/-- A number of affected rows is checked, and an exception thrown if it is 0. -/
theorem uses_affected {e : Thrown} (n : ℕ) :
    (if n > 0 then Prog.ret () else Prog.raise e : PlatformM Unit).Uses Stmt.Identifies := by
  split
  · exact uses_pure ()
  · exact uses_throw e

/-- Every request leaves the machine resting. -/
theorem Resting.served (hdistinct : Function.Injective fun n => (supply n).1) (h : Resting supply m)
    (q : TenantRequest) : Resting supply (served rt supply m q) := by
  cases q with
  -- each request is one transaction, and the machine rests after it
  | staff q =>
    change Resting supply (((handleStaff q).translate staffCommands).run (Machine.step supply) m).2
    rw [translate_handleStaff]
    exact h.transaction hdistinct (Prog.Uses.translate _ staffCommand_identifies _)
  | booking q =>
    change Resting supply (((inTransaction (route rt q)).translate bookingCommands).run
      (Machine.step supply) m).2
    rw [translate_inTransaction]
    exact h.transaction hdistinct (Prog.Uses.translate _ bookingCommand_identifies _)
  | updateStaff tenantId id dto =>
    refine h.transaction hdistinct (Prog.Uses.bind (uses_update fun _ _ => rfl) fun affected => ?_)
    split
    · exact uses_throw _
    · refine Prog.Uses.bind uses_findOne fun
        | some staff => uses_pure staff
        | none => uses_throw _
  | link tenantId staffId serviceId =>
    refine h.transaction hdistinct (Prog.Uses.bind uses_getStaff fun _ => ?_)
    refine Prog.Uses.bind uses_translate_getService fun _ => uses_mapCode (uses_persist ?_)
    intro id time row hrow
    cases hrow
    rfl
  | unlink tenantId staffId serviceId =>
    exact h.transaction hdistinct (Prog.Uses.bind uses_delete uses_affected)
  | createService tenantId dto =>
    refine h.transaction hdistinct (uses_mapCode (uses_persist ?_))
    intro id time row hrow
    cases hrow
    rfl
  | updateService tenantId id dto =>
    refine h.transaction hdistinct (uses_mapCode ?_)
    refine Prog.Uses.bind (uses_update fun _ _ => rfl) fun affected => ?_
    split
    · exact uses_throw _
    · refine Prog.Uses.bind uses_findOne fun
        | some service => uses_pure service
        | none => uses_throw _
  | removeService tenantId id =>
    exact h.transaction hdistinct (Prog.Uses.bind (uses_update fun _ _ => rfl) uses_affected)

theorem Resting.servedAll (hdistinct : Function.Injective fun n => (supply n).1)
    (requests : List TenantRequest) (h : Resting supply m) :
    Resting supply (servedAll rt supply requests m) := by
  induction requests generalizing m with
  | nil => exact h
  | cons q requests ih => exact ih (h.served hdistinct q)

end Resting

/-! ## Ineligible staff -/

/-- The staff member is soft-deleted or inactive. -/
def Ineligible (db : Store platformSchema) (tenantId staffId : Uuid) : Prop :=
  ∃ r ∈ db .staff, r.id = staffId ∧ r.tenantId = tenantId ∧ (r.deleted = true ∨ r.active = false)

namespace AvailabilityService

/-- Availability offers no slot of an ineligible staff member. -/
theorem not_listed_of_ineligible {db : Store platformSchema} (hkeyed : db.Keyed)
    {tenantId staffId : Uuid} {query : AvailabilityQueryDto} (h : Ineligible db tenantId staffId) :
    ¬Listed tenantId db query staffId := by
  rintro ⟨⟨staff, hstaff, hactive⟩, -⟩
  obtain ⟨r, hr, hid, -, hineligible⟩ := h
  have hmem : staff ∈ rowsOf db .staff tenantId fun r => r.id = staffId :=
    List.mem_of_mem_head? hstaff
  obtain ⟨hstaffMem, hstaffId, -, hlive⟩ := mem_rowsOf.1 hmem
  -- ids are unique, so this is the row that was found
  have hsame : r = staff := by
    refine List.inj_on_of_nodup_map (hkeyed .staff) hr hstaffMem ?_
    have hstaffId : staff.id = staffId := by simpa using hstaffId
    exact hid.trans hstaffId.symm
  subst hsame
  rcases hineligible with hdeleted | hinactive
  · simp [rowLive, hdeleted] at hlive
  · rw [hinactive] at hactive
    cases hactive

end AvailabilityService

/-! ## Creations -/

/-- A request that makes bookings. -/
inductive CreationRequest where
  | single (dto : CreateBookingDto) (idempotencyKey : Option String)
  | series (dto : CreateRecurrenceDto)

namespace CreationRequest

def staffId : CreationRequest → Uuid
  | single dto _ => dto.staffId
  | series dto => dto.staffId

def operation : CreationRequest → Operation
  | single dto key => .create dto key
  | series dto => .createRecurrence dto

/-- The request passes the checks that creation makes. -/
def Accepted (rt : Runtime) (tenantId : Uuid) (db : Store platformSchema) : CreationRequest → Prop
  | single dto key => Answerable rt tenantId db dto key
  | series dto => Acceptable rt tenantId db dto

end CreationRequest

section Creation

variable (rt : Runtime) (supply : ℕ → Uuid × ℤ) (tenantId : Uuid) (q : CreationRequest)
  (m : Machine platformSchema)

/-- If the staff member is ineligible, the request is refused, and no row is inserted. -/
def RefusesIneligible : Prop :=
  Ineligible m.store tenantId q.staffId →
    ∃ e m', ((handle rt ⟨tenantId, q.operation⟩).translate bookingCommands).run
      (Machine.step supply) m = (.error e, m') ∧ m'.store = m.store

variable {rt supply tenantId q m}

/-- A creation succeeds exactly if it passes its checks. -/
theorem creation_ok_iff (hdistinct : Function.Injective fun n => (supply n).1)
    (h : Resting supply m) :
    (∃ response, (((handle rt ⟨tenantId, q.operation⟩).translate bookingCommands).run
      (Machine.step supply) m).1 = .ok response) ↔ q.Accepted rt tenantId m.store := by
  have hunused := h.unused
  obtain ⟨db, tx, n⟩ := m
  obtain rfl : tx = .idle := h.idle
  cases q with
  | single dto key => exact runBooking_ok_iff hunused hdistinct
  | series dto => exact runRecurrence_ok_iff hunused hdistinct

/-- One that fails changes nothing. -/
theorem creation_error (h : Resting supply m) {e : Thrown}
    (herror : (((handle rt ⟨tenantId, q.operation⟩).translate bookingCommands).run
      (Machine.step supply) m).1 = .error e) :
    (((handle rt ⟨tenantId, q.operation⟩).translate bookingCommands).run
      (Machine.step supply) m).2.store =
      m.store := by
  have hnoFault : ∀ k : ℕ, (fun _ => none : ℕ → Option SqlState) k ≠ some exclusionViolation :=
    fun _ h => nomatch h
  obtain ⟨db, tx, n⟩ := m
  obtain rfl : tx = .idle := h.idle
  cases q with
  | single dto key => exact runBooking_error hnoFault herror
  | series dto => exact (runRecurrence_creates hnoFault).failed e herror

theorem creation_refused_iff (hdistinct : Function.Injective fun n => (supply n).1)
    (h : Resting supply m) :
    (∃ e m', ((handle rt ⟨tenantId, q.operation⟩).translate bookingCommands).run
      (Machine.step supply) m =
      (.error e, m') ∧ m'.store = m.store) ↔ ¬q.Accepted rt tenantId m.store := by
  rw [← creation_ok_iff hdistinct h]
  constructor
  · rintro ⟨e, m', hrun, -⟩ ⟨response, hresponse⟩
    rw [hrun] at hresponse
    cases hresponse
  · intro hnot
    have hunchanged := @creation_error rt supply tenantId q m h
    rcases hrun : ((handle rt ⟨tenantId, q.operation⟩).translate bookingCommands).run
      (Machine.step supply) m with ⟨r, m'⟩
    rw [hrun] at hnot hunchanged
    cases r with
    | ok response => exact absurd ⟨response, rfl⟩ hnot
    | error e => exact ⟨e, m', hrun, hunchanged rfl⟩

end Creation

/-- After any requests, a creation refuses an ineligible staff member exactly if it fails another of
its checks. -/
theorem refusesIneligible_iff (rt : Runtime) (supply : ℕ → Uuid × ℤ)
    (hdistinct : Function.Injective fun n => (supply n).1) (m₀ : Machine platformSchema)
    (hresting : Resting supply m₀) (requests : List TenantRequest) (tenantId : Uuid)
    (q : CreationRequest) :
    RefusesIneligible rt supply tenantId q (servedAll rt supply requests m₀) ↔
      (Ineligible (servedAll rt supply requests m₀).store tenantId q.staffId →
        ¬q.Accepted rt tenantId (servedAll rt supply requests m₀).store) := by
  have hrun : Resting supply (servedAll rt supply requests m₀) :=
    hresting.servedAll hdistinct requests
  exact forall_congr' fun _ => creation_refused_iff hdistinct hrun

/-! ## A removed staff member -/

/-- Texts of one instant. -/
def tenantRuntime : Runtime :=
  ⟨fun _ => some 0, fun dto => dto.startsAt, fun _ => "booking", fun _ => []⟩

def sampleMachine : Machine platformSchema := ⟨sampleTenant "UTC" (sampleService 0) [] [], .idle, 0⟩

def sampleCreation : CreationRequest := .single ⟨10, 20, 30, "1970-01-01T00:00:00.000Z"⟩ none

theorem sampleMachine_resting : Resting sampleSupply sampleMachine := by
  have hfresh : FreshIds sampleSupply sampleMachine.store :=
    fresh_of_lt fun τ => by cases τ <;> decide
  exact ⟨rfl, fun k _ => hfresh k, fun _ _ _ _ h => absurd h List.not_mem_nil⟩

/-- An owner unlinks a staff member and removes them. -/
def unlinkedAndRemoved : List TenantRequest := [.unlink 1 10 20, .staff (.remove 1 10)]

theorem refusesIneligible_iff_unlinkedAndRemoved :
    RefusesIneligible tenantRuntime sampleSupply 1 sampleCreation
      (servedAll tenantRuntime sampleSupply unlinkedAndRemoved sampleMachine) := by
  refine (refusesIneligible_iff tenantRuntime sampleSupply sampleSupply_injective sampleMachine
    sampleMachine_resting unlinkedAndRemoved 1 sampleCreation).2 fun _ haccepted => ?_
  obtain ⟨service, slot, hpasses, -⟩ := haccepted
  exact hpasses.linked rfl

/-- An owner removes a staff member. -/
theorem removedStaff_booked :
    ¬RefusesIneligible tenantRuntime sampleSupply 1 sampleCreation
      (servedAll tenantRuntime sampleSupply [.staff (.remove 1 10)] sampleMachine) := by
  intro h
  have hineligible : Ineligible (servedAll tenantRuntime sampleSupply [.staff (.remove 1 10)]
      sampleMachine).store 1 sampleCreation.staffId :=
    ⟨_, List.mem_cons_self, rfl, rfl, .inl rfl⟩
  obtain ⟨e, m', hrun, -⟩ := h hineligible
  cases hrun

end BookingPlatform
