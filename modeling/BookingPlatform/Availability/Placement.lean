import BookingPlatform.Availability.Bookable

/-!
# Bookings on the Platform's Tables

A booking request, run alone on the platform's tables: its lookups, the constraints on the row that
it inserts, and its result.

## Main definitions

- `Occupies`: a booking that the EXCLUDE constraint sees in the way of another one.
- `bookingRow`: the row of a request.

## Main results

- `run_book`, `run_book_taken`: a request for a free interval, and for one that is occupied.
-/

namespace BookingPlatform

open Library BaseTenantRepository

/-! ## A booking request in a state -/

section Request

variable {supply : ℕ → Uuid × ℤ} {db : Store platformSchema} {tenantId : Uuid}

variable (supply db tenantId) in
theorem reads_findService (id : Uuid) :
    ((TenantM.exec (.findService tenantId id)).translate bookingCommands).Reads supply db
      (.ok ((rowsOf db .services tenantId fun r => r.id = id).head?.map (·.toService))) := by
  have hrows : (db .services).filter
        (fun r => r.id = id ∧ r.tenantId = tenantId ∧ r.deletedAt = none) =
      rowsOf db .services tenantId fun r => r.id = id :=
    filter_eq_rowsOf .services fun r => by simp [rowTenant, rowLive]
  rw [← hrows]
  exact Prog.reads_select (Prog.reads_ret _)

variable (supply) in
theorem reads_getService {id : Uuid} {service : ServiceRow}
    (h : (rowsOf db .services tenantId fun r => r.id = id).head? = some service) :
    ((TenantM.getService tenantId id).translate bookingCommands).Reads supply db
      (.ok service.toService) := by
  have hfind := reads_findService supply db tenantId id
  rw [h] at hfind
  unfold TenantM.getService
  rw [Prog.translate_bind]
  exact hfind.bind (Prog.reads_ret _)

variable (supply) in
theorem reads_linked {staffId serviceId : Uuid}
    (h : (rowsOf db .staffServices tenantId fun r =>
      r.staffId = staffId ∧ r.serviceId = serviceId) ≠ []) :
    ((TenantM.canPerform tenantId staffId serviceId).translate bookingCommands).Reads supply db
      (.ok true) := by
  -- the two ways of writing the condition select the same rows
  have hrows : (db .staffServices).filter
        (fun r => r.staffId = staffId ∧ r.serviceId = serviceId ∧ r.tenantId = tenantId) =
      rowsOf db .staffServices tenantId fun r => r.staffId = staffId ∧ r.serviceId = serviceId :=
    filter_eq_rowsOf .staffServices fun r => by simp [rowTenant, rowLive, and_assoc]
  have hsome : ((db .staffServices).filter
      (fun r => r.staffId = staffId ∧ r.serviceId = serviceId ∧
        r.tenantId = tenantId)).head?.isSome =
        true := by
    rw [hrows]
    cases hlist : rowsOf db .staffServices tenantId fun r =>
      r.staffId = staffId ∧ r.serviceId = serviceId with
    | nil => exact absurd hlist h
    | cons r rows => rfl
  unfold TenantM.canPerform
  rw [Prog.translate_bind]
  refine Prog.Reads.bind (Prog.reads_select (Prog.reads_ret _)) ?_
  rw [Option.isSome_map, hsome]
  exact Prog.reads_ret true

variable (supply) in
theorem reads_getCustomer {id : Uuid}
    (h : (rowsOf db .customers tenantId fun r => r.id = id) ≠ []) :
    ∃ customer, ((TenantM.getCustomer tenantId id).translate bookingCommands).Reads supply db
      (.ok customer) := by
  -- the condition of the service is that of the repository
  have hrows : (db .customers).filter
        (fun r => r.id = id ∧ r.tenantId = tenantId ∧ r.deletedAt = none) =
      rowsOf db .customers tenantId fun r => r.id = id :=
    filter_eq_rowsOf .customers fun r => by simp [rowTenant, rowLive]
  cases hlist : rowsOf db .customers tenantId fun r => r.id = id with
  | nil => exact absurd hlist h
  | cons r rows =>
    have hfind : ((TenantM.exec (.findCustomer tenantId id)).translate bookingCommands).Reads supply
      db (.ok (some r.toCustomer)) := by
      refine Prog.reads_select ?_
      rw [hrows, hlist]
      exact Prog.reads_ret _
    refine ⟨r.toCustomer, ?_⟩
    unfold TenantM.getCustomer
    rw [Prog.translate_bind]
    exact hfind.bind (Prog.reads_ret _)

end Request

/-! ## The write -/

/-- An active booking of the staff member has an instant in common with the interval. -/
def Occupies (tenantId staffId : Uuid) (slot : MsInterval) (b : StoredBooking) : Prop :=
  b.tenantId = tenantId ∧ b.staffId = staffId ∧ b.status ∈ activeBookingStatuses ∧
    b.deletedAt = none ∧ max b.startsAt slot.start < min b.endsAt slot.stop

instance (tenantId staffId : Uuid) (slot : MsInterval) (b : StoredBooking) :
    Decidable (Occupies tenantId staffId slot b) :=
  inferInstanceAs (Decidable (_ ∧ _ ∧ _ ∧ _ ∧ _))

/-- No row has an id that the database is going to draw. -/
def FreshIds (supply : ℕ → Uuid × ℤ) (db : Store platformSchema) : Prop :=
  ∀ n τ, ∀ r ∈ db τ, rowId τ r ≠ (supply n).1

theorem fresh_of_lt {db : Store platformSchema} (h : ∀ τ, ∀ r ∈ db τ, rowId τ r < 1000) :
    FreshIds sampleSupply db := by
  intro n τ r hr heq
  have hlt := h τ r hr
  rw [heq] at hlt
  exact absurd hlt (Nat.not_lt.2 (Nat.le_add_right 1000 n))

section Write

variable {supply : ℕ → Uuid × ℤ} {db : Store platformSchema} {tenantId : Uuid}

/-- The row that a booking of the slot makes. -/
def bookingRow (tenantId : Uuid) (dto : CreateBookingDto) (service : Service) (slot : MsInterval)
    (id : Uuid) : StoredBooking where
  id
  tenantId
  staffId := dto.staffId
  serviceId := dto.serviceId
  customerId := dto.customerId
  startsAt := slot.start
  endsAt := slot.stop
  status := .pending
  priceAmount := service.priceAmount
  priceCurrency := service.priceCurrency
  recurrenceId := none
  version := 1
  deletedAt := none

/-- What the constraints say of an active booking beside another one. -/
theorem conflict_of_active {row : StoredBooking} (hactive : row.status ∈ activeBookingStatuses)
    (hlive : row.deletedAt = none) (b : StoredBooking) :
    platformSchema.conflict .bookings b row =
      if b.id = row.id then some uniqueViolation
      else if Occupies row.tenantId row.staffId ⟨row.startsAt, row.endsAt⟩ b then
        some exclusionViolation
      else none := by
  have hexcludes : (b.Excludes row.toBooking ∧ b.deletedAt = none ∧ row.deletedAt = none) ↔
      Occupies row.tenantId row.staffId ⟨row.startsAt, row.endsAt⟩ b := by
    simp only [Booking.Excludes, Occupies]
    constructor
    · rintro ⟨⟨htenant, hstaff, hactive, -, hoverlap⟩, hlive, -⟩
      exact ⟨htenant, hstaff, hactive, hlive, hoverlap⟩
    · rintro ⟨htenant, hstaff, hactive', hlive', hoverlap⟩
      exact ⟨⟨htenant, hstaff, hactive', hactive, hoverlap⟩, hlive', hlive⟩
  simp only [constraint, hexcludes, rowId]

theorem conflict_bookingRow (hfresh : FreshIds supply db) {dto : CreateBookingDto}
    {service : Service} {slot : MsInterval} {n : ℕ} {b : StoredBooking} (hb : b ∈ db .bookings) :
    platformSchema.conflict .bookings b (bookingRow tenantId dto service slot (supply n).1) =
      if Occupies tenantId dto.staffId slot b then some exclusionViolation else none := by
  have hid : b.id ≠ (bookingRow tenantId dto service slot (supply n).1).id :=
    hfresh n .bookings b hb
  have hactive : BookingStatus.pending ∈ activeBookingStatuses := by decide
  rw [conflict_of_active hactive rfl, if_neg hid]
  rfl

/-- The EXCLUDE constraint admits the row if no booking occupies the slot. -/
theorem refusal_bookingRow_none (hfresh : FreshIds supply db) {dto : CreateBookingDto}
    {service : Service} {slot : MsInterval} {n : ℕ}
    (hfree : ∀ b ∈ db .bookings, ¬Occupies tenantId dto.staffId slot b) :
    refusal (db .bookings) (bookingRow tenantId dto service slot (supply n).1) = none := by
  refine List.findSome?_eq_none_iff.2 fun b hb => ?_
  rw [conflict_bookingRow hfresh hb, if_neg (hfree b hb)]

/-- It refuses the row if one does. -/
theorem refusal_bookingRow_some (hfresh : FreshIds supply db) {dto : CreateBookingDto}
    {service : Service} {slot : MsInterval} {n : ℕ} {b : StoredBooking} (hb : b ∈ db .bookings)
    (hoccupies : Occupies tenantId dto.staffId slot b) :
    refusal (db .bookings) (bookingRow tenantId dto service slot (supply n).1) =
      some exclusionViolation := by
  have hsome : (refusal (db .bookings)
      (bookingRow tenantId dto service slot (supply n).1)).isSome := by
    rw [refusal, List.isSome_findSome?, List.any_eq_true]
    refine ⟨b, hb, ?_⟩
    rw [conflict_bookingRow hfresh hb, if_pos hoccupies]
    rfl
  obtain ⟨code, hcode⟩ := Option.isSome_iff_exists.1 hsome
  obtain ⟨b', hb', hb'code⟩ := List.exists_of_findSome?_eq_some hcode
  rw [conflict_bookingRow hfresh hb'] at hb'code
  split at hb'code
  · exact hcode.trans hb'code.symm
  · cases hb'code

section Run

variable {rt : PlatformRuntime} {dto : CreateBookingDto} {service : ServiceRow} {slot : MsInterval}

/-- The statement that inserts the booking of a slot. -/
def insertSlot (rt : PlatformRuntime) (tenantId : Uuid) (dto : CreateBookingDto)
    (service : Service) :
    BookingData :=
  let startsAt := rt.booking.parseDate dto.startsAt
  { tenantId, staffId := dto.staffId, serviceId := dto.serviceId,
    customerId := dto.customerId, startsAt,
    endsAt := addMs startsAt (service.durationMin * minuteMs), status := .pending,
    priceAmount := service.priceAmount, priceCurrency :=
      service.priceCurrency, recurrenceId := none }

theorem stored_insertSlot (hstart : rt.booking.parseDate dto.startsAt = some slot.start)
    (hstop : newDate (slot.start + service.durationMin * minuteMs) = some slot.stop)
    (hle : slot.start ≤ slot.stop) (id : Uuid) :
    (insertSlot rt tenantId dto service.toService).stored id =
      .ok (bookingRow tenantId dto service.toService slot id) := by
  have hend : addMs (some slot.start) (service.durationMin * minuteMs) = some slot.stop := hstop
  simp [BookingData.stored, insertSlot, BookingData.row, hstart, hend, checkedRange,
    hle, bookingRow]

/-- A statement that succeeds. -/
theorem run_exec_ok {s : Statement} {m : Machine platformSchema} {v : s.Result}
    (h : bookingAnswer s (Machine.step supply (bookingCommand s) m).1 = .ok v) :
    ((TenantM.exec s).translate bookingCommands).run (Machine.step supply) m =
      (.ok v, (Machine.step supply (bookingCommand s) m).2) := by
  unfold TenantM.exec Prog.translate Prog.run
  simp only [bookingCommands]
  rw [h]
  rfl

/-- A statement that fails. -/
theorem run_exec_error {s : Statement} {m : Machine platformSchema} {code : SqlState}
    (h : bookingAnswer s (Machine.step supply (bookingCommand s) m).1 = .error code) :
    ((TenantM.exec s).translate bookingCommands).run (Machine.step supply) m =
      (.error (.query code), (Machine.step supply (bookingCommand s) m).2) := by
  unfold TenantM.exec Prog.translate Prog.run
  simp only [bookingCommands]
  rw [h]
  rfl

/-- A transaction whose body returns commits what the body has written. -/
theorem run_inTransaction_ok {α : Type} {body : TenantM α} {v : α} {m : Machine platformSchema}
    {tx : Tx platformSchema} {n : ℕ}
    (h : (body.translate bookingCommands).run (Machine.step supply) m = (.ok v, ⟨db, tx, n⟩))
    (hrunning : tx.aborted = false) :
    ((inTransaction body).translate bookingCommands).run (Machine.step supply) m =
      (.ok v, ⟨tx.view db, .idle, n + 1⟩) := by
  have hcommit : Machine.step supply (bookingCommand .commit) ⟨db, tx, n⟩ =
      (.ok (), ⟨tx.view db, .idle, n + 1⟩) := Machine.step_commit hrunning
  have hanswer : bookingAnswer .commit
      (Machine.step supply (bookingCommand .commit) ⟨db, tx, n⟩).1 = .ok () := by
    rw [hcommit]
    rfl
  unfold inTransaction
  rw [Prog.translate_bind, Prog.translate_tryCatch, Prog.run_bind, Prog.run_tryCatch, h]
  dsimp only
  rw [Prog.translate_bind, Prog.run_bind, run_exec_ok hanswer, hcommit]
  rfl

/-- One whose body throws leaves the rows as they were. -/
theorem run_inTransaction_error {α : Type} {body : TenantM α} {e : Thrown}
    {m : Machine platformSchema} {tx : Tx platformSchema} {n : ℕ}
    (h : (body.translate bookingCommands).run (Machine.step supply) m = (.error e, ⟨db, tx, n⟩)) :
    ((inTransaction body).translate bookingCommands).run (Machine.step supply) m =
      (.error e, ⟨db, .idle, n + 1⟩) := by
  unfold inTransaction
  rw [Prog.translate_bind, Prog.translate_tryCatch, Prog.run_bind, Prog.run_tryCatch, h]
  rfl

variable (supply rt) in
/-- The lookups of `doCreate` succeed and lead to the insert. -/
theorem run_doCreate (n : ℕ)
    (hservice : (rowsOf db .services tenantId fun r => r.id = dto.serviceId).head? = some service)
    (hlinked : (rowsOf db .staffServices tenantId fun r =>
      r.staffId = dto.staffId ∧ r.serviceId = dto.serviceId) ≠ [])
    (hcustomer : (rowsOf db .customers tenantId fun r => r.id = dto.customerId) ≠ []) :
    ∃ n', ((BookingService.doCreate rt.booking tenantId dto).translate bookingCommands).run
        (Machine.step supply) ⟨db, .idle, n⟩ =
      ((do
        let booking ← BookingRepository.create (insertSlot rt tenantId dto service.toService)
        let _ ← BookingService.emit tenantId booking "booking.created"
        return booking : TenantM Booking).translate bookingCommands).run
        (Machine.step supply) ⟨db, .idle, n'⟩ := by
  obtain ⟨customer, hcustomer⟩ := reads_getCustomer supply hcustomer
  obtain ⟨n₁, h₁⟩ := (reads_getService supply hservice).run n
  obtain ⟨n₂, h₂⟩ := (reads_linked supply hlinked).run n₁
  obtain ⟨n₃, h₃⟩ := hcustomer.run n₂
  refine ⟨n₃, ?_⟩
  unfold BookingService.doCreate
  rw [Prog.translate_bind, Prog.run_bind, h₁]
  dsimp only
  rw [Prog.translate_bind, Prog.run_bind, h₂]
  simp only [Bool.not_true, Bool.false_eq_true, if_false]
  rw [Prog.translate_bind, Prog.run_bind, h₃]
  rfl

/-- The booking row in the transaction that inserted it. -/
def insertedBooking (row : StoredBooking) : Tx platformSchema := ⟨[.put .bookings row], [], false⟩

theorem view_inserted (db : Store platformSchema) (row : StoredBooking) :
    (insertedBooking row).view db =
      Function.update db .bookings (upsert (D := platformSchema) row (db .bookings)) :=
  rfl

/-- The row of an event, with the id and the time that the database draws. -/
def eventRow (tenantId : Uuid) (input : RecordEventInput) (drawn : Uuid × ℤ) : OutboxEvent :=
  { toRecordEventInput := input, id := drawn.1, tenantId, status := .pending, attempts := 0,
    availableAt := drawn.2, createdAt := drawn.2 }

/-- The booking row and its event in the transaction that inserted them. -/
def recorded (row : StoredBooking) (event : OutboxEvent) : Tx platformSchema :=
  ⟨[.put .bookings row, .put .outboxEvents event], [], false⟩

/-- The event is written to another table. -/
theorem mem_recorded (row : StoredBooking) (event : OutboxEvent) :
    row ∈ (recorded row event).view db .bookings := by
  change row ∈ Store.apply (Store.apply db (.put .bookings row))
    (.put .outboxEvents event) .bookings
  rw [Store.apply_put_of_ne _ _ (by decide), Store.apply_put_self]
  exact mem_upsert_self row (db .bookings)

variable (supply tenantId) in
theorem run_emit (hfresh : FreshIds supply db) (row : StoredBooking) (input : RecordEventInput)
    (n : ℕ) :
    ((TenantM.exec (.insertEvent tenantId input)).translate bookingCommands).run
        (Machine.step supply) ⟨db, insertedBooking row, n⟩ =
      (.ok (eventRow tenantId input (supply n)),
        ⟨db, recorded row (eventRow tenantId input (supply n)), n + 1⟩) := by
  have hevents : (insertedBooking row).view db .outboxEvents = db .outboxEvents := by
    rw [view_inserted]
    exact Function.update_of_ne (by decide) _ _
  -- the only constraint on events is the primary key
  have hfree : refusal (D := platformSchema) ((insertedBooking row).view db .outboxEvents)
      (eventRow tenantId input (supply n)) = none := by
    rw [hevents]
    refine List.findSome?_eq_none_iff.2 fun e he => ?_
    have hne : rowId .outboxEvents e ≠ rowId .outboxEvents (eventRow tenantId input (supply n)) :=
      hfresh n .outboxEvents e he
    simp only [hne, if_false, constraint]
  have hstep : Machine.step supply (bookingCommand (.insertEvent tenantId input))
    ⟨db, insertedBooking row, n⟩ = (.ok (eventRow tenantId input (supply n)),
        ⟨db, recorded row (eventRow tenantId input (supply n)), n + 1⟩) :=
    Machine.step_insert rfl rfl hfree
  have hanswer : bookingAnswer (.insertEvent tenantId input)
      (Machine.step supply (bookingCommand (.insertEvent tenantId input))
        ⟨db, insertedBooking row, n⟩).1 =
        .ok (eventRow tenantId input (supply n)) := by
    rw [hstep]
    rfl
  rw [run_exec_ok hanswer, hstep]

variable (supply) in
/-- The repository's `create` on a row that no constraint refuses. -/
theorem run_create {data : BookingData} {row : StoredBooking} {n : ℕ}
    (hdata : data.stored (supply n).1 = .ok row)
    (hfree : refusal (D := platformSchema) (τ := .bookings) (db .bookings) row = none) :
    ((BookingRepository.create data).translate bookingCommands).run (Machine.step supply)
        ⟨db, .idle, n⟩ = (.ok row.toBooking, ⟨db, insertedBooking row, n + 1⟩) := by
  have hstep : Machine.step supply (bookingCommand (.insertBooking data)) ⟨db, .idle, n⟩ =
      (.ok row, ⟨db, insertedBooking row, n + 1⟩) := Machine.step_insert rfl hdata hfree
  have hanswer : bookingAnswer (.insertBooking data)
      (Machine.step supply (bookingCommand (.insertBooking data)) ⟨db, .idle, n⟩).1 =
        .ok row.toBooking := by
    rw [hstep]
    rfl
  unfold BookingRepository.create
  rw [Prog.translate_tryCatch, Prog.run_tryCatch, run_exec_ok hanswer, hstep]

/-- The error that a violated EXCLUDE constraint is mapped to. -/
def slotTaken : AppException :=
  ⟨409, "BOOKING_SLOT_TAKEN", "This time slot is no longer available"⟩

variable (supply) in
/-- The repository's `create` on a row that the EXCLUDE constraint refuses. -/
theorem run_create_taken {data : BookingData} {row : StoredBooking} {n : ℕ}
    (hdata : data.stored (supply n).1 = .ok row)
    (htaken : refusal (D := platformSchema) (τ := .bookings) (db .bookings) row =
      some exclusionViolation) :
    ((BookingRepository.create data).translate bookingCommands).run (Machine.step supply)
        ⟨db, .idle, n⟩ = (.error (.app slotTaken), ⟨db, ⟨[], [], true⟩, n + 1⟩) := by
  have hstep : Machine.step supply (bookingCommand (.insertBooking data)) ⟨db, .idle, n⟩ =
      (.error exclusionViolation, ⟨db, ⟨[], [], true⟩, n + 1⟩) :=
    Machine.step_insert_refused rfl hdata htaken
  have hanswer : bookingAnswer (.insertBooking data)
      (Machine.step supply (bookingCommand (.insertBooking data)) ⟨db, .idle, n⟩).1 =
        .error exclusionViolation := by
    rw [hstep]
    rfl
  unfold BookingRepository.create
  rw [Prog.translate_tryCatch, Prog.run_tryCatch, run_exec_error hanswer, hstep]
  rfl

/-- The request for the slot is `doCreate` in a transaction, and its result in a response. -/
theorem run_route {m m' : Machine platformSchema} {r : Except Thrown Booking}
    (h : ((BookingService.doCreate rt.booking tenantId dto).translate bookingCommands).run
      (Machine.step supply) m = (r, m')) :
    ((route rt.booking ⟨tenantId, .create dto none⟩).translate bookingCommands).run
      (Machine.step supply) m = (r.map fun b => .created (.fresh b), m') := by
  have hroute : route rt.booking ⟨tenantId, .create dto none⟩ =
      (BookingService.doCreate rt.booking tenantId dto >>= fun b =>
        Prog.ret (CreateResult.fresh b)) >>=
        fun b => Prog.ret (Response.created b) := rfl
  rw [hroute, Prog.translate_bind, Prog.run_bind, Prog.translate_bind, Prog.run_bind, h]
  cases r <;> rfl

variable
  (hservice : (rowsOf db .services tenantId fun r => r.id = dto.serviceId).head? = some service)
  (hlinked : (rowsOf db .staffServices tenantId fun r =>
    r.staffId = dto.staffId ∧ r.serviceId = dto.serviceId) ≠ [])
  (hcustomer : (rowsOf db .customers tenantId fun r => r.id = dto.customerId) ≠ [])
  (hstart : rt.booking.parseDate dto.startsAt = some slot.start)
  (hstop : newDate (slot.start + service.durationMin * minuteMs) = some slot.stop)
  (hle : slot.start ≤ slot.stop)

include hservice hlinked hcustomer hstart hstop hle

variable (supply rt dto) in
/-- A request for a slot that no booking occupies succeeds, and the row has the slot's interval. -/
theorem run_book (hfresh : FreshIds supply db)
    (hfree : ∀ b ∈ db .bookings, ¬Occupies tenantId dto.staffId slot b) (n : ℕ) :
    ∃ row m, ((handle rt.booking ⟨tenantId, .create dto none⟩).translate bookingCommands).run
        (Machine.step supply) ⟨db, .idle, n⟩ = (.ok (.created (.fresh row.toBooking)), m) ∧
      row ∈ m.store .bookings ∧ row.staffId = dto.staffId ∧ row.startsAt = slot.start ∧
      row.endsAt = slot.stop := by
  -- the lookups succeed, and only the two inserts are left
  obtain ⟨n', hdoCreate⟩ := run_doCreate supply rt n hservice hlinked hcustomer
  let row := bookingRow tenantId dto service.toService slot (supply n').1
  let input : RecordEventInput :=
    { aggregateType := "booking", aggregateId := row.id, eventType := "booking.created",
      payload := BookingService.payload row.toBooking }
  -- no row is in the way of the constraint
  have hcreate := run_create supply (n := n')
    (stored_insertSlot hstart hstop hle (supply n').1) (refusal_bookingRow_none hfresh hfree)
  -- and the outbox accepts every event
  have hemit := run_emit supply tenantId hfresh row input (n' + 1)
  have hbody : ((BookingService.doCreate rt.booking tenantId dto).translate bookingCommands).run
      (Machine.step supply) ⟨db, .idle, n⟩ =
        (.ok row.toBooking,
          ⟨db, recorded row (eventRow tenantId input (supply (n' + 1))), n' + 1 + 1⟩) := by
    rw [hdoCreate, Prog.translate_bind, Prog.run_bind, hcreate]
    dsimp only
    rw [Prog.translate_bind, Prog.run_bind]
    unfold BookingService.emit
    rw [hemit]
    rfl
  have hroute : ((route rt.booking ⟨tenantId, .create dto none⟩).translate bookingCommands).run
      (Machine.step supply) ⟨db, .idle, n⟩ =
        (.ok (.created (.fresh row.toBooking)),
          ⟨db, recorded row (eventRow tenantId input (supply (n' + 1))), n' + 1 + 1⟩) :=
            run_route hbody
  refine ⟨row, _, run_inTransaction_ok hroute rfl, ?_, rfl, rfl, rfl⟩
  exact mem_recorded row (eventRow tenantId input (supply (n' + 1)))

variable (supply rt dto) in
/-- A request for a slot that a booking occupies is refused. -/
theorem run_book_taken (hfresh : FreshIds supply db) {b : StoredBooking} (hb : b ∈ db .bookings)
    (hoccupies : Occupies tenantId dto.staffId slot b) (n : ℕ) :
    ∃ m, ((handle rt.booking ⟨tenantId, .create dto none⟩).translate bookingCommands).run
        (Machine.step supply) ⟨db, .idle, n⟩ = (.error (.app slotTaken), m) := by
  obtain ⟨n', hdoCreate⟩ := run_doCreate supply rt n hservice hlinked hcustomer
  have hcreate := run_create_taken supply (n := n')
    (stored_insertSlot hstart hstop hle (supply n').1) (refusal_bookingRow_some hfresh hb hoccupies)
  have hbody : ((BookingService.doCreate rt.booking tenantId dto).translate bookingCommands).run
      (Machine.step supply) ⟨db, .idle, n⟩ =
        (.error (.app slotTaken), ⟨db, ⟨[], [], true⟩, n' + 1⟩) := by
    rw [hdoCreate, Prog.translate_bind, Prog.run_bind, hcreate]
  have hroute : ((route rt.booking ⟨tenantId, .create dto none⟩).translate bookingCommands).run
      (Machine.step supply) ⟨db, .idle, n⟩ =
        (.error (.app slotTaken), ⟨db, ⟨[], [], true⟩, n' + 1⟩) := run_route hbody
  exact ⟨_, run_inTransaction_error hroute⟩

end Run

end Write

end BookingPlatform
