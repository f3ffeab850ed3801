import BookingPlatform.Availability.Placement

/-!
# Agreement of Slots and Bookings

A returned slot can be booked in the state it was computed in, unless a booking that starts after
the local day, or ends before it, overlaps the slot. Windows of working hours stay within the local
day where no transition moves them, so this takes a transition at the end of the day.

## Main definitions

- `CanBook`: a booking request for a slot succeeds and stores its interval.
- `SeesConflicts`: the condition.

## Main results

- `slots_bookable_iff`: the slots of a query can be booked exactly under this condition.
- `seesConflicts_of_steady`: the condition holds on a day without a transition.
-/

namespace BookingPlatform

open Library BaseTenantRepository

/-! ## Slots and bookings -/

/-- A booking request for a slot succeeds, and the row it leaves has the slot's staff member and
interval. -/
def CanBook (rt : PlatformRuntime) (supply : ℕ → Uuid × ℤ) (db : Store platformSchema)
    (tenantId serviceId : Uuid) (slot : AvailabilitySlot) (customerId : Uuid) : Prop :=
  ∀ n, ∃ row m,
    ((handle rt.booking
        ⟨tenantId, .create ⟨slot.staffId, serviceId, customerId, slot.startsAt⟩ none⟩).translate
          bookingCommands).run (Machine.step supply) ⟨db, .idle, n⟩ =
      (.ok (.created (.fresh row.toBooking)), m) ∧
    row ∈ m.store .bookings ∧ row.staffId = slot.staffId ∧
    some row.startsAt = rt.booking.parseDate slot.startsAt ∧
    some row.endsAt = rt.booking.parseDate slot.endsAt

namespace AvailabilityService

section Agreement

variable (rt : AvailabilityRuntime) (now : Instant) (tenantId : Uuid) (db : Store platformSchema)
  (query : AvailabilityQueryDto)

/-- The customers a booking request of the tenant can name. -/
def liveCustomers : List CustomerRow := rowsOf db .customers tenantId fun _ => true

/-- Where a booking occupies a slot of the grid that no blocker overlaps, the booking overlaps the
local day, so that it has been fetched. -/
def SeesConflicts : Prop :=
  ∀ day service tenant, Resolved rt tenantId db query day service tenant →
    liveCustomers tenantId db ≠ [] →
    ∀ staffId ∈ staffIdsOf tenantId db query, Listed tenantId db query staffId →
      ∀ slot, OnGrid rt now tenantId db service tenant.timezone day staffId slot →
        (blockersOf rt now tenantId db service tenant.timezone day staffId).any
          (overlaps slot) = false →
        ∀ b ∈ db .bookings, Occupies tenantId staffId slot b →
          b.startsAt < dayEnd rt now tenant.timezone day ∧
          dayStart rt now tenant.timezone day < b.endsAt

end Agreement

section Agreement

variable {rt : AvailabilityRuntime} {now : Instant} {tenantId : Uuid} {db : Store platformSchema}
  {query : AvailabilityQueryDto} {supply : ℕ → Uuid × ℤ}

/-- A booking that has been fetched blocks the slots it occupies. -/
theorem blocked_of_occupies {service : ServiceRow} {zone : String} {day : ℤ} {staffId : Uuid}
    {slot : MsInterval} {b : StoredBooking} (hb : b ∈ db .bookings)
    (hoccupies : Occupies tenantId staffId slot b)
    (hday : b.startsAt < dayEnd rt now zone day ∧ dayStart rt now zone day < b.endsAt) :
    (blockersOf rt now tenantId db service zone day staffId).any (overlaps slot) = true := by
  obtain ⟨htenant, hstaff, hactive, hlive, hoverlap⟩ := hoccupies
  have hfetched : b ∈ rowsOf db .bookings tenantId fun r =>
      r.staffId = staffId ∧ r.status ∈ activeBookingStatuses ∧ r.startsAt < dayEnd rt now zone day ∧
        dayStart rt now zone day < r.endsAt := by
    refine mem_rowsOf.2 ⟨hb, ?_, congrArg some htenant, ?_⟩
    · simp [hstaff, hactive, hday]
    · simp [rowLive, hlive]
  have hblocker : bookingBlocker service b ∈ blockersOf rt now tenantId db service zone
      day staffId :=
    List.mem_append_right _ (List.mem_map_of_mem hfetched)
  rw [List.any_eq_true]
  refine ⟨bookingBlocker service b, hblocker, ?_⟩
  -- the buffers only make the booking longer
  have hbefore : 0 ≤ (service.bufferBeforeMin : ℤ) * minuteMs :=
    mul_nonneg (Int.natCast_nonneg _) (by decide)
  have hafter : 0 ≤ (service.bufferAfterMin : ℤ) * minuteMs :=
    mul_nonneg (Int.natCast_nonneg _) (by decide)
  have hstart : b.startsAt < slot.stop :=
    (le_max_left _ _).trans_lt (hoverlap.trans_le (min_le_right _ _))
  have hstop : slot.start < b.endsAt :=
    (le_max_right _ _).trans_lt (hoverlap.trans_le (min_le_left _ _))
  simp only [overlaps_iff, bookingBlocker]
  constructor
  · linarith
  · linarith

/-- A staff member that the query asks for, if listed, is linked to the service. -/
theorem linked_of_listed {staffId : Uuid} (hstaff : staffId ∈ staffIdsOf tenantId db query)
    (hlisted : Listed tenantId db query staffId) : linksOf tenantId db query staffId ≠ [] := by
  unfold staffIdsOf at hstaff
  cases hnamed : query.staffId with
  | some _ => exact hlisted.2 (by simp [hnamed])
  | none =>
    rw [hnamed] at hstaff
    obtain ⟨link, hlink, rfl⟩ := List.mem_map.1 hstaff
    obtain ⟨hmem, hservice, htenant, hlive⟩ := mem_rowsOf.1 hlink
    refine List.ne_nil_of_mem (a := link) (mem_rowsOf.2 ⟨hmem, ?_, htenant, hlive⟩)
    simpa using hservice

theorem nthSlot_stop {durationMs start : ℤ} {k : ℕ} :
    (nthSlot durationMs start k).stop = (nthSlot durationMs start k).start + durationMs := by
  simp only [nthSlot]
  ring

/-- A slot of the grid is as long as the service. -/
theorem OnGrid.stop_eq {service : ServiceRow} {zone : String} {day : ℤ} {staffId : Uuid}
    {slot : MsInterval} (h : OnGrid rt now tenantId db service zone day staffId slot) :
    slot.stop = slot.start + service.durationMin * minuteMs := by
  obtain ⟨window, -, k, rfl, -⟩ := h
  exact nthSlot_stop

/-- Every slot returned can be booked, in the state it was computed in, exactly if the bookings
outside the local day leave the slots free. -/
theorem slotsBookable_iff {slots : List AvailabilitySlot} {n : ℕ} {m : Machine platformSchema}
    (hfresh : FreshIds supply db)
    (hslots : (compute rt now tenantId query).run (Machine.step supply)
      ⟨db, .idle, n⟩ = (.ok slots, m)) :
    (∀ slot ∈ slots, ∀ customer ∈ liveCustomers tenantId db,
        CanBook rt.platform supply db tenantId query.serviceId slot customer.id) ↔
      SeesConflicts rt now tenantId db query := by
  have hcomputed := computed_of_run hslots
  constructor
  · intro hbookable day service tenant hresolved hcustomers staffId hstaff hlisted interval
      hgrid hfree b
      hb hoccupies
    obtain ⟨customer, hcustomer⟩ := List.exists_mem_of_ne_nil _ hcustomers
    -- the slot is returned, so it can be booked although it is occupied
    have hoffered : interval ∈ offered rt now tenantId db query service tenant.timezone
        day staffId :=
      mem_offered.2 ⟨hlisted, hgrid, hfree⟩
    obtain ⟨slot, hslot, htoSlot⟩ := exists_slot hcomputed hresolved hstaff hoffered
    obtain ⟨hstartDate, hstopDate, rfl⟩ := toSlot_eq_ok.1 htoSlot
    obtain ⟨row, m', hrun, -⟩ := hbookable _ hslot customer hcustomer 0
    obtain ⟨hcustomerMem, -, hcustomerTenant, hcustomerLive⟩ := mem_rowsOf.1 hcustomer
    have hnamed : (rowsOf db .customers tenantId fun r => r.id = customer.id) ≠ [] :=
      List.ne_nil_of_mem (mem_rowsOf.2 ⟨hcustomerMem, by simp, hcustomerTenant, hcustomerLive⟩)
    have hle : interval.start ≤ interval.stop := by
      have hpos := durationMs_pos service
      rw [hgrid.stop_eq]
      linarith
    obtain ⟨m'', hrefused⟩ := run_book_taken supply rt.platform
      ⟨staffId, query.serviceId, customer.id, rt.toISOString interval.start⟩
      hresolved.service (linked_of_listed hstaff hlisted) hnamed (rt.parse_iso _ hstartDate)
      (hgrid.stop_eq ▸ hstopDate) hle hfresh hb hoccupies 0
    rw [hrefused] at hrun
    cases hrun
  · intro hsees slot hslot customer hcustomer n
    obtain ⟨day, service, tenant, hresolved, -⟩ := computed_eq_ok hcomputed
    obtain ⟨interval, hstaff, hoffered, htoSlot⟩ := (mem_slots hcomputed hresolved).1 hslot
    obtain ⟨hlisted, hgrid, hfree⟩ := mem_offered.1 hoffered
    obtain ⟨hstartDate, hstopDate, hslotEq⟩ := toSlot_eq_ok.1 htoSlot
    obtain ⟨hcustomerMem, -, hcustomerTenant, hcustomerLive⟩ := mem_rowsOf.1 hcustomer
    have hnamed : (rowsOf db .customers tenantId fun r => r.id = customer.id) ≠ [] :=
      List.ne_nil_of_mem (mem_rowsOf.2 ⟨hcustomerMem, by simp, hcustomerTenant, hcustomerLive⟩)
    have hle : interval.start ≤ interval.stop := by
      have hpos := durationMs_pos service
      rw [hgrid.stop_eq]
      linarith
    have hunoccupied : ∀ b ∈ db .bookings, ¬Occupies tenantId slot.staffId interval b := by
      intro b hb hoccupies
      have hday := hsees day service tenant hresolved
        (List.ne_nil_of_mem hcustomer) slot.staffId hstaff
        hlisted interval hgrid hfree b hb hoccupies
      rw [blocked_of_occupies hb hoccupies hday] at hfree
      cases hfree
    have hstartsAt : rt.platform.booking.parseDate slot.startsAt = some interval.start := by
      rw [hslotEq]
      exact rt.parse_iso _ hstartDate
    have hendsAt : rt.platform.booking.parseDate slot.endsAt = some interval.stop := by
      rw [hslotEq]
      exact rt.parse_iso _ hstopDate
    obtain ⟨row, m', hrun, hrow, hrowStaff, hrowStart, hrowStop⟩ := run_book supply
      rt.platform ⟨slot.staffId, query.serviceId, customer.id, slot.startsAt⟩
      hresolved.service (linked_of_listed hstaff hlisted) hnamed hstartsAt
      (hgrid.stop_eq ▸ hstopDate) hle hfresh hunoccupied n
    exact ⟨row, m', hrun, hrow, hrowStaff, by rw [hrowStart, hstartsAt], by rw [hrowStop, hendsAt]⟩

/-- Without a transition on the day, its slots lie within it, and with them all bookings they
overlap. -/
theorem seesConflicts_of_steady
    (hhours : ∀ window ∈ db .workingHours, window.startMin ≤ window.endMin ∧ window.endMin ≤ 1440)
    (hsteady : ∀ day service tenant, Resolved rt tenantId db query day service tenant →
      ∃ o, SteadyDay (rt.zone tenant.timezone) day o) :
    SeesConflicts rt now tenantId db query := by
  rintro day service tenant hresolved _ staffId _ _ slot
    ⟨window, hwindow, k, rfl, hfits⟩ _ b _ hoccupies
  obtain ⟨o, ho⟩ := hsteady day service tenant hresolved
  obtain ⟨horder, hend⟩ := hhours window (mem_rowsOf.1 hwindow).1
  obtain ⟨hstart, hstop⟩ := within_window_steady ho horder hend (durationMs_pos service) hfits
  -- the window lies between the midnights
  have hwindowStart : 0 ≤ (window.startMin : ℤ) * minuteMs :=
    mul_nonneg (Int.natCast_nonneg _) (by decide)
  have hwindowEnd : (window.endMin : ℤ) * minuteMs ≤ dayMs := by
    have hlength : (1440 : ℤ) * minuteMs = dayMs := by decide
    rw [← hlength]
    exact mul_le_mul_of_nonneg_right (by exact_mod_cast hend) (by decide)
  obtain ⟨-, -, -, -, hoverlap⟩ := hoccupies
  have hbefore := (le_max_left _ _).trans_lt (hoverlap.trans_le (min_le_right _ _))
  have hafter := (le_max_right _ _).trans_lt (hoverlap.trans_le (min_le_left _ _))
  rw [dayStart_steady ho, dayEnd_steady ho]
  constructor
  · linarith
  · linarith

/-- Every slot returned can be booked, in the state it was computed in, exactly if the bookings
outside the local day leave the slots free, as they do on a day without a transition. -/
theorem slots_bookable_iff {slots : List AvailabilitySlot} {n : ℕ} {m : Machine platformSchema}
    (hfresh : FreshIds supply db)
    (hslots : (compute rt now tenantId query).run (Machine.step supply)
      ⟨db, .idle, n⟩ = (.ok slots, m)) :
    ((∀ slot ∈ slots, ∀ customer ∈ liveCustomers tenantId db,
        CanBook rt.platform supply db tenantId query.serviceId slot customer.id) ↔
      SeesConflicts rt now tenantId db query) ∧
      ((∀ window ∈ db .workingHours, window.startMin ≤ window.endMin ∧ window.endMin ≤ 1440) →
        (∀ day service tenant, Resolved rt tenantId db query day service tenant →
          ∃ o, SteadyDay (rt.zone tenant.timezone) day o) →
        SeesConflicts rt now tenantId db query) :=
  ⟨slotsBookable_iff hfresh hslots, seesConflicts_of_steady⟩

end Agreement

/-! ## A day that ends in a gap

On 2026-03-28 the clocks of Nuuk go from 23:00 to 24:00, so a window from 23:00 to 23:30 is moved to
the half hour after the day has ended. -/

def nuukTexts : SampleTexts where
  entries := [(1774746000000, "2026-03-29T01:00:00.000Z"),
    (1774747800000, "2026-03-29T01:30:00.000Z")]
  distinct := by decide
  unmarked := by decide

def nuuk : AvailabilityRuntime :=
  sampleAvailability nuukTexts "2026-03-28" 20540 1774746000000 (-7200000) (-3600000)

/-- The half hour is booked already. -/
def nuukDb : Store platformSchema :=
  sampleTenant "America/Nuuk" (sampleService 0) [⟨50, 1, 10, 6, 1380, 1410⟩]
    [sampleBookingAt 1774746000000 1774747800000]

def nuukSlot : AvailabilitySlot := ⟨10, "2026-03-29T01:00:00.000Z", "2026-03-29T01:30:00.000Z"⟩

theorem fresh_nuukDb : FreshIds sampleSupply nuukDb :=
  fresh_of_lt fun τ => by cases τ <;> decide

theorem nuuk_resolved : Resolved nuuk 1 nuukDb (sampleQuery "2026-03-28") 20540 (sampleService 0)
    ⟨⟨"America/Nuuk"⟩, 1⟩ := ⟨rfl, rfl, rfl⟩

theorem nuuk_computed : computed nuuk 0 1 nuukDb (sampleQuery "2026-03-28") = .ok [nuukSlot] := by
  have hslots : (allOffered nuuk 0 1 nuukDb (sampleQuery "2026-03-28")
    (sampleService 0) "America/Nuuk"
      20540 (staffIdsOf 1 nuukDb (sampleQuery "2026-03-28"))).mapM (fun c => toSlot nuuk c.1 c.2) =
        .ok [nuukSlot] := by
    decide +kernel
  rw [computed_resolved nuuk_resolved, hslots]
  exact congrArg Except.ok (List.mergeSort_singleton nuukSlot)

/-- Computing the slots returns the one after the day's end. -/
theorem nuuk_run :
    ∃ n, (compute nuuk 0 1 (sampleQuery "2026-03-28")).run (Machine.step sampleSupply)
    ⟨nuukDb, .idle, 0⟩ = (.ok [nuukSlot], ⟨nuukDb, .idle, n⟩) := by
  have hreads := reads_compute nuuk 0 1 nuukDb (sampleQuery "2026-03-28") sampleSupply
  rw [nuuk_computed] at hreads
  exact hreads.run 0

theorem slots_bookable_iff_nuuk :
    (∀ slot ∈ [nuukSlot], ∀ customer ∈ liveCustomers 1 nuukDb,
        CanBook nuuk.platform sampleSupply nuukDb 1 (sampleQuery "2026-03-28").serviceId slot
          customer.id) ↔
      SeesConflicts nuuk 0 1 nuukDb (sampleQuery "2026-03-28") := by
  obtain ⟨n, hrun⟩ := nuuk_run
  exact (slots_bookable_iff fresh_nuukDb hrun).1

/-- The half hour is returned, but the booking that occupies it starts as the local day ends. -/
theorem slots_not_always_bookable :
    ¬∀ (rt : AvailabilityRuntime) (now : Instant) (tenantId : Uuid) (db : Store platformSchema)
      (query : AvailabilityQueryDto) (supply : ℕ → Uuid × ℤ) (slots : List AvailabilitySlot) (n : ℕ)
      (m : Machine platformSchema), FreshIds supply db →
      (compute rt now tenantId query).run (Machine.step supply) ⟨db, .idle, n⟩ = (.ok slots, m) →
      ∀ slot ∈ slots, ∀ customer ∈ liveCustomers tenantId db,
        CanBook rt.platform supply db tenantId query.serviceId slot customer.id := by
  intro hall
  obtain ⟨n, hrun⟩ := nuuk_run
  -- if it could be booked,
  obtain ⟨row, m, hbooked, -⟩ :=
    hall nuuk 0 1 nuukDb (sampleQuery "2026-03-28") sampleSupply [nuukSlot] 0 _
    fresh_nuukDb hrun nuukSlot List.mem_cons_self
    ⟨⟨30⟩, 1, "Ann", "ann@example.com", none, none⟩ (by decide) 0
  have hstart : nuuk.platform.booking.parseDate "2026-03-29T01:00:00.000Z" =
    some 1774746000000 := by decide
  have hoccupies : Occupies 1 10 ⟨1774746000000, 1774747800000⟩
      (sampleBookingAt 1774746000000 1774747800000) := by decide
  -- but the constraint refuses the row
  obtain ⟨m', hrefused⟩ := run_book_taken sampleSupply nuuk.platform
    ⟨10, 20, 30, "2026-03-29T01:00:00.000Z"⟩ nuuk_resolved.service (by decide)
      (by decide) hstart (by decide) (by decide) fresh_nuukDb List.mem_cons_self hoccupies 0
  have hsame : (.ok (.created (.fresh row.toBooking)), m) =
      ((.error (.app slotTaken), m') : Except Thrown Response × Machine platformSchema) :=
    hbooked.symm.trans hrefused
  cases hsame

end AvailabilityService

end BookingPlatform
