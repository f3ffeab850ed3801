import BookingPlatform.Availability.Service
import Mathlib.Tactic.Linarith
import Mathlib.Tactic.Positivity
import Mathlib.Tactic.Ring

/-!
# Slots that can be Booked

What `compute` returns on a database, as a list of intervals without statements, and when booking a
returned slot succeeds. The read model looks for bookings between the start and the end of the local
day only, while the EXCLUDE constraint sees every booking.

## Main definitions

- `AvailabilityService.offered`: the intervals offered for one staff member.

## Main results

- `AvailabilityService.reads_compute`: `compute` offers those intervals.
- `AvailabilityService.mem_offered`: which ones they are.
-/

namespace BookingPlatform

open Library BaseTenantRepository

/-! ## The loop over a window -/

section Slots

variable {durationMs stop : ℤ} {blockers : List MsInterval}

@[simp] theorem overlaps_iff {a b : MsInterval} :
    overlaps a b = true ↔ a.start < b.stop ∧ b.start < a.stop := decide_eq_true_iff

/-- The `k`-th slot from `start` on. -/
def nthSlot (durationMs start : ℤ) (k : ℕ) : MsInterval :=
  ⟨start + k * durationMs, start + (k + 1) * durationMs⟩

theorem nthSlot_succ (durationMs start : ℤ) (k : ℕ) :
    nthSlot durationMs start (k + 1) = nthSlot durationMs (start + durationMs) k := by
  simp only [nthSlot, MsInterval.mk.injEq]
  push_cast
  constructor <;> ring

theorem mem_slotsFrom (hd : 0 < durationMs) {n : ℕ} {start : ℤ} {slot : MsInterval} :
    slot ∈ slotsFrom durationMs blockers stop n start ↔
      ∃ k < n, slot = nthSlot durationMs start k ∧ slot.stop ≤ stop ∧
        blockers.any (overlaps slot) = false := by
  induction n generalizing start with
  | zero => simp [slotsFrom]
  | succ n ih =>
    have hzero : nthSlot durationMs start 0 = ⟨start, start + durationMs⟩ := by simp [nthSlot]
    -- the slots after the first one are those of the rest of the window
    have hrest : slot ∈ slotsFrom durationMs blockers stop n (start + durationMs) ↔
        ∃ k < n, slot = nthSlot durationMs start (k + 1) ∧ slot.stop ≤ stop ∧
          blockers.any (overlaps slot) = false := by
      simp only [ih, nthSlot_succ]
    have hsplit : (∃ k < n + 1, slot = nthSlot durationMs start k ∧ slot.stop ≤ stop ∧
          blockers.any (overlaps slot) = false) ↔
        (slot = ⟨start, start + durationMs⟩ ∧ slot.stop ≤ stop ∧
          blockers.any (overlaps slot) = false) ∨
        ∃ k < n, slot = nthSlot durationMs start (k + 1) ∧ slot.stop ≤ stop ∧
          blockers.any (overlaps slot) = false := by
      constructor
      · rintro ⟨k, hk, hslot⟩
        cases k with
        | zero => exact .inl (hzero ▸ hslot)
        | succ k => exact .inr ⟨k, Nat.lt_of_succ_lt_succ hk, hslot⟩
      · rintro (hslot | ⟨k, hk, hslot⟩)
        · exact ⟨0, Nat.succ_pos n, hzero.symm ▸ hslot⟩
        · exact ⟨k + 1, Nat.succ_lt_succ hk, hslot⟩
    rw [hsplit, ← hrest]
    simp only [slotsFrom]
    by_cases hfits : start + durationMs ≤ stop
    · by_cases hblocked : blockers.any (overlaps ⟨start, start + durationMs⟩) = true
      · rw [if_pos hfits, if_pos hblocked]
        constructor
        · exact .inr
        · rintro (⟨rfl, -, hfree⟩ | hrest)
          · rw [hblocked] at hfree
            cases hfree
          · exact hrest
      · rw [if_pos hfits, if_neg hblocked, List.mem_cons]
        constructor
        · rintro (rfl | hrest)
          · exact .inl ⟨rfl, hfits, by simpa using hblocked⟩
          · exact .inr hrest
        · rintro (⟨rfl, -⟩ | hrest)
          · exact .inl rfl
          · exact .inr hrest
    · rw [if_neg hfits]
      -- no later slot fits either
      constructor
      · exact fun h => absurd h List.not_mem_nil
      · rintro (⟨rfl, hstop, -⟩ | hrest')
        · exact absurd hstop hfits
        · obtain ⟨k, -, rfl, hstop, -⟩ := hrest.1 hrest'
          have hlater : 0 ≤ (k : ℤ) * durationMs := by positivity
          simp only [nthSlot] at hstop
          push_cast at hstop
          nlinarith

/-- The slots of a window: those that fit and overlap no blocker. -/
theorem mem_generateSlots (hd : 0 < durationMs) {window slot : MsInterval} :
    slot ∈ generateSlots window durationMs blockers ↔
      ∃ k, slot = nthSlot durationMs window.start k ∧ slot.stop ≤ window.stop ∧
        blockers.any (overlaps slot) = false := by
  rw [generateSlots, mem_slotsFrom hd]
  constructor
  · rintro ⟨k, -, h⟩
    exact ⟨k, h⟩
  · rintro ⟨k, rfl, hstop, hfree⟩
    refine ⟨k, ?_, rfl, hstop, hfree⟩
    -- the slot fits, so the loop gets as far
    have hfits : ((k : ℤ) + 1) * durationMs ≤ window.stop - window.start := by
      simp only [nthSlot] at hstop
      linarith
    have hcount : (k : ℤ) + 1 ≤ (window.stop - window.start) / durationMs :=
      (Int.le_ediv_iff_mul_le hd).2 hfits
    omega

end Slots

/-! ## What `compute` reads -/

namespace AvailabilityService

section Offered

variable (rt : AvailabilityRuntime) (now : Instant) (tenantId : Uuid) (db : Store platformSchema)
  (query : AvailabilityQueryDto) (service : ServiceRow) (zone : String) (day : ℤ) (staffId : Uuid)

def dayStart : Instant := localMinutesToUtc rt now zone day 0

def dayEnd : Instant := localMinutesToUtc rt now zone day 1440

/-- The links of a staff member with the queried service. -/
def linksOf : List StaffServiceRow :=
  rowsOf db .staffServices tenantId fun r => r.staffId = staffId ∧ r.serviceId = query.serviceId

def staffOf : Option Staff := (rowsOf db .staff tenantId fun r => r.id = staffId).head?

def hoursOf : List WorkingHours :=
  rowsOf db .workingHours tenantId fun r =>
    r.staffId = staffId ∧ r.weekday = weekdayInZone rt now zone day

/-- The time off and the bookings that overlap the day, as blockers. -/
def blockersOf : List MsInterval :=
  (rowsOf db .timeOff tenantId fun r =>
      r.staffId = staffId ∧ r.startsAt < dayEnd rt now zone day ∧
      dayStart rt now zone day < r.endsAt).map
    offBlocker ++
  (rowsOf db .bookings tenantId fun r =>
      r.staffId = staffId ∧ r.status ∈ activeBookingStatuses ∧ r.startsAt < dayEnd rt now zone day ∧
        dayStart rt now zone day < r.endsAt).map
    (bookingBlocker service)

/-- The intervals that are offered for a staff member. -/
def offered : List MsInterval :=
  match staffOf tenantId db staffId with
  | none => []
  | some staff =>
    if (query.staffId.isSome ∧ linksOf tenantId db query staffId = []) ∨
      staff.active = false then []
    else (hoursOf rt now tenantId db zone day staffId).flatMap fun window =>
      generateSlots (windowInterval rt now zone day window) (service.durationMin * minuteMs)
        (blockersOf rt now tenantId db service zone day staffId)

/-- The staff members that a query asks for. -/
def staffIdsOf : List Uuid :=
  match query.staffId with
  | some staffId => [staffId]
  | none => (rowsOf db .staffServices tenantId fun r =>
    r.serviceId = query.serviceId).map (·.staffId)

/-- All intervals offered, with their staff members. -/
def allOffered (staffIds : List Uuid) : List (Uuid × MsInterval) :=
  staffIds.flatMap fun staffId =>
    (offered rt now tenantId db query service zone day staffId).map (staffId, ·)

end Offered

/-! ## Which intervals are offered -/

section Mem

variable {rt : AvailabilityRuntime} {now : Instant} {tenantId : Uuid} {db : Store platformSchema}
  {query : AvailabilityQueryDto} {service : ServiceRow} {zone : String} {day : ℤ} {staffId : Uuid}

variable (tenantId db query staffId) in
/-- Slots are offered for the staff member: one who exists, is active, and is linked to the service
when the query names them. -/
def Listed : Prop :=
  (∃ staff, staffOf tenantId db staffId = some staff ∧ staff.active = true) ∧
    (query.staffId.isSome → linksOf tenantId db query staffId ≠ [])

variable (rt now tenantId db service zone day staffId) in
/-- A slot of the grid in one of the staff member's windows of the day. -/
def OnGrid (slot : MsInterval) : Prop :=
  ∃ window ∈ hoursOf rt now tenantId db zone day staffId, ∃ k,
    slot = nthSlot (service.durationMin * minuteMs)
      (windowInterval rt now zone day window).start k ∧
      slot.stop ≤ (windowInterval rt now zone day window).stop

theorem durationMs_pos (service : ServiceRow) : 0 < service.durationMin * minuteMs :=
  mul_pos service.duration_pos (by decide)

/-- The intervals offered are the slots of the grid that overlap no blocker. -/
theorem mem_offered {slot : MsInterval} :
    slot ∈ offered rt now tenantId db query service zone day staffId ↔
      Listed tenantId db query staffId ∧ OnGrid rt now tenantId db service zone day staffId slot ∧
        (blockersOf rt now tenantId db service zone day staffId).any (overlaps slot) = false := by
  unfold offered Listed OnGrid
  cases staffOf tenantId db staffId with
  | none => simp
  | some staff =>
    dsimp only
    -- the staff member is skipped before any slot is cut, or not at all
    by_cases hlisted : staff.active = true ∧
      (query.staffId.isSome → linksOf tenantId db query staffId ≠ [])
    · have hnot : ¬((query.staffId.isSome ∧ linksOf tenantId db query staffId = []) ∨
          staff.active = false) := by
        rintro (⟨hnamed, hnone⟩ | hinactive)
        · exact hlisted.2 hnamed hnone
        · rw [hlisted.1] at hinactive
          cases hinactive
      rw [if_neg hnot]
      simp only [List.mem_flatMap, mem_generateSlots (durationMs_pos service)]
      constructor
      · rintro ⟨window, hwindow, k, hslot, hfits, hfree⟩
        exact ⟨⟨⟨staff, rfl, hlisted.1⟩, hlisted.2⟩, ⟨window, hwindow, k, hslot, hfits⟩, hfree⟩
      · rintro ⟨-, ⟨window, hwindow, k, hslot, hfits⟩, hfree⟩
        exact ⟨window, hwindow, k, hslot, hfits, hfree⟩
    · have hnot : (query.staffId.isSome ∧ linksOf tenantId db query staffId = []) ∨
          staff.active = false := by
        by_contra hcon
        push Not at hcon
        exact hlisted ⟨by simpa using hcon.2, hcon.1⟩
      rw [if_pos hnot]
      constructor
      · exact fun h => absurd h List.not_mem_nil
      · rintro ⟨⟨⟨staff', hstaff', hactive⟩, hlinked⟩, -⟩
        cases hstaff'
        exact absurd ⟨hactive, hlinked⟩ hlisted

theorem mem_allOffered {staffIds : List Uuid} {c : Uuid × MsInterval} :
    c ∈ allOffered rt now tenantId db query service zone day staffIds ↔
      c.1 ∈ staffIds ∧ c.2 ∈ offered rt now tenantId db query service zone day c.1 := by
  obtain ⟨staffId, slot⟩ := c
  simp only [allOffered, List.mem_flatMap, List.mem_map, Prod.mk.injEq]
  constructor
  · rintro ⟨staffId', hstaff, slot', hslot, rfl, rfl⟩
    exact ⟨hstaff, hslot⟩
  · rintro ⟨hstaff, hslot⟩
    exact ⟨staffId, hstaff, slot, hslot, rfl, rfl⟩

end Mem

section Reading

variable {rt : AvailabilityRuntime} {now : Instant} {tenantId : Uuid} {db : Store platformSchema}
  {query : AvailabilityQueryDto} {service : ServiceRow} {zone : String} {day : ℤ} {staffId : Uuid}
  {supply : ℕ → Uuid × ℤ}

theorem reads_canPerform (serviceId : Uuid) :
    (StaffServiceService.canPerform tenantId staffId serviceId).Reads supply db
      (.ok (rowsOf db .staffServices tenantId fun r =>
        r.staffId = staffId ∧ r.serviceId = serviceId).head?.isSome) :=
  reads_findOne.bind (Prog.reads_ret _)

theorem reads_buildBlockers :
    (buildBlockers tenantId staffId (dayStart rt now zone day)
      (dayEnd rt now zone day) service).Reads
      supply db (.ok (blockersOf rt now tenantId db service zone day staffId)) :=
  reads_findMany.bind (reads_findMany.bind (Prog.reads_ret _))

theorem reads_isCapable :
    (isCapable tenantId query staffId).Reads supply db
      (.ok !decide (query.staffId.isSome ∧ linksOf tenantId db query staffId = [])) := by
  unfold isCapable
  -- only a member who is named in the query is looked up
  by_cases hnamed : query.staffId.isSome
  · have hlink : (rowsOf db .staffServices tenantId fun r =>
          r.staffId = staffId ∧ r.serviceId = query.serviceId).head?.isSome =
        !decide (query.staffId.isSome ∧ linksOf tenantId db query staffId = []) := by
      simp only [hnamed, true_and]
      unfold linksOf
      cases rowsOf db .staffServices tenantId fun r =>
        r.staffId = staffId ∧ r.serviceId = query.serviceId <;> simp
    rw [if_pos hnamed, ← hlink]
    exact reads_canPerform query.serviceId
  · rw [if_neg hnamed]
    simp only [hnamed, Bool.false_eq_true, false_and, decide_false, Bool.not_false]
    exact Prog.reads_ret true

variable (supply rt now tenantId db query service zone day staffId) in
theorem reads_staffSlots :
    (staffSlots rt now tenantId query service zone day staffId).Reads supply db
      ((offered rt now tenantId db query service zone day staffId).mapM (toSlot rt staffId)) := by
  unfold staffSlots
  refine reads_isCapable.bind ?_
  -- no link to the service: no slots
  by_cases hlink : query.staffId.isSome ∧ linksOf tenantId db query staffId = []
  · have hnone : offered rt now tenantId db query service zone day staffId = [] := by
      unfold offered
      cases staffOf tenantId db staffId <;> simp [hlink]
    simp only [hlink, hnone]
    exact Prog.reads_ret []
  · simp only [hlink, decide_false, Bool.not_false, Bool.not_true, Bool.false_eq_true, if_false]
    have hstaff : (StaffService.findById tenantId staffId).Reads supply db
        (.ok (staffOf tenantId db staffId)) := reads_findOne
    refine hstaff.bind ?_
    unfold offered
    cases staffOf tenantId db staffId with
    | none => exact Prog.reads_ret []
    | some staff =>
      dsimp only
      -- nor for somebody who is inactive
      cases hactive : staff.active with
      | false =>
        rw [if_pos (by simp), if_pos (.inr rfl)]
        exact Prog.reads_ret []
      | true =>
        rw [if_neg (by simp), if_neg (by simp [hlink])]
        refine Prog.Reads.bind (a := hoursOf rt now tenantId db zone day staffId) reads_findMany ?_
        -- nor without working hours on that weekday
        by_cases hoff : (hoursOf rt now tenantId db zone day staffId).length = 0
        · rw [if_pos hoff, List.length_eq_zero_iff.1 hoff]
          exact Prog.reads_ret []
        · rw [if_neg hoff]
          exact reads_buildBlockers.bind (reads_ofExcept _)

theorem reads_staffIdsFor :
    (staffIdsFor tenantId query).Reads supply db (.ok (staffIdsOf tenantId db query)) := by
  unfold staffIdsFor staffIdsOf
  cases query.staffId with
  | some staffId => exact Prog.reads_ret [staffId]
  | none => exact reads_findMany.bind (Prog.reads_ret _)

theorem mapM_toSlot_map (staffId : Uuid) (intervals : List MsInterval) :
    (intervals.map (staffId, ·)).mapM (fun c => toSlot rt c.1 c.2) =
      intervals.mapM (toSlot rt staffId) := by
  induction intervals with
  | nil => rfl
  | cons i intervals ih => simp only [List.map_cons, List.mapM_cons, ih]

variable (supply rt now tenantId db query service zone day) in
theorem reads_allSlots (staffIds : List Uuid) :
    (allSlots rt now tenantId query service zone day staffIds).Reads supply db
      ((allOffered rt now tenantId db query service zone day staffIds).mapM fun c =>
        toSlot rt c.1 c.2) := by
  induction staffIds with
  | nil => exact Prog.reads_ret []
  | cons staffId staffIds ih =>
    unfold allSlots
    have hhead := reads_staffSlots rt now tenantId db query service zone day staffId supply
    rw [allOffered, List.flatMap_cons, List.mapM_append, mapM_toSlot_map]
    cases hslots : (offered rt now tenantId db query service zone day staffId).mapM
        (toSlot rt staffId) with
    -- a slot that has no text ends the loop with its error
    | error e =>
      rw [hslots] at hhead
      exact hhead.bind_error
    -- the slots of one staff member, and then those of the others
    | ok slots =>
      rw [hslots] at hhead
      refine hhead.bind ?_
      change Prog.Reads supply db
        _ ((allOffered rt now tenantId db query service zone day staffIds).mapM
        (fun c => toSlot rt c.1 c.2) >>= fun rest => pure (slots ++ rest))
      cases hrest : (allOffered rt now tenantId db query service zone day staffIds).mapM
          (fun c => toSlot rt c.1 c.2) with
      | error e =>
        rw [hrest] at ih
        exact ih.bind_error
      | ok rest =>
        rw [hrest] at ih
        exact ih.bind (Prog.reads_ret _)

variable (rt now tenantId db query) in
/-- What `compute` comes to. -/
def computed : Except Thrown (List AvailabilitySlot) :=
  match rt.isoDay query.date with
  | none => .error (.app (.badRequest "date is not a valid calendar date"))
  | some day =>
    match (rowsOf db .services tenantId fun r => r.id = query.serviceId).head? with
    | none => .error (.app (.notFound "Service not found"))
    | some service =>
      match ((db .tenants).filter fun r => r.id = tenantId).head? with
      | none => .error (.app (.notFound "Tenant not found"))
      | some tenant =>
        ((allOffered rt now tenantId db query service tenant.timezone day
            (staffIdsOf tenantId db query)).mapM fun c => toSlot rt c.1 c.2).map
          fun slots => slots.mergeSort fun a b => rt.localeCompare a.startsAt b.startsAt

variable (supply tenantId db) in
theorem reads_getById (id : Uuid) :
    (ServiceService.getById tenantId id).Reads supply db
      (match (rowsOf db .services tenantId fun r => r.id = id).head? with
        | none => .error (.app (.notFound "Service not found"))
        | some service => .ok service) := by
  refine Prog.Reads.bind reads_findOne ?_
  cases (rowsOf db .services tenantId fun r => r.id = id).head? with
  | none => exact Prog.reads_raise _
  | some service => exact Prog.reads_ret service

variable (supply tenantId db) in
theorem reads_tenant :
    (TenantService.getById tenantId).Reads supply db
      (match ((db .tenants).filter fun r => r.id = tenantId).head? with
        | none => .error (.app (.notFound "Tenant not found"))
        | some tenant => .ok tenant) := by
  refine Prog.Reads.bind reads_select ?_
  cases ((db .tenants).filter fun r => r.id = tenantId).head? with
  | none => exact Prog.reads_raise _
  | some tenant => exact Prog.reads_ret tenant

variable (rt now tenantId db query supply) in
theorem reads_compute :
    (compute rt now tenantId query).Reads supply db (computed rt now tenantId db query) := by
  unfold compute computed
  cases rt.isoDay query.date with
  | none => exact Prog.reads_raise _
  | some day =>
    have hservice := reads_getById tenantId db supply query.serviceId
    have htenant := reads_tenant tenantId db supply
    dsimp only
    -- an unknown service is refused before anything else is read
    cases hs : (rowsOf db .services tenantId fun r => r.id = query.serviceId).head? with
    | none =>
      rw [hs] at hservice
      exact hservice.bind_error
    | some service =>
      rw [hs] at hservice
      refine hservice.bind ?_
      dsimp only
      -- and so is an unknown tenant
      cases ht : ((db .tenants).filter fun r => r.id = tenantId).head? with
      | none =>
        rw [ht] at htenant
        exact htenant.bind_error
      | some tenant =>
        rw [ht] at htenant
        refine htenant.bind (reads_staffIdsFor.bind ?_)
        have hall := reads_allSlots rt now tenantId db query service tenant.timezone day supply
          (staffIdsOf tenantId db query)
        dsimp only
        cases hslots : (allOffered rt now tenantId db query service tenant.timezone day
            (staffIdsOf tenantId db query)).mapM fun c => toSlot rt c.1 c.2 with
        | error e =>
          rw [hslots] at hall
          exact hall.bind_error
        | ok slots =>
          rw [hslots] at hall
          exact hall.bind (Prog.reads_ret _)

end Reading

/-! ## The slots returned -/

section Returned

variable {rt : AvailabilityRuntime} {now : Instant} {tenantId : Uuid} {db : Store platformSchema}
  {query : AvailabilityQueryDto}

variable (rt tenantId db query) in
/-- The date of a query is a calendar date, and its service and its tenant exist. -/
structure Resolved (day : ℤ) (service : ServiceRow) (tenant : TenantRow) : Prop where
  isoDay : rt.isoDay query.date = some day
  service : (rowsOf db .services tenantId fun r => r.id = query.serviceId).head? = some service
  tenant : ((db .tenants).filter fun r => r.id = tenantId).head? = some tenant

theorem computed_resolved {day : ℤ} {service : ServiceRow} {tenant : TenantRow}
    (h : Resolved rt tenantId db query day service tenant) :
    computed rt now tenantId db query =
      ((allOffered rt now tenantId db query service tenant.timezone day
          (staffIdsOf tenantId db query)).mapM fun c => toSlot rt c.1 c.2).map
        fun slots => slots.mergeSort fun a b => rt.localeCompare a.startsAt b.startsAt := by
  unfold computed
  rw [h.isoDay]
  dsimp only
  rw [h.service]
  dsimp only
  rw [h.tenant]

/-- A slot is an interval of valid dates, written as text. -/
theorem toSlot_eq_ok {staffId : Uuid} {interval : MsInterval} {slot : AvailabilitySlot} :
    toSlot rt staffId interval = .ok slot ↔
      newDate interval.start = some interval.start ∧ newDate interval.stop = some interval.stop ∧
        slot = ⟨staffId, rt.toISOString interval.start, rt.toISOString interval.stop⟩ := by
  unfold toSlot isoString newDate
  by_cases hstart : interval.start.natAbs ≤ 8640000000000000
  · by_cases hstop : interval.stop.natAbs ≤ 8640000000000000
    · simp only [hstart, hstop, if_true, true_and]
      exact ⟨fun h => (Except.ok.inj h).symm, fun h => congrArg Except.ok h.symm⟩
    · simp only [hstart, hstop, if_true, if_false]
      exact ⟨(nomatch ·), fun h => absurd h.2.1 (nomatch ·)⟩
  · simp only [hstart, if_false]
    exact ⟨(nomatch ·), fun h => absurd h.1 (nomatch ·)⟩

/-- A list on which a fallible function succeeds, and the results. -/
theorem forall₂_of_mapM {ε α β : Type} {f : α → Except ε β} {xs : List α} {ys : List β}
    (h : xs.mapM f = .ok ys) : List.Forall₂ (fun x y => f x = .ok y) xs ys := by
  induction xs generalizing ys with
  | nil =>
    cases h
    exact .nil
  | cons x xs ih =>
    rw [List.mapM_cons] at h
    -- the first failure would have been the result
    cases hx : f x with
    | error e =>
      rw [hx] at h
      cases h
    | ok y =>
      rw [hx] at h
      cases hxs : xs.mapM f with
      | error e =>
        rw [hxs] at h
        cases h
      | ok ys' =>
        rw [hxs] at h
        cases h
        exact .cons hx (ih hxs)

theorem exists_of_mem_right {α β : Type} {R : α → β → Prop} {xs : List α} {ys : List β}
    (h : List.Forall₂ R xs ys) {y : β} (hy : y ∈ ys) : ∃ x ∈ xs, R x y := by
  induction h with
  | nil => exact absurd hy List.not_mem_nil
  | cons hxy _ ih =>
    rcases List.mem_cons.1 hy with rfl | hy
    · exact ⟨_, List.mem_cons_self, hxy⟩
    · obtain ⟨x, hx, hxy⟩ := ih hy
      exact ⟨x, List.mem_cons_of_mem _ hx, hxy⟩

theorem exists_of_mem_left {α β : Type} {R : α → β → Prop} {xs : List α} {ys : List β}
    (h : List.Forall₂ R xs ys) {x : α} (hx : x ∈ xs) : ∃ y ∈ ys, R x y :=
  exists_of_mem_right h.flip hx

/-- The slots that `compute` returns, in some order. -/
theorem computed_eq_ok {slots : List AvailabilitySlot}
    (h : computed rt now tenantId db query = .ok slots) :
    ∃ day service tenant, Resolved rt tenantId db query day service tenant ∧
      ∃ raw, raw.Perm slots ∧
        List.Forall₂ (fun c slot => toSlot rt c.1 c.2 = .ok slot)
          (allOffered rt now tenantId db query service tenant.timezone day
            (staffIdsOf tenantId db query))
          raw := by
  unfold computed at h
  -- each of the reads before the slots must have succeeded
  cases hday : rt.isoDay query.date with
  | none => simp only [hday, reduceCtorEq] at h
  | some day =>
    cases hservice : (rowsOf db .services tenantId fun r => r.id = query.serviceId).head? with
    | none => simp only [hday, hservice, reduceCtorEq] at h
    | some service =>
      cases htenant : ((db .tenants).filter fun r => r.id = tenantId).head? with
      | none => simp only [hday, hservice, htenant, reduceCtorEq] at h
      | some tenant =>
        refine ⟨day, service, tenant, ⟨hday, hservice, htenant⟩, ?_⟩
        simp only [hday, hservice, htenant] at h
        cases hraw : (allOffered rt now tenantId db query service tenant.timezone day
            (staffIdsOf tenantId db query)).mapM fun c => toSlot rt c.1 c.2 with
        | error e =>
          rw [hraw] at h
          cases h
        | ok raw =>
          rw [hraw] at h
          cases h
          exact ⟨raw, (List.mergeSort_perm _ _).symm, forall₂_of_mapM hraw⟩

theorem computed_of_run {supply : ℕ → Uuid × ℤ} {n : ℕ} {m : Machine platformSchema}
    {slots : List AvailabilitySlot}
    (h : (compute rt now tenantId query).run (Machine.step supply)
      ⟨db, .idle, n⟩ = (.ok slots, m)) :
    computed rt now tenantId db query = .ok slots := by
  obtain ⟨n', hrun⟩ := (reads_compute rt now tenantId db query supply).run n
  rw [hrun] at h
  exact (Prod.mk.inj h).1

/-- The slots returned are the intervals offered by the staff members that the query asks for. -/
theorem mem_slots {slots : List AvailabilitySlot}
    (h : computed rt now tenantId db query = .ok slots) {day : ℤ} {service : ServiceRow}
    {tenant : TenantRow} (hresolved : Resolved rt tenantId db query day service tenant)
    {slot : AvailabilitySlot} :
    slot ∈ slots ↔ ∃ interval,
      slot.staffId ∈ staffIdsOf tenantId db query ∧
      interval ∈ offered rt now tenantId db query service tenant.timezone day slot.staffId ∧
      toSlot rt slot.staffId interval = .ok slot := by
  obtain ⟨day', service', tenant', hresolved', raw, hperm, hraw⟩ := computed_eq_ok h
  -- both have read the same day, service and tenant
  obtain rfl : day = day' := Option.some.inj (hresolved.isoDay.symm.trans hresolved'.isoDay)
  obtain rfl : service = service' :=
    Option.some.inj (hresolved.service.symm.trans hresolved'.service)
  obtain rfl : tenant = tenant' := Option.some.inj (hresolved.tenant.symm.trans hresolved'.tenant)
  -- sorting does not matter
  rw [← hperm.mem_iff]
  constructor
  · intro hslot
    obtain ⟨c, hc, hslotc⟩ := exists_of_mem_right hraw hslot
    obtain ⟨hstaff, hoffered⟩ := mem_allOffered.1 hc
    obtain ⟨-, -, rfl⟩ := toSlot_eq_ok.1 hslotc
    exact ⟨c.2, hstaff, hoffered, hslotc⟩
  · rintro ⟨interval, hstaff, hoffered, hslot⟩
    have hc : (slot.staffId, interval) ∈ allOffered rt now tenantId db query service
      tenant.timezone day (staffIdsOf tenantId db query) := mem_allOffered.2 ⟨hstaff, hoffered⟩
    obtain ⟨slot', hslot', hslotc⟩ := exists_of_mem_left hraw hc
    obtain rfl : slot = slot' := Except.ok.inj (hslot.symm.trans hslotc)
    exact hslot'

/-- Every interval offered has become a slot. -/
theorem exists_slot {slots : List AvailabilitySlot}
    (h : computed rt now tenantId db query = .ok slots) {day : ℤ} {service : ServiceRow}
    {tenant : TenantRow} (hresolved : Resolved rt tenantId db query day service tenant)
    {staffId : Uuid} {interval : MsInterval} (hstaff : staffId ∈ staffIdsOf tenantId db query)
    (hoffered : interval ∈ offered rt now tenantId db query service tenant.timezone day staffId) :
    ∃ slot ∈ slots, toSlot rt staffId interval = .ok slot := by
  obtain ⟨day', service', tenant', hresolved', raw, hperm, hraw⟩ := computed_eq_ok h
  obtain rfl : day = day' := Option.some.inj (hresolved.isoDay.symm.trans hresolved'.isoDay)
  obtain rfl : service = service' :=
    Option.some.inj (hresolved.service.symm.trans hresolved'.service)
  obtain rfl : tenant = tenant' := Option.some.inj (hresolved.tenant.symm.trans hresolved'.tenant)
  have hc : (staffId, interval) ∈ allOffered rt now tenantId db query service tenant.timezone day
      (staffIdsOf tenantId db query) := mem_allOffered.2 ⟨hstaff, hoffered⟩
  obtain ⟨slot, hslot, hslotc⟩ := exists_of_mem_left hraw hc
  exact ⟨slot, hperm.mem_iff.1 hslot, hslotc⟩

end Returned

end AvailabilityService

/-! ## Days without a transition -/

/-- Every local time from the start of a day to its end is shown once, under the offset `o`. -/
def SteadyDay (z : Zone) (day o : ℤ) : Prop :=
  ∀ l, day * dayMs ≤ l → l ≤ (day + 1) * dayMs →
    z.toLocal (l - o) = l ∧ ∀ t, z.toLocal t = l → z.offset t = o

section Steady

variable {rt : AvailabilityRuntime} {now : Instant} {zone : String} {day o : ℤ}

/-- On such a day, minutes are added to midnight. -/
theorem localMinutesToUtc_steady (h : SteadyDay (rt.zone zone) day o) {minutes : ℕ}
    (hm : minutes ≤ 1440) :
    localMinutesToUtc rt now zone day minutes = day * dayMs + minutes * minuteMs - o := by
  have hlength : (1440 : ℤ) * minuteMs = dayMs := by decide
  have hminutes : (minutes : ℤ) * minuteMs ≤ dayMs := by
    rw [← hlength]
    exact mul_le_mul_of_nonneg_right (by exact_mod_cast hm) (by decide)
  have hnonneg : 0 ≤ (minutes : ℤ) * minuteMs := mul_nonneg (Int.natCast_nonneg _) (by decide)
  -- every reading on the way is of a time of the day
  have hread : ∀ ref l, day * dayMs ≤ l → l ≤ (day + 1) * dayMs →
      (rt.clock zone).resolve ref l = l - o := fun ref l hl hl' =>
    (rt.clock zone).resolve_eq (h l hl hl').1 (h l hl hl').2 ref
  have hmidnight : day * dayMs ≤ (day + 1) * dayMs := by
    rw [add_mul, one_mul]
    exact le_add_of_nonneg_right (by decide)
  have hshown : (rt.zone zone).toLocal (day * dayMs - o) = day * dayMs := (h _ le_rfl hmidnight).1
  have hstartOf : startOfLocalDay (day * dayMs) = day * dayMs := by
    unfold startOfLocalDay
    rw [Int.mul_ediv_cancel _ (by decide)]
  have hdayMs : dayMs = 1440 * minuteMs := by decide
  have hmod : day * dayMs % minuteMs = 0 := by
    rw [hdayMs, ← mul_assoc]
    exact Int.mul_emod_left _ _
  have hstart : startOfDay rt zone (fromISO rt now zone day) = day * dayMs - o := by
    unfold startOfDay fromISO
    rw [hread now _ le_rfl hmidnight, hshown, hstartOf, hread _ _ le_rfl hmidnight]
  unfold localMinutesToUtc setTime
  simp only [hstart, hshown, hstartOf, hmod, add_zero]
  refine hread _ _ (le_add_of_nonneg_right hnonneg) ?_
  rw [add_mul, one_mul]
  exact add_le_add le_rfl hminutes

theorem dayStart_steady (h : SteadyDay (rt.zone zone) day o) :
    AvailabilityService.dayStart rt now zone day = day * dayMs - o := by
  unfold AvailabilityService.dayStart
  rw [localMinutesToUtc_steady h (Nat.zero_le _)]
  simp

theorem dayEnd_steady (h : SteadyDay (rt.zone zone) day o) :
    AvailabilityService.dayEnd rt now zone day = day * dayMs + dayMs - o := by
  unfold AvailabilityService.dayEnd
  rw [localMinutesToUtc_steady h le_rfl]
  congr 1

/-- On such a day, a slot lies in its window of working hours. -/
theorem within_window_steady (h : SteadyDay (rt.zone zone) day o) {window : WorkingHours}
    (horder : window.startMin ≤ window.endMin) (hend : window.endMin ≤ 1440) {durationMs : ℤ}
    (hd : 0 < durationMs) {k : ℕ}
    (hfits : (nthSlot durationMs (AvailabilityService.windowInterval rt now zone day window).start
        k).stop ≤ (AvailabilityService.windowInterval rt now zone day window).stop) :
    day * dayMs - o + window.startMin * minuteMs ≤
        (nthSlot durationMs (AvailabilityService.windowInterval rt now zone day window).start
          k).start ∧
      (nthSlot durationMs (AvailabilityService.windowInterval rt now zone day window).start
        k).stop ≤
        day * dayMs - o + window.endMin * minuteMs := by
  unfold AvailabilityService.windowInterval at hfits ⊢
  rw [localMinutesToUtc_steady h (horder.trans hend)] at hfits ⊢
  rw [localMinutesToUtc_steady h hend] at hfits
  have hearlier : 0 ≤ (k : ℤ) * durationMs := mul_nonneg (Int.natCast_nonneg _) hd.le
  constructor
  · unfold nthSlot
    linarith
  · linarith

end Steady

/-! ## A sample runtime -/

/-- The texts of some instants. The other instants are written in milliseconds after a mark. -/
structure SampleTexts where
  entries : List (Instant × String)
  distinct : ∀ p ∈ entries, ∀ q ∈ entries, p.2 = q.2 → p.1 = q.1
  unmarked : ∀ p ∈ entries, p.2.toList.head? ≠ some '@'

namespace SampleTexts

variable (texts : SampleTexts)

def toISOString (t : Instant) : String :=
  match texts.entries.find? (·.1 = t) with
  | some p => p.2
  | none => String.ofList ('@' :: (if 0 ≤ t then '+' else '-') :: Nat.toDigits 10 t.natAbs)

def parseDate (s : String) : JsDate :=
  match texts.entries.find? (·.2 = s) with
  | some p => some p.1
  | none =>
    match s.toList with
    | '@' :: '+' :: digits => some (Nat.ofDigitChars 10 digits 0)
    | '@' :: '-' :: digits => some (-Nat.ofDigitChars 10 digits 0)
    | _ => none

theorem parse_iso (t : Instant) : texts.parseDate (texts.toISOString t) = some t := by
  unfold toISOString
  cases hentry : texts.entries.find? (·.1 = t) with
  -- an instant of the table: its text is in no other entry
  | some p =>
    have hp : p ∈ texts.entries := List.mem_of_find?_eq_some hentry
    have hpt : p.1 = t := by simpa using List.find?_some hentry
    unfold parseDate
    dsimp only
    cases hother : texts.entries.find? (·.2 = p.2) with
    -- any other instant is written as a number with a mark in front, which no entry has
    | none =>
      have hne := List.find?_eq_none.1 hother p hp
      simp at hne
    | some q =>
      have hq : q ∈ texts.entries := List.mem_of_find?_eq_some hother
      have hqp : q.2 = p.2 := by simpa using List.find?_some hother
      exact congrArg some ((texts.distinct q hq p hp hqp).trans hpt)
  | none =>
    unfold parseDate
    dsimp only
    cases hother : texts.entries.find?
        (·.2 = String.ofList ('@' :: (if 0 ≤ t then '+' else '-') :: Nat.toDigits 10 t.natAbs)) with
    | some q =>
      have hq : q ∈ texts.entries := List.mem_of_find?_eq_some hother
      have hqt := List.find?_some hother
      rw [decide_eq_true_iff] at hqt
      refine absurd ?_ (texts.unmarked q hq)
      rw [hqt, String.toList_ofList]
      rfl
    | none =>
      rw [String.toList_ofList]
      -- and the digits are read back
      by_cases hsign : 0 ≤ t
      · simp only [if_pos hsign, Nat.ofDigitChars_ten_toDigits]
        exact congrArg some (Int.natAbs_of_nonneg hsign)
      · simp only [if_neg hsign, Nat.ofDigitChars_ten_toDigits]
        have hneg : -(t.natAbs : ℤ) = t := by
          rw [Int.ofNat_natAbs_of_nonpos (Int.le_of_lt (Int.not_le.1 hsign)), Int.neg_neg]
        exact congrArg some hneg

end SampleTexts

/-- Booking requests that read the texts. -/
def samplePlatform (texts : SampleTexts) : PlatformRuntime where
  uuid := sampleUuid
  booking := ⟨texts.parseDate, fun dto => dto.startsAt, fun _ => "booking", fun _ => []⟩
  reporting :=
    { parseDate := texts.parseDate
      castTimestamp := fun text => (texts.parseDate text).elim (.error "22007") .ok
      toInstant := fun _ l => l
      toLocal := fun _ t => t
      uuidText := sampleUuid.text
      collate := fun s s' => s ≤ s' }
  collate s s' := s ≤ s'
  toLowerCase := String.toLower
  validateWebhookUrl _ := .ok ()
  createCheckout provider input := .ok ⟨provider, input.reference, ""⟩
  secret id := sampleUuid.text id

/-- One date, and a zone with one transition. -/
def sampleAvailability (texts : SampleTexts) (date : String) (day x before after : ℤ) :
    AvailabilityRuntime where
  platform := samplePlatform texts
  isoDay s := if s = date then some day else none
  zone _ := stepZone x before after
  clock _ := stepClock x before after
  toISOString := texts.toISOString
  localeCompare s s' := s ≤ s'
  parse_iso t _ := texts.parse_iso t

/-- Tenant 1 in a timezone, with staff member 10, who performs service 20, and customer 30. -/
def sampleTenant (timezone : String) (service : ServiceRow) (hours : List WorkingHours)
    (bookings : List StoredBooking) : Store platformSchema
  | .tenants => [{ timezone, id := 1 }]
  | .services => [service]
  | .customers => [{ id := 30, tenantId := 1, name := "Ann", email := "ann@example.com",
                     phone := none, deletedAt := none }]
  | .staff => [{ id := 10, tenantId := 1, userId := 2, displayName := "Bob", active := true,
                 deleted := false }]
  | .staffServices => [{ staffId := 10, serviceId := 20, id := 40, tenantId := 1 }]
  | .workingHours => hours
  | .bookings => bookings
  | _ => []

/-- Service 20 takes 30 minutes. -/
def sampleService (bufferAfterMin : ℕ) : ServiceRow where
  durationMin := 30
  priceAmount := 100
  priceCurrency := "EUR"
  id := 20
  tenantId := 1
  name := "Massage"
  bufferBeforeMin := 0
  bufferAfterMin
  active := true
  deletedAt := none
  duration_pos := by decide

/-- A confirmed booking of staff member 10. -/
def sampleBookingAt (startsAt endsAt : Instant) : StoredBooking where
  id := 60
  tenantId := 1
  staffId := 10
  serviceId := 20
  customerId := 30
  startsAt
  endsAt
  status := .confirmed
  priceAmount := 100
  priceCurrency := "EUR"
  recurrenceId := none
  version := 2
  deletedAt := none

def sampleQuery (date : String) : AvailabilityQueryDto where
  serviceId := 20
  staffId := some 10
  date

/-- Ids from 1000 on, at the start of 1970. -/
def sampleSupply (n : ℕ) : Uuid × ℤ := (1000 + n, 0)

theorem sampleSupply_injective : Function.Injective fun n => (sampleSupply n).1 :=
  fun _ _ h => Nat.add_left_cancel h

end BookingPlatform
