import BookingPlatform.Availability.Bookable

/-!
# Separation of Slots

Slots and the time off and padded bookings of their staff member, and slots of one staff member
among each other. A slot avoids every blocker that is fetched, and two slots of one window are
consecutive. What is fetched is selected before it is padded, and windows are converted end by end,
so that neither keeps slots apart on every day.

## Main definitions

- `Apart`: intervals without a common instant.
- `FetchesBlockers`: no blocker that is not fetched reaches a slot.
- `sliced`: the part of a window that is cut into slots.
- `OverlapsBlocked`, `WindowsApart`: where the sliced parts of two windows overlap, slots are
  blocked; they do not overlap at all.

## Main results

- `slots_avoid_iff`: slots avoid all time off and padded bookings exactly if the fetched ones are
  enough.
- `slots_apart_iff`: slots of one staff member are apart exactly if overlaps of windows are blocked;
  whatever is booked, exactly if the windows are apart, as they are on a day without a transition.
-/

namespace BookingPlatform

open Library BaseTenantRepository

/-! ## Intervals -/

namespace MsInterval

def Contains (i : MsInterval) (t : Instant) : Prop := i.start ≤ t ∧ t < i.stop

/-- The intervals have no instant in common. -/
def Apart (i j : MsInterval) : Prop := ∀ t, i.Contains t → ¬j.Contains t

variable {i j : MsInterval}

theorem Apart.symm (h : i.Apart j) : j.Apart i := fun t hj hi => h t hi hj

theorem apart_of_le (h : i.stop ≤ j.start) : i.Apart j :=
  fun _ hi hj => absurd (hi.2.trans_le (h.trans hj.1)) (lt_irrefl _)

/-- Intervals that do not overlap in the sense of the code have no instant in common. -/
theorem apart_of_not_overlaps (h : overlaps i j = false) : i.Apart j := by
  intro t hi hj
  have hoverlaps : overlaps i j = true := overlaps_iff.2 ⟨hi.1.trans_lt hj.2, hj.1.trans_lt hi.2⟩
  rw [h] at hoverlaps
  cases hoverlaps

/-- An interval with an instant is not apart from itself. -/
theorem not_apart_self (h : i.start < i.stop) : ¬i.Apart i :=
  fun happart => happart i.start ⟨le_rfl, h⟩ ⟨le_rfl, h⟩

end MsInterval

open MsInterval

/-- Consecutive slots of a window. -/
theorem pairwise_slotsFrom {durationMs : ℤ} (hd : 0 < durationMs) (blockers : List MsInterval)
    (stop : ℤ) (n : ℕ) (start : ℤ) :
    (slotsFrom durationMs blockers stop n start).Pairwise fun a b => a.stop ≤ b.start := by
  induction n generalizing start with
  | zero => exact .nil
  | succ n ih =>
    unfold slotsFrom
    by_cases hfits : start + durationMs ≤ stop
    · rw [if_pos hfits]
      by_cases hblocked : blockers.any (overlaps ⟨start, start + durationMs⟩) = true
      · simp only [if_pos hblocked]
        exact ih _
      · simp only [if_neg hblocked]
        -- every later slot starts where this one ends, or after
        refine List.pairwise_cons.2 ⟨fun slot hslot => ?_, ih _⟩
        obtain ⟨k, -, rfl, -⟩ := (mem_slotsFrom hd).1 hslot
        have hlater : 0 ≤ (k : ℤ) * durationMs := mul_nonneg (Int.natCast_nonneg _) hd.le
        simp only [nthSlot]
        linarith
    · rw [if_neg hfits]
      exact .nil

/-- The part of a window that is cut into slots: as many durations as fit in it. -/
def sliced (durationMs : ℤ) (window : MsInterval) : MsInterval :=
  ⟨window.start, window.start + ((window.stop - window.start) / durationMs).toNat * durationMs⟩

/-- The slot of a window in which an instant lies. -/
def slotAt (durationMs : ℤ) (window : MsInterval) (t : Instant) : MsInterval :=
  nthSlot durationMs window.start ((t - window.start) / durationMs).toNat

section Sliced

variable {durationMs : ℤ} {window : MsInterval} {t : Instant}

theorem nthSlot_contains_iff (hd : 0 < durationMs) {start : ℤ} {k : ℕ} :
    (nthSlot durationMs start k).Contains t ↔ (t - start) / durationMs = k := by
  unfold Contains nthSlot
  rw [Int.ediv_eq_iff_of_pos hd]
  constructor
  · rintro ⟨hstart, hstop⟩
    constructor <;> linarith
  · rintro ⟨hstart, hstop⟩
    constructor <;> linarith

/-- A slot that has an instant is the slot of that instant. -/
theorem slotAt_eq (hd : 0 < durationMs) {k : ℕ}
    (h : (nthSlot durationMs window.start k).Contains t) :
    slotAt durationMs window t = nthSlot durationMs window.start k := by
  unfold slotAt
  rw [(nthSlot_contains_iff hd).1 h, Int.toNat_natCast]

theorem lt_of_lt_toNat {q n : ℤ} (hq : 0 ≤ q) (h : q < n.toNat) : q < n := by omega

/-- The sliced part of a window are the instants whose slots fit in it. -/
theorem sliced_contains_iff (hd : 0 < durationMs) : (sliced durationMs window).Contains t ↔
    (slotAt durationMs window t).Contains t ∧ (slotAt durationMs window t).stop ≤ window.stop := by
  constructor
  · rintro ⟨hstart, hstop⟩
    simp only [sliced] at hstart hstop
    have hnonneg : 0 ≤ (t - window.start) / durationMs := Int.ediv_nonneg (by linarith) hd.le
    have hcontains : (slotAt durationMs window t).Contains t :=
      (nthSlot_contains_iff hd).2 (Int.toNat_of_nonneg hnonneg).symm
    -- the slot is one of those that fit
    have hlt :
        (t - window.start) / durationMs < ((window.stop - window.start) / durationMs).toNat :=
      Int.ediv_lt_of_lt_mul hd (by linarith)
    have hcount : (t - window.start) / durationMs + 1 ≤ (window.stop - window.start) / durationMs :=
      Int.add_one_le_iff.2 (lt_of_lt_toNat hnonneg hlt)
    have hfits := (Int.le_ediv_iff_mul_le hd).1 hcount
    refine ⟨hcontains, ?_⟩
    unfold slotAt nthSlot
    rw [Int.toNat_of_nonneg hnonneg]
    linarith
  · rintro ⟨⟨hstart, hstop⟩, hfits⟩
    unfold slotAt nthSlot at hstart hstop hfits
    dsimp only at hstart hstop hfits
    have hlater : 0 ≤ (((t - window.start) / durationMs).toNat : ℤ) * durationMs := by positivity
    have hcount : (((t - window.start) / durationMs).toNat :
        ℤ) + 1 ≤ (window.stop - window.start) / durationMs := by
      apply (Int.le_ediv_iff_mul_le hd).2
      linarith
    have hslices : (((t - window.start) / durationMs).toNat : ℤ) + 1 ≤
        ((window.stop - window.start) / durationMs).toNat := by omega
    have hmul := mul_le_mul_of_nonneg_right hslices hd.le
    constructor
    · exact (le_add_of_nonneg_right hlater).trans hstart
    · exact hstop.trans_le (by simp only [sliced]; linarith)

/-- The sliced part ends within the window. -/
theorem sliced_stop_le (hd : 0 < durationMs) (hwindow : window.start ≤ window.stop) :
    (sliced durationMs window).stop ≤ window.stop := by
  have hnonneg : 0 ≤ (window.stop - window.start) / durationMs :=
    Int.ediv_nonneg (by linarith) hd.le
  have hfits :
      (window.stop - window.start) / durationMs * durationMs ≤ window.stop - window.start :=
    Int.ediv_mul_le _ hd.ne'
  simp only [sliced]
  rw [Int.toNat_of_nonneg hnonneg]
  linarith

/-- Wherever the sliced parts of two windows overlap, the slot of one of them is blocked. -/
def OverlapBlocked (durationMs : ℤ) (blockers : List MsInterval) (window window' : MsInterval) :
    Prop :=
  ∀ t, (sliced durationMs window).Contains t → (sliced durationMs window').Contains t →
    blockers.any (overlaps (slotAt durationMs window t)) = true ∨
      blockers.any (overlaps (slotAt durationMs window' t)) = true

theorem overlapBlocked_of_apart {blockers : List MsInterval} {window' : MsInterval}
    (h : (sliced durationMs window).Apart (sliced durationMs window')) :
    OverlapBlocked durationMs blockers window window' :=
  fun t ht ht' => absurd ht' (h t ht)

theorem overlapBlocked_nil {window' : MsInterval} :
    OverlapBlocked durationMs [] window window' ↔
    (sliced durationMs window).Apart (sliced durationMs window') := by
  simp [OverlapBlocked, Apart]

/-- The slots of two windows are apart exactly if the overlap of the windows is blocked. -/
theorem generateSlots_apart_iff (hd : 0 < durationMs) {blockers : List MsInterval}
    {window' : MsInterval} :
    (∀ slot ∈ generateSlots window durationMs blockers,
      ∀ slot' ∈ generateSlots window' durationMs blockers,
        slot.Apart slot') ↔ OverlapBlocked durationMs blockers window window' := by
  constructor
  · -- an instant that both windows slice lies in a slot of each; if neither is blocked, both are
    -- returned
    intro happart t ht ht'
    by_contra hfree
    rw [not_or, Bool.not_eq_true, Bool.not_eq_true] at hfree
    obtain ⟨hcontains, hfits⟩ := (sliced_contains_iff hd).1 ht
    obtain ⟨hcontains', hfits'⟩ := (sliced_contains_iff hd).1 ht'
    have hslot : slotAt durationMs window t ∈ generateSlots window durationMs blockers :=
      (mem_generateSlots hd).2 ⟨_, rfl, hfits, hfree.1⟩
    have hslot' : slotAt durationMs window' t ∈ generateSlots window' durationMs blockers :=
      (mem_generateSlots hd).2 ⟨_, rfl, hfits', hfree.2⟩
    exact happart _ hslot _ hslot' t hcontains hcontains'
  · -- an instant of two slots would be in the overlap, where one of them is blocked
    intro hblocked slot hslot slot' hslot' t ht ht'
    obtain ⟨k, rfl, hfits, hfree⟩ := (mem_generateSlots hd).1 hslot
    obtain ⟨k', rfl, hfits', hfree'⟩ := (mem_generateSlots hd).1 hslot'
    have hat := slotAt_eq hd ht
    have hat' := slotAt_eq hd ht'
    rcases hblocked t ((sliced_contains_iff hd).2 ⟨hat ▸ ht, hat ▸ hfits⟩)
      ((sliced_contains_iff hd).2 ⟨hat' ▸ ht', hat' ▸ hfits'⟩) with h | h
    · rw [hat, hfree] at h
      cases h
    · rw [hat', hfree'] at h
      cases h

end Sliced

theorem pairwise_generateSlots {durationMs : ℤ} (hd : 0 < durationMs) (window : MsInterval)
    (blockers : List MsInterval) : (generateSlots window durationMs blockers).Pairwise Apart :=
  (pairwise_slotsFrom hd blockers _ _ _).imp apart_of_le

namespace AvailabilityService

/-- The interval of a slot that is returned. -/
def Shows (rt : AvailabilityRuntime) (slot : AvailabilitySlot) (i : MsInterval) : Prop :=
  rt.platform.booking.parseDate slot.startsAt = some i.start ∧
    rt.platform.booking.parseDate slot.endsAt = some i.stop

theorem shows_iff {rt : AvailabilityRuntime} {staffId : Uuid} {interval i : MsInterval}
    {slot : AvailabilitySlot} (h : toSlot rt staffId interval = .ok slot) :
    Shows rt slot i ↔ i = interval := by
  obtain ⟨hstart, hstop, rfl⟩ := toSlot_eq_ok.1 h
  unfold Shows
  rw [rt.parse_iso _ hstart, rt.parse_iso _ hstop]
  obtain ⟨start, stop⟩ := interval
  obtain ⟨start', stop'⟩ := i
  simp [eq_comm]

/-! ## Blockers -/

section Blockers

/-- The time off and the active bookings of a staff member: the interval of the row, and the one
that is to be avoided. -/
inductive Blocks (tenantId : Uuid) (db : Store platformSchema) (service : ServiceRow)
    (staffId : Uuid) :
    (own padded : MsInterval) → Prop where
  | timeOff (t : TimeOff) (hmem : t ∈ db .timeOff) (htenant : t.tenantId = tenantId)
      (hstaff : t.staffId = staffId) :
        Blocks tenantId db service staffId (offBlocker t) (offBlocker t)
  | booking (b : StoredBooking) (hmem : b ∈ db .bookings) (htenant : b.tenantId = tenantId)
      (hstaff : b.staffId = staffId) (hactive : b.status ∈ activeBookingStatuses)
      (hlive : b.deletedAt = none) :
      Blocks tenantId db service staffId ⟨b.startsAt, b.endsAt⟩ (bookingBlocker service b)

variable (rt : AvailabilityRuntime) (now : Instant) (tenantId : Uuid) (db : Store platformSchema)
  (query : AvailabilityQueryDto)

/-- The local day, as the bounds of the queries. -/
def localDay (zone : String) (day : ℤ) : MsInterval :=
  ⟨dayStart rt now zone day, dayEnd rt now zone day⟩

/-- The slot avoids all time off and all padded bookings of its staff member. -/
def Avoids (service : ServiceRow) (slot : AvailabilitySlot) : Prop :=
  ∀ i, Shows rt slot i → ∀ own padded, Blocks tenantId db service slot.staffId own padded →
    i.Apart padded

/-- Where a slot of the grid overlaps no blocker that is fetched, those that lie outside the local
day do not reach it either. -/
def FetchesBlockers : Prop :=
  ∀ day service tenant, Resolved rt tenantId db query day service tenant →
    ∀ staffId ∈ staffIdsOf tenantId db query, Listed tenantId db query staffId →
      ∀ slot, OnGrid rt now tenantId db service tenant.timezone day staffId slot →
        (blockersOf rt now tenantId db service tenant.timezone day staffId).any
          (overlaps slot) = false →
        ∀ own padded, Blocks tenantId db service staffId own padded →
          overlaps own (localDay rt now tenant.timezone day) = false → slot.Apart padded

end Blockers

section Blockers

variable {rt : AvailabilityRuntime} {now : Instant} {tenantId : Uuid} {db : Store platformSchema}
  {query : AvailabilityQueryDto} {service : ServiceRow} {zone : String} {day : ℤ} {staffId : Uuid}

/-- The blockers are those of the rows that overlap the local day. -/
theorem mem_blockersOf {padded : MsInterval} :
    padded ∈ blockersOf rt now tenantId db service zone day staffId ↔
      ∃ own, Blocks tenantId db service staffId own padded ∧
        overlaps own (localDay rt now zone day) = true := by
  -- the two queries ask for what `overlaps` asks of the unpadded interval
  unfold blockersOf
  rw [List.mem_append, List.mem_map, List.mem_map]
  constructor
  · rintro (⟨t, ht, rfl⟩ | ⟨b, hb, rfl⟩)
    · obtain ⟨hmem, hwhere, htenant, -⟩ := mem_rowsOf.1 ht
      simp only [decide_eq_true_eq] at hwhere
      exact ⟨_, .timeOff t hmem (Option.some.inj htenant) hwhere.1, overlaps_iff.2 hwhere.2⟩
    · obtain ⟨hmem, hwhere, htenant, hlive⟩ := mem_rowsOf.1 hb
      simp only [decide_eq_true_eq] at hwhere
      exact ⟨_, .booking b hmem (Option.some.inj htenant) hwhere.1 hwhere.2.1
        (by simpa [rowLive] using hlive), overlaps_iff.2 hwhere.2.2⟩
  · rintro ⟨own, hblocks, hday⟩
    have hwhere := overlaps_iff.1 hday
    cases hblocks with
    | timeOff t hmem htenant hstaff =>
      refine .inl ⟨t, mem_rowsOf.2 ⟨hmem, ?_, congrArg some htenant, rfl⟩, rfl⟩
      exact decide_eq_true ⟨hstaff, hwhere.1, hwhere.2⟩
    | booking b hmem htenant hstaff hactive hlive =>
      refine .inr ⟨b, mem_rowsOf.2 ⟨hmem, ?_, congrArg some htenant, by simp [rowLive, hlive]⟩, rfl⟩
      exact decide_eq_true ⟨hstaff, hactive, hwhere.1, hwhere.2⟩

theorem not_any_overlaps {slot : MsInterval} {blockers : List MsInterval}
    (h : blockers.any (overlaps slot) = false) {blocker : MsInterval} (hmem : blocker ∈ blockers) :
    overlaps slot blocker = false := by
  rw [List.any_eq_false] at h
  exact Bool.eq_false_iff.2 (h blocker hmem)

/-- The slots returned avoid all time off and padded bookings of their staff members exactly if
nothing outside the local day reaches a slot. -/
theorem slotsAvoid_iff {supply : ℕ → Uuid × ℤ} {slots : List AvailabilitySlot} {n : ℕ}
    {m : Machine platformSchema}
    (hslots : (compute rt now tenantId query).run (Machine.step supply)
      ⟨db, .idle, n⟩ = (.ok slots, m)) :
    (∀ service, (rowsOf db .services tenantId fun r =>
      r.id = query.serviceId).head? = some service →
        ∀ slot ∈ slots, Avoids rt tenantId db service slot) ↔
      FetchesBlockers rt now tenantId db query := by
  have hcomputed := computed_of_run hslots
  constructor
  · intro havoids day service tenant hresolved staffId hstaff hlisted interval hgrid
      hfree own padded
      hblocks _
    -- the slot is offered, and therefore returned
    have hoffered : interval ∈ offered rt now tenantId db query service tenant.timezone
        day staffId :=
      mem_offered.2 ⟨hlisted, hgrid, hfree⟩
    obtain ⟨slot, hslot, htoSlot⟩ := exists_slot hcomputed hresolved hstaff hoffered
    have hstaffId : slot.staffId = staffId := by
      obtain ⟨-, -, rfl⟩ := toSlot_eq_ok.1 htoSlot
      rfl
    exact havoids service hresolved.service slot hslot interval
      ((shows_iff htoSlot).2 rfl) own padded (hstaffId ▸ hblocks)
  · intro hfetches service hservice slot hslot i hshows own padded hblocks
    obtain ⟨day, service', tenant, hresolved, -⟩ := computed_eq_ok hcomputed
    obtain rfl : service = service' := Option.some.inj (hservice.symm.trans hresolved.service)
    obtain ⟨interval, hstaff, hoffered, htoSlot⟩ := (mem_slots hcomputed hresolved).1 hslot
    obtain ⟨hlisted, hgrid, hfree⟩ := mem_offered.1 hoffered
    obtain rfl : i = interval := (shows_iff htoSlot).1 hshows
    by_cases hday : overlaps own (localDay rt now tenant.timezone day) = true
    · have hblocker : padded ∈ blockersOf rt now tenantId db service tenant.timezone day
          slot.staffId :=
        mem_blockersOf.2 ⟨own, hblocks, hday⟩
      exact apart_of_not_overlaps (not_any_overlaps hfree hblocker)
    · exact hfetches day service tenant hresolved slot.staffId hstaff hlisted i hgrid
        hfree own padded
        hblocks (Bool.eq_false_iff.2 hday)

/-- A blocker is its row's interval with at most the buffers around it. -/
theorem Blocks.padded_bounds {own padded : MsInterval}
    (h : Blocks tenantId db service staffId own padded) :
    own.start - service.bufferBeforeMin * minuteMs ≤ padded.start ∧
      padded.stop ≤ own.stop + service.bufferAfterMin * minuteMs := by
  have hbefore : 0 ≤ (service.bufferBeforeMin : ℤ) * minuteMs :=
    mul_nonneg (Int.natCast_nonneg _) (by decide)
  have hafter : 0 ≤ (service.bufferAfterMin : ℤ) * minuteMs :=
    mul_nonneg (Int.natCast_nonneg _) (by decide)
  cases h with
  | timeOff t => exact ⟨by linarith, by linarith⟩
  | booking b => exact ⟨le_rfl, le_rfl⟩

/-- On a day without a transition, it is enough that the working hours keep the buffers' distance
from both midnights. -/
theorem fetchesBlockers_of_steady
    (hhours : ∀ window ∈ db .workingHours, window.startMin ≤ window.endMin ∧ window.endMin ≤ 1440)
    (hsteady : ∀ day service tenant, Resolved rt tenantId db query day service tenant →
      (∃ o, SteadyDay (rt.zone tenant.timezone) day o) ∧
        ∀ window ∈ db .workingHours, service.bufferAfterMin ≤ window.startMin ∧
          window.endMin + service.bufferBeforeMin ≤ 1440) :
    FetchesBlockers rt now tenantId db query := by
  rintro day service tenant hresolved staffId - - slot
    ⟨window, hwindow, k, rfl, hfits⟩ - own padded hblocks
    hday
  obtain ⟨⟨o, ho⟩, hmargin⟩ := hsteady day service tenant hresolved
  have hmem : window ∈ db .workingHours := (mem_rowsOf.1 hwindow).1
  obtain ⟨horder, hend⟩ := hhours window hmem
  obtain ⟨hmarginStart, hmarginEnd⟩ := hmargin window hmem
  obtain ⟨hstart, hstop⟩ := within_window_steady ho horder hend (durationMs_pos service) hfits
  obtain ⟨hpaddedStart, hpaddedStop⟩ := hblocks.padded_bounds
  have hafter : (service.bufferAfterMin : ℤ) * minuteMs ≤ window.startMin * minuteMs :=
    mul_le_mul_of_nonneg_right (by exact_mod_cast hmarginStart) (by decide)
  have hbefore : ((window.endMin : ℤ) + service.bufferBeforeMin) * minuteMs ≤ 1440 * minuteMs :=
    mul_le_mul_of_nonneg_right (by exact_mod_cast hmarginEnd) (by decide)
  have hlength : (1440 : ℤ) * minuteMs = dayMs := by decide
  rw [add_mul, hlength] at hbefore
  -- the row lies before the day or after it
  by_cases hearlier : own.stop ≤ day * dayMs - o
  · exact (apart_of_le (by linarith)).symm
  · have hlater : day * dayMs + dayMs - o ≤ own.start := by
      by_contra hnot
      have hoverlaps : overlaps own (localDay rt now tenant.timezone day) = true := by
        refine overlaps_iff.2 ⟨?_, ?_⟩
        · change own.start < dayEnd rt now tenant.timezone day
          rw [dayEnd_steady ho]
          exact not_le.1 hnot
        · change dayStart rt now tenant.timezone day < own.stop
          rw [dayStart_steady ho]
          exact not_le.1 hearlier
      rw [hday] at hoverlaps
      cases hoverlaps
    exact apart_of_le (by linarith)

/-- The slots returned avoid all time off and padded bookings of their staff members exactly if
nothing outside the local day reaches a slot, as on a day without a transition on which the working
hours keep the buffers' distance from both midnights. -/
theorem slots_avoid_iff {supply : ℕ → Uuid × ℤ} {slots : List AvailabilitySlot} {n : ℕ}
    {m : Machine platformSchema}
    (hslots : (compute rt now tenantId query).run (Machine.step supply)
      ⟨db, .idle, n⟩ = (.ok slots, m)) :
    ((∀ service, (rowsOf db .services tenantId fun r =>
      r.id = query.serviceId).head? = some service →
        ∀ slot ∈ slots, Avoids rt tenantId db service slot) ↔
      FetchesBlockers rt now tenantId db query) ∧
      ((∀ window ∈ db .workingHours, window.startMin ≤ window.endMin ∧ window.endMin ≤ 1440) →
        (∀ day service tenant, Resolved rt tenantId db query day service tenant →
          (∃ o, SteadyDay (rt.zone tenant.timezone) day o) ∧
            ∀ window ∈ db .workingHours, service.bufferAfterMin ≤ window.startMin ∧
              window.endMin + service.bufferBeforeMin ≤ 1440) →
        FetchesBlockers rt now tenantId db query) :=
  ⟨slotsAvoid_iff hslots, fetchesBlockers_of_steady⟩

end Blockers

/-! ## A booking that ends at midnight

The service leaves 30 minutes after a booking. The booking that ends as the queried day starts is
not fetched, so the first half hour of the day is returned. -/

def midnightTexts : SampleTexts where
  entries := [(1774656000000, "2026-03-28T00:00:00.000Z"),
    (1774657800000, "2026-03-28T00:30:00.000Z")]
  distinct := by decide
  unmarked := by decide

/-- A zone without transitions. -/
def utc : AvailabilityRuntime := sampleAvailability midnightTexts "2026-03-28" 20540 0 0 0

def midnightDb : Store platformSchema :=
  sampleTenant "UTC" (sampleService 30) [⟨50, 1, 10, 6, 0, 30⟩]
    [sampleBookingAt 1774654200000 1774656000000]

def midnightSlot : AvailabilitySlot := ⟨10, "2026-03-28T00:00:00.000Z", "2026-03-28T00:30:00.000Z"⟩

theorem midnight_resolved :
    Resolved utc 1 midnightDb (sampleQuery "2026-03-28") 20540 (sampleService 30)
    ⟨⟨"UTC"⟩, 1⟩ := ⟨rfl, rfl, rfl⟩

theorem midnight_computed :
    computed utc 0 1 midnightDb (sampleQuery "2026-03-28") = .ok [midnightSlot] := by
  have hslots : (allOffered utc 0 1 midnightDb (sampleQuery "2026-03-28") (sampleService 30) "UTC"
      20540 (staffIdsOf 1 midnightDb (sampleQuery "2026-03-28"))).mapM
        (fun c => toSlot utc c.1 c.2) =
        .ok [midnightSlot] := by
    decide +kernel
  rw [computed_resolved midnight_resolved, hslots]
  exact congrArg Except.ok (List.mergeSort_singleton midnightSlot)

theorem midnight_run :
    ∃ n, (compute utc 0 1 (sampleQuery "2026-03-28")).run (Machine.step sampleSupply)
    ⟨midnightDb, .idle, 0⟩ = (.ok [midnightSlot], ⟨midnightDb, .idle, n⟩) := by
  have hreads := reads_compute utc 0 1 midnightDb (sampleQuery "2026-03-28") sampleSupply
  rw [midnight_computed] at hreads
  exact hreads.run 0

theorem slots_avoid_iff_midnight :
    (∀ service, (rowsOf midnightDb .services 1 fun r =>
          r.id = (sampleQuery "2026-03-28").serviceId).head? = some service →
        ∀ slot ∈ [midnightSlot], Avoids utc 1 midnightDb service slot) ↔
      FetchesBlockers utc 0 1 midnightDb (sampleQuery "2026-03-28") := by
  obtain ⟨n, hrun⟩ := midnight_run
  exact (slots_avoid_iff hrun).1

/-- The slot after midnight lies in the 30 minutes after the booking. -/
theorem slots_not_always_avoid :
    ¬∀ (rt : AvailabilityRuntime) (now : Instant) (tenantId : Uuid) (db : Store platformSchema)
      (query : AvailabilityQueryDto) (supply : ℕ → Uuid × ℤ) (slots : List AvailabilitySlot) (n : ℕ)
      (m : Machine platformSchema),
      (compute rt now tenantId query).run (Machine.step supply) ⟨db, .idle, n⟩ = (.ok slots, m) →
      ∀ service, (rowsOf db .services tenantId fun r => r.id = query.serviceId).head? =
        some service →
        ∀ slot ∈ slots, Avoids rt tenantId db service slot := by
  intro hall
  obtain ⟨n, hrun⟩ := midnight_run
  have hapart := hall utc 0 1 midnightDb (sampleQuery "2026-03-28") sampleSupply
    [midnightSlot] 0 _ hrun
    (sampleService 30) midnight_resolved.service midnightSlot List.mem_cons_self
    ⟨1774656000000, 1774657800000⟩ (by constructor <;> decide) _ _
    (.booking (sampleBookingAt 1774654200000 1774656000000) List.mem_cons_self rfl rfl
      (by decide) rfl)
  exact hapart 1774656000000 (by constructor <;> decide) (by constructor <;> decide)

/-! ## Slots of one staff member -/

section Windows

variable (rt : AvailabilityRuntime) (now : Instant) (tenantId : Uuid) (db : Store platformSchema)
  (query : AvailabilityQueryDto)

/-- The windows of every staff member that is asked for, on the day that is asked for, are
related. -/
def WindowsRelated (R : (service : ServiceRow) → (zone : String) → (day : ℤ) → (staffId : Uuid) →
    MsInterval → MsInterval → Prop) : Prop :=
  ∀ day service tenant, Resolved rt tenantId db query day service tenant →
    ∀ staffId ∈ staffIdsOf tenantId db query, Listed tenantId db query staffId →
      (hoursOf rt now tenantId db tenant.timezone day staffId).Pairwise fun w w' =>
        R service tenant.timezone day staffId (windowInterval rt now tenant.timezone day w)
          (windowInterval rt now tenant.timezone day w')

/-- Where the windows of a staff member overlap, the time off and bookings that are fetched block a
slot. -/
def OverlapsBlocked : Prop :=
  WindowsRelated rt now tenantId db query fun service zone day staffId =>
    OverlapBlocked (service.durationMin * minuteMs)
      (blockersOf rt now tenantId db service zone day staffId)

/-- The windows of a staff member have no instant in common, as far as they are sliced. -/
def WindowsApart : Prop :=
  WindowsRelated rt now tenantId db query fun service _ _ _ window window' =>
    (sliced (service.durationMin * minuteMs) window).Apart
      (sliced (service.durationMin * minuteMs) window')

/-- The database with other bookings and time off. -/
def blockedBy (bookings : List StoredBooking) (timeOff : List TimeOff) : Store platformSchema
  | .bookings => bookings
  | .timeOff => timeOff
  | τ => db τ

/-- The slots returned for a staff member are pairwise apart. -/
def SlotsApart (slots : List AvailabilitySlot) (staffId : Uuid) : Prop :=
  (slots.filter (·.staffId = staffId)).Pairwise fun slot slot' =>
    ∀ i i', Shows rt slot i → Shows rt slot' i' → i.Apart i'

end Windows

section Windows

variable {rt : AvailabilityRuntime} {now : Instant} {tenantId : Uuid} {db : Store platformSchema}
  {query : AvailabilityQueryDto} {service : ServiceRow} {zone : String} {day : ℤ} {staffId : Uuid}

/-- A staff member is linked to a service once, so a query asks for each staff member once. -/
theorem nodup_staffIdsOf
    (hlinks : (db .staffServices).Pairwise fun r r' => constraint .staffServices r r' = none) :
    (staffIdsOf tenantId db query).Nodup := by
  unfold staffIdsOf
  cases query.staffId with
  | some staffId => exact List.nodup_singleton staffId
  | none =>
    refine List.pairwise_map.2 ?_
    have hfiltered := hlinks.filter (p := fun r =>
      scopedWhere .staffServices tenantId (fun r => r.serviceId = query.serviceId) r &&
        rowLive .staffServices r)
    refine hfiltered.imp_of_mem fun {r r'} hr hr' hfree heq => ?_
    obtain ⟨-, hservice, htenant, -⟩ := mem_rowsOf.1 hr
    obtain ⟨-, hservice', htenant', -⟩ := mem_rowsOf.1 hr'
    simp only [decide_eq_true_eq] at hservice hservice'
    have hsame : r.tenantId = r'.tenantId := Option.some.inj (htenant.trans htenant'.symm)
    -- two links of one staff member to the service violate the unique index
    have hrefused : constraint .staffServices r r' = some uniqueViolation := by
      simp [constraint, unique, hsame, heq, hservice, hservice']
    rw [hrefused] at hfree
    cases hfree

/-- The intervals offered for one of the staff members, among all of them. -/
theorem filter_allOffered {staffIds : List Uuid} (hnodup : staffIds.Nodup)
    (hstaff : staffId ∈ staffIds) :
    (allOffered rt now tenantId db query service zone day staffIds).filter (·.1 = staffId) =
      (offered rt now tenantId db query service zone day staffId).map (staffId, ·) := by
  induction staffIds with
  | nil => exact absurd hstaff List.not_mem_nil
  | cons staffId' staffIds ih =>
    have hrest := (List.nodup_cons.1 hnodup).1
    unfold allOffered
    rw [List.flatMap_cons, List.filter_append]
    by_cases heq : staffId' = staffId
    · -- the staff member comes here, and not again
      subst heq
      have hhead : ((offered rt now tenantId db query service zone day staffId').map
        (staffId', ·)).filter
          (·.1 = staffId') = (offered rt now tenantId db query service zone day staffId').map
            (staffId', ·) :=
        List.filter_eq_self.2 fun c hc => by
          obtain ⟨i, -, rfl⟩ := List.mem_map.1 hc
          simp
      have htail : (staffIds.flatMap fun staffId =>
          (offered rt now tenantId db query service zone day staffId).map (staffId, ·)).filter
            (·.1 = staffId') = [] := by
        refine List.filter_eq_nil_iff.2 fun c hc => ?_
        obtain ⟨hmem, -⟩ := mem_allOffered.1 hc
        have hne : c.1 ≠ staffId' := fun h => hrest (h ▸ hmem)
        simpa using hne
      rw [hhead, htail, List.append_nil]
    · -- somebody else comes first
      have hhead : ((offered rt now tenantId db query service zone day staffId').map
        (staffId', ·)).filter (·.1 = staffId) = [] := by
        refine List.filter_eq_nil_iff.2 fun c hc => ?_
        obtain ⟨i, -, rfl⟩ := List.mem_map.1 hc
        simpa using heq
      rw [hhead, List.nil_append]
      exact ih (List.nodup_cons.1 hnodup).2 ((List.mem_cons.1 hstaff).resolve_left (Ne.symm heq))

theorem pairwise_iff_of_forall₂ {α β : Type} {R : α → β → Prop} {S : α → α → Prop}
    {T : β → β → Prop} {xs : List α} {ys : List β} (h : List.Forall₂ R xs ys)
    (hrel : ∀ {x y x' y'}, R x y → R x' y' → (S x x' ↔ T y y')) :
    xs.Pairwise S ↔ ys.Pairwise T := by
  induction h with
  | nil => simp
  | cons hxy htail ih =>
    rw [List.pairwise_cons, List.pairwise_cons, ih]
    refine and_congr_left fun _ => ⟨fun hall y' hy' => ?_, fun hall x' hx' => ?_⟩
    · obtain ⟨x', hx', hxy'⟩ := exists_of_mem_right htail hy'
      exact (hrel hxy hxy').1 (hall x' hx')
    · obtain ⟨y', hy', hxy'⟩ := exists_of_mem_left htail hx'
      exact (hrel hxy hxy').2 (hall y' hy')

theorem offered_eq (h : Listed tenantId db query staffId) :
    offered rt now tenantId db query service zone day staffId =
      (hoursOf rt now tenantId db zone day staffId).flatMap
        (fun window => generateSlots (windowInterval rt now zone day window)
          (service.durationMin * minuteMs)
          (blockersOf rt now tenantId db service zone day staffId)) := by
  obtain ⟨⟨staff, hstaff, hactive⟩, hlinked⟩ := h
  have hnot : ¬((query.staffId.isSome ∧ linksOf tenantId db query staffId = []) ∨
      staff.active = false) := by
    rintro (⟨hnamed, hnone⟩ | hinactive)
    · exact hlinked hnamed hnone
    · rw [hactive] at hinactive
      cases hinactive
  unfold offered
  rw [hstaff]
  dsimp only
  rw [if_neg hnot]

/-- The intervals offered for a staff member are apart if the overlaps of windows are blocked. -/
theorem pairwise_offered (h : Listed tenantId db query staffId) :
    (offered rt now tenantId db query service zone day staffId).Pairwise Apart ↔
      (hoursOf rt now tenantId db zone day staffId).Pairwise fun w w' =>
        OverlapBlocked (service.durationMin * minuteMs)
          (blockersOf rt now tenantId db service zone day staffId)
          (windowInterval rt now zone day w) (windowInterval rt now zone day w') := by
  simp only [← generateSlots_apart_iff (durationMs_pos service)]
  rw [offered_eq h, List.pairwise_flatMap]
  constructor
  · exact fun hpairwise => hpairwise.2
  · exact fun hwindows => ⟨fun w _ => pairwise_generateSlots (durationMs_pos service) _ _, hwindows⟩

theorem listed_of_mem_offered {slot : MsInterval}
    (h : slot ∈ offered rt now tenantId db query service zone day staffId) :
    Listed tenantId db query staffId := (mem_offered.1 h).1

/-- The slots returned for each staff member are pairwise apart exactly if overlaps of windows are
blocked. -/
theorem slotsApart_iff {supply : ℕ → Uuid × ℤ} {slots : List AvailabilitySlot} {n : ℕ}
    {m : Machine platformSchema}
    (hlinks : (db .staffServices).Pairwise fun r r' => constraint .staffServices r r' = none)
    (hslots : (compute rt now tenantId query).run (Machine.step supply)
      ⟨db, .idle, n⟩ = (.ok slots, m)) :
    (∀ staffId, SlotsApart rt slots staffId) ↔ OverlapsBlocked rt now tenantId db query := by
  obtain ⟨day, service, tenant, hresolved, raw, hperm, hraw⟩ :=
    computed_eq_ok (computed_of_run hslots)
  have hnodup : (staffIdsOf tenantId db query).Nodup := nodup_staffIdsOf hlinks
  -- the order of the slots does not matter
  have hsymm : ∀ slot slot' : AvailabilitySlot,
      (∀ i i', Shows rt slot i → Shows rt slot' i' → i.Apart i') →
        ∀ i i', Shows rt slot' i → Shows rt slot i' → i.Apart i' :=
    fun _ _ h i i' hi hi' => (h i' i hi' hi).symm
  have hsorted : ∀ staffId, SlotsApart rt slots staffId ↔ SlotsApart rt raw staffId :=
      fun staffId =>
    ((hperm.filter _).pairwise_iff (hsymm _ _)).symm
  -- and the slots of a staff member are the intervals offered for them
  have hoffered : ∀ staffId ∈ staffIdsOf tenantId db query, SlotsApart rt raw staffId ↔
      (offered rt now tenantId db query service tenant.timezone day staffId).Pairwise Apart := by
    intro staffId hstaff
    have hsameStaff : ∀ {c : Uuid × MsInterval} {slot : AvailabilitySlot},
      toSlot rt c.1 c.2 = .ok slot →
        (decide (c.1 = staffId) ↔ decide (slot.staffId = staffId)) := by
      intro c slot h
      obtain ⟨-, -, rfl⟩ := toSlot_eq_ok.1 h
      exact Iff.rfl
    have hfiltered := List.rel_filter (p := fun c => decide (c.1 = staffId))
      (q := fun slot => decide (slot.staffId = staffId)) (fun _ _ h => hsameStaff h) hraw
    rw [filter_allOffered hnodup hstaff] at hfiltered
    unfold SlotsApart
    rw [← pairwise_iff_of_forall₂ hfiltered (S := fun c c' => c.2.Apart c'.2), List.pairwise_map]
    intro c slot c' slot' h h'
    constructor
    · intro happart i i' hi hi'
      rw [(shows_iff h).1 hi, (shows_iff h').1 hi']
      exact happart
    · exact fun happart => happart _ _ ((shows_iff h).2 rfl) ((shows_iff h').2 rfl)
  constructor
  · intro happart day' service' tenant' hresolved' staffId hstaff hlisted
    obtain rfl : day = day' := Option.some.inj (hresolved.isoDay.symm.trans hresolved'.isoDay)
    obtain rfl : service = service' :=
      Option.some.inj (hresolved.service.symm.trans hresolved'.service)
    obtain rfl : tenant = tenant' := Option.some.inj (hresolved.tenant.symm.trans hresolved'.tenant)
    exact (pairwise_offered hlisted).1
      ((hoffered staffId hstaff).1 ((hsorted staffId).1 (happart staffId)))
  · intro hwindows staffId
    refine (hsorted staffId).2 ?_
    by_cases hstaff : staffId ∈ staffIdsOf tenantId db query
    · refine (hoffered staffId hstaff).2 ?_
      by_cases hlisted : Listed tenantId db query staffId
      · exact (pairwise_offered hlisted).2
          (hwindows day service tenant hresolved staffId hstaff hlisted)
      · -- nothing is offered for a staff member that is not listed
        have hnone : offered rt now tenantId db query service tenant.timezone day staffId = [] :=
          List.eq_nil_iff_forall_not_mem.2 fun slot hslot => hlisted (listed_of_mem_offered hslot)
        rw [hnone]
        exact .nil
    · have hnone : raw.filter (·.staffId = staffId) = [] := by
        refine List.filter_eq_nil_iff.2 fun slot hslot => ?_
        obtain ⟨c, hc, htoSlot⟩ := exists_of_mem_right hraw hslot
        obtain ⟨hmem, -⟩ := mem_allOffered.1 hc
        obtain ⟨-, -, rfl⟩ := toSlot_eq_ok.1 htoSlot
        have hne : c.1 ≠ staffId := fun h => hstaff (h ▸ hmem)
        simpa using hne
      unfold SlotsApart
      rw [hnone]
      exact .nil

/-- With nothing booked, only windows that are apart have no overlap that is not blocked. -/
theorem overlapsBlocked_iff_windowsApart :
    (∀ bookings timeOff, OverlapsBlocked rt now tenantId (blockedBy db bookings timeOff) query) ↔
      WindowsApart rt now tenantId db query := by
  constructor
  · -- with empty tables there is no blocker
    intro hblocked day service tenant hresolved staffId hstaff hlisted
    have hnone : blockersOf rt now tenantId
      (blockedBy db [] []) service tenant.timezone day staffId = [] := rfl
    have hpairwise := hblocked [] [] day service tenant
      ⟨hresolved.isoDay, hresolved.service, hresolved.tenant⟩
      staffId hstaff hlisted
    simp only [hnone, overlapBlocked_nil] at hpairwise
    exact hpairwise
  · intro happart bookings timeOff day service tenant hresolved staffId hstaff hlisted
    have hpairwise := happart day service tenant
      ⟨hresolved.isoDay, hresolved.service, hresolved.tenant⟩ staffId hstaff
      hlisted
    exact hpairwise.imp overlapBlocked_of_apart

/-- On a day without a transition, the windows are apart if the working hours do not overlap. -/
theorem windowsApart_of_steady
    (hhours : ∀ window ∈ db .workingHours, window.startMin < window.endMin ∧ window.endMin ≤ 1440)
    (hdisjoint : (db .workingHours).Pairwise fun w w' => constraint .workingHours w w' = none)
    (hsteady : ∀ day service tenant, Resolved rt tenantId db query day service tenant →
      ∃ o, SteadyDay (rt.zone tenant.timezone) day o) :
    WindowsApart rt now tenantId db query := by
  intro day service tenant hresolved staffId _ _
  obtain ⟨o, ho⟩ := hsteady day service tenant hresolved
  have hfiltered := hdisjoint.filter (p := fun r =>
    scopedWhere .workingHours tenantId
      (fun r => r.staffId = staffId ∧ r.weekday = weekdayInZone rt now tenant.timezone day) r &&
      rowLive .workingHours r)
  refine hfiltered.imp_of_mem fun {w w'} hw hw' hfree => ?_
  obtain ⟨hmem, hwhere, htenant, -⟩ := mem_rowsOf.1 hw
  obtain ⟨hmem', hwhere', htenant', -⟩ := mem_rowsOf.1 hw'
  simp only [decide_eq_true_eq] at hwhere hwhere'
  obtain ⟨horder, hend⟩ := hhours w hmem
  obtain ⟨horder', hend'⟩ := hhours w' hmem'
  -- the constraint keeps the minutes apart
  have hminutes : w.endMin ≤ w'.startMin ∨ w'.endMin ≤ w.startMin := by
    have hsame : w.tenantId = w'.tenantId := Option.some.inj (htenant.trans htenant'.symm)
    have hnot : ¬max w.startMin w'.startMin < min w.endMin w'.endMin := by
      intro hoverlap
      have hrefused : constraint .workingHours w w' = some exclusionViolation :=
        if_pos ⟨hsame, hwhere.1.trans hwhere'.1.symm, hwhere.2.trans hwhere'.2.symm, hoverlap⟩
      rw [hrefused] at hfree
      cases hfree
    omega
  -- and the conversion keeps their order
  have hearlier : ∀ {w w' : WorkingHours}, w.startMin < w.endMin → w.endMin ≤ w'.startMin →
    w'.startMin ≤ 1440 →
      (sliced (service.durationMin * minuteMs) (windowInterval rt now tenant.timezone day w)).Apart
        (sliced (service.durationMin * minuteMs)
          (windowInterval rt now tenant.timezone day w')) := by
    intro w w' horder hle hend
    have hminute : (0 : ℤ) ≤ minuteMs := by decide
    have hstart : (w.startMin : ℤ) * minuteMs ≤ w.endMin * minuteMs :=
      mul_le_mul_of_nonneg_right (by exact_mod_cast horder.le) hminute
    have hstop : (w.endMin : ℤ) * minuteMs ≤ w'.startMin * minuteMs :=
      mul_le_mul_of_nonneg_right (by exact_mod_cast hle) hminute
    have hwindow : (windowInterval rt now tenant.timezone day w).start ≤
        (windowInterval rt now tenant.timezone day w).stop := by
      simp only [windowInterval]
      rw [localMinutesToUtc_steady ho (by omega), localMinutesToUtc_steady ho (by omega)]
      linarith
    have hnext : (windowInterval rt now tenant.timezone day w).stop ≤
        (windowInterval rt now tenant.timezone day w').start := by
      simp only [windowInterval]
      rw [localMinutesToUtc_steady ho (by omega), localMinutesToUtc_steady ho (by omega)]
      linarith
    exact apart_of_le ((sliced_stop_le (durationMs_pos service) hwindow).trans hnext)
  rcases hminutes with hle | hle
  · exact hearlier horder hle (by omega)
  · exact (hearlier horder' hle (by omega)).symm

/-- The slots returned for each staff member are pairwise apart exactly if the overlaps of windows,
converted end by end, are blocked. Whatever is booked, that is so exactly if the windows have no
instant in common as far as they are sliced, which on a day without a transition they never have. -/
theorem slots_apart_iff {supply : ℕ → Uuid × ℤ} {slots : List AvailabilitySlot} {n : ℕ}
    {m : Machine platformSchema}
    (hlinks : (db .staffServices).Pairwise fun r r' => constraint .staffServices r r' = none)
    (hslots : (compute rt now tenantId query).run (Machine.step supply)
      ⟨db, .idle, n⟩ = (.ok slots, m)) :
    ((∀ staffId, SlotsApart rt slots staffId) ↔ OverlapsBlocked rt now tenantId db query) ∧
      ((∀ bookings timeOff, OverlapsBlocked rt now tenantId (blockedBy db bookings timeOff) query) ↔
        WindowsApart rt now tenantId db query) ∧
      ((∀ window ∈ db .workingHours, window.startMin < window.endMin ∧ window.endMin ≤ 1440) →
        ((db .workingHours).Pairwise fun w w' => constraint .workingHours w w' = none) →
        (∀ day service tenant, Resolved rt tenantId db query day service tenant →
          ∃ o, SteadyDay (rt.zone tenant.timezone) day o) →
        WindowsApart rt now tenantId db query) :=
  ⟨slotsApart_iff hlinks hslots, overlapsBlocked_iff_windowsApart, windowsApart_of_steady⟩

end Windows

/-! ## Two windows around a gap

On 2026-03-08 the clocks of New York go from 02:00 to 03:00, so a window from 02:00 to 02:30 and one
from 03:00 to 03:30 become the same half hour. -/

def newYorkTexts : SampleTexts where
  entries := [(1772953200000, "2026-03-08T07:00:00.000Z"),
    (1772955000000, "2026-03-08T07:30:00.000Z")]
  distinct := by decide
  unmarked := by decide

def newYork : AvailabilityRuntime :=
  sampleAvailability newYorkTexts "2026-03-08" 20520 1772953200000 (-18000000) (-14400000)

def gapDb : Store platformSchema :=
  sampleTenant "America/New_York" (sampleService 0)
    [⟨50, 1, 10, 0, 120, 150⟩, ⟨51, 1, 10, 0, 180, 210⟩] []

def gapSlot : AvailabilitySlot := ⟨10, "2026-03-08T07:00:00.000Z", "2026-03-08T07:30:00.000Z"⟩

theorem gap_resolved : Resolved newYork 1 gapDb (sampleQuery "2026-03-08") 20520 (sampleService 0)
    ⟨⟨"America/New_York"⟩, 1⟩ := ⟨rfl, rfl, rfl⟩

theorem gap_computed :
    computed newYork 0 1 gapDb (sampleQuery "2026-03-08") = .ok [gapSlot, gapSlot] := by
  have hslots : (allOffered newYork 0 1 gapDb (sampleQuery "2026-03-08") (sampleService 0)
      "America/New_York" 20520 (staffIdsOf 1 gapDb (sampleQuery "2026-03-08"))).mapM
        (fun c => toSlot newYork c.1 c.2) = .ok [gapSlot, gapSlot] := by
    decide +kernel
  rw [computed_resolved gap_resolved, hslots]
  exact congrArg Except.ok (List.mergeSort_of_pairwise (by decide))

theorem gap_run :
    ∃ n, (compute newYork 0 1 (sampleQuery "2026-03-08")).run (Machine.step sampleSupply)
    ⟨gapDb, .idle, 0⟩ = (.ok [gapSlot, gapSlot], ⟨gapDb, .idle, n⟩) := by
  have hreads := reads_compute newYork 0 1 gapDb (sampleQuery "2026-03-08") sampleSupply
  rw [gap_computed] at hreads
  exact hreads.run 0

theorem gap_not_apart : ¬SlotsApart newYork [gapSlot, gapSlot] 10 := by
  intro happart
  have hshows : Shows newYork gapSlot ⟨1772953200000, 1772955000000⟩ := by constructor <;> decide
  exact not_apart_self (by decide)
    ((List.pairwise_cons.1 happart).1 gapSlot List.mem_cons_self _ _ hshows hshows)

/-- The windows have the half hour in common, and nothing blocks it. -/
theorem slots_apart_iff_gap : ¬OverlapsBlocked newYork 0 1 gapDb (sampleQuery "2026-03-08") ∧
    ¬WindowsApart newYork 0 1 gapDb (sampleQuery "2026-03-08") := by
  obtain ⟨n, hrun⟩ := gap_run
  obtain ⟨hiff, hbooked, -⟩ := slots_apart_iff (List.pairwise_singleton _ _) hrun
  have hnot : ¬OverlapsBlocked newYork 0 1 gapDb (sampleQuery "2026-03-08") :=
    fun hblocked => gap_not_apart (hiff.2 hblocked 10)
  have hnothing : blockedBy gapDb [] [] = gapDb := by
    funext τ
    cases τ <;> rfl
  refine ⟨hnot, fun happart => hnot ?_⟩
  have hblocked := hbooked.2 happart [] []
  rwa [hnothing] at hblocked

/-- The half hour is returned twice. -/
theorem slots_not_always_apart :
    ¬∀ (rt : AvailabilityRuntime) (now : Instant) (tenantId : Uuid) (db : Store platformSchema)
      (query : AvailabilityQueryDto) (supply : ℕ → Uuid × ℤ) (slots : List AvailabilitySlot) (n : ℕ)
      (m : Machine platformSchema),
      ((db .staffServices).Pairwise fun r r' => constraint .staffServices r r' = none) →
      (∀ window ∈ db .workingHours, window.startMin < window.endMin ∧ window.endMin ≤ 1440) →
      ((db .workingHours).Pairwise fun w w' => constraint .workingHours w w' = none) →
      (compute rt now tenantId query).run (Machine.step supply) ⟨db, .idle, n⟩ = (.ok slots, m) →
      ∀ staffId, SlotsApart rt slots staffId := by
  intro hall
  obtain ⟨n, hrun⟩ := gap_run
  exact gap_not_apart (hall newYork 0 1 gapDb (sampleQuery "2026-03-08") sampleSupply
    [gapSlot, gapSlot] 0 _ (List.pairwise_singleton _ _) (by decide) (by decide) hrun 10)

end AvailabilityService

end BookingPlatform
