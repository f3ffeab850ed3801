import BookingPlatform.Library.Calendar
import BookingPlatform.Library.Zone
import BookingPlatform.Reporting.Service
import Mathlib.Tactic.IntervalCases

/-!
# Reports by Local Date

The bounds of a report are local midnights that the database converts to instants, and its buckets
are instants converted to local dates. The two agree for a midnight that the clock of the tenant
passes once: of a midnight that occurs twice the later one is the bound, but the date starts with
the earlier one.

## Main definitions

- `ReportingRuntime.Keeps`: the database converts by the clock of a zone.
- `CountsByDate`: the report counts the bookings of its dates and labels them with these.

## Main results

- `readDate_toChar`: the text of a day is the text of its date.
- `countsByDate_iff`: a report counts by date exactly if no booking that matters starts at an
  instant that is misread at one of its bounds.
-/

namespace BookingPlatform

open Library

/-! ## The date of a day -/

/-- The year of a day of an era, that is a cycle of 400 years: a quotient that corrects for leap
days. The year is split into centuries, cycles of four years and the rest. -/
theorem yearOfEra {c q s doy e f g : ℤ} (hc : 0 ≤ c ∧ c < 4) (hq : 0 ≤ q ∧ q < 25)
    (hs : 0 ≤ s ∧ s < 4) (hdoy : 0 ≤ doy ∧ doy ≤ 365) (hleap : doy = 365 → s = 3 ∧ (q = 24 → c = 3))
    (he : e = (36524 * c + 1461 * q + 365 * s + doy) / 1460)
    (hf : f = (36524 * c + 1461 * q + 365 * s + doy) / 36524)
    (hg : g = (36524 * c + 1461 * q + 365 * s + doy) / 146096) :
    (36524 * c + 1461 * q + 365 * s + doy - e + f - g) / 365 = 100 * c + 4 * q + s := by
  have hin : 1461 * q + 365 * s + doy ≤ 36524 ∧
    (1461 * q + 365 * s + doy = 36524 → c = 3) := by omega
  have hlast : g = if 1461 * q + 365 * s + doy = 36524 then 1 else 0 := by split <;> omega
  have hcentury : f = c + g := by split at hlast <;> omega
  obtain ⟨e', he'⟩ : ∃ e', e = 25 * c + q + e' := ⟨e - 25 * c - q, by omega⟩
  have hrest : e' = (24 * c + q + 365 * s + doy) / 1460 := by omega
  have hbound : 0 ≤ e' ∧ e' ≤ 1 := by omega
  split at hlast <;> omega

/-- The civil date of a day, from its March-based year and the day of that year. -/
theorem civilOfDay_eq {Y doy : ℤ} (hdoy : 0 ≤ doy ∧ doy ≤ 365)
    (hleap : doy = 365 → (Y + 1) % 4 = 0 ∧ ((Y + 1) % 100 ≠ 0 ∨ (Y + 1) % 400 = 0)) :
    civilOfDay (365 * Y + Y / 4 - Y / 100 + Y / 400 + doy - 719468) =
      let mp := (5 * doy + 2) / 153
      let d := doy - (153 * mp + 2) / 5 + 1
      let m := if mp < 10 then mp + 3 else mp - 9
      (Y + (if m ≤ 2 then 1 else 0), m, d) := by
  -- the year is 400 * era + 100 * c + 4 * q + s
  obtain ⟨era, yoe, hyoe, rfl⟩ : ∃ era yoe : ℤ, (0 ≤ yoe ∧ yoe < 400) ∧ Y = 400 * era + yoe :=
    ⟨Y / 400, Y % 400, by omega, by omega⟩
  obtain ⟨c, r, hc, hr, rfl⟩ : ∃ c r : ℤ, (0 ≤ c ∧ c < 4) ∧ (0 ≤ r ∧ r < 100) ∧ yoe = 100 * c + r :=
    ⟨yoe / 100, yoe % 100, by omega, by omega, by omega⟩
  obtain ⟨q, s, hq, hs, rfl⟩ : ∃ q s : ℤ, (0 ≤ q ∧ q < 25) ∧ (0 ≤ s ∧ s < 4) ∧ r = 4 * q + s :=
    ⟨r / 4, r % 4, by omega, by omega, by omega⟩
  have hleap' : doy = 365 → s = 3 ∧ (q = 24 → c = 3) := by omega
  have hday : 365 * (400 * era + (100 * c + (4 * q + s))) +
      (400 * era + (100 * c + (4 * q + s))) / 4 - (400 * era + (100 * c + (4 * q + s))) / 100 +
      (400 * era + (100 * c + (4 * q + s))) / 400 + doy - 719468 + 719468 =
      146097 * era + (36524 * c + 1461 * q + 365 * s + doy) := by omega
  have hera : (146097 * era + (36524 * c + 1461 * q + 365 * s + doy)) / 146097 = era := by omega
  have hdoe : 146097 * era + (36524 * c + 1461 * q + 365 * s + doy) - era * 146097 =
      36524 * c + 1461 * q + 365 * s + doy := by omega
  unfold civilOfDay
  simp only [hday, hera, hdoe, yearOfEra hc hq hs hdoy hleap' rfl rfl rfl]
  have hfour : (100 * c + 4 * q + s) / 4 = 25 * c + q := by omega
  have hhundred : (100 * c + 4 * q + s) / 100 = c := by omega
  rw [hfour, hhundred]
  have hdoy' : 36524 * c + 1461 * q + 365 * s + doy -
      (365 * (100 * c + 4 * q + s) + (25 * c + q) - c) = doy := by omega
  rw [hdoy']
  have hyear : 100 * c + 4 * q + s + era * 400 = 400 * era + (100 * c + (4 * q + s)) := by omega
  rw [hyear]

/-- The month of a day of the March-based year: five months have 153 days. -/
theorem monthOfYear (mp d : ℤ) (hd : 1 ≤ d)
    (hd' : d ≤ (153 * (mp + 1) + 2) / 5 - (153 * mp + 2) / 5) :
    (5 * ((153 * mp + 2) / 5 + d - 1) + 2) / 153 = mp := by omega

/-- The days before a month, from March on. -/
theorem daysBeforeMonth_eq (year : ℤ) {m : ℕ} (h : 3 ≤ m) (h' : m ≤ 12) :
    (daysBeforeMonth year m : ℤ) = (153 * ((m : ℤ) - 3) + 2) / 5 + 31 + daysInMonth year 2 := by
  interval_cases m <;> simp [daysBeforeMonth, daysInMonth] <;> omega

theorem daysInMonth_le (year : ℤ) {m : ℕ} (h : 3 ≤ m) (h' : m ≤ 12) :
    (daysInMonth year m : ℤ) ≤ (153 * ((m : ℤ) - 3 + 1) + 2) / 5 - (153 * ((m :
      ℤ) - 3) + 2) / 5 := by
  interval_cases m <;> simp [daysInMonth]

/-- The March-based year starts after the February of the year. -/
theorem daysBeforeYear_march (year : ℤ) : daysBeforeYear year + 31 + daysInMonth year 2 =
    365 * year + year / 4 - year / 100 + year / 400 - 719468 := by
  unfold daysBeforeYear
  rw [daysInMonth_february]
  by_cases hleap : isLeapYear year = true
  · rw [if_pos hleap]
    rw [isLeapYear_iff] at hleap
    omega
  · rw [if_neg hleap]
    rw [isLeapYear_iff] at hleap
    omega

/-- The civil date of the day of a date is the date. -/
theorem civilOfDay_epochDay {c : CivilDate} (h : c.IsReal) :
    civilOfDay c.epochDay = (c.year, (c.month : ℤ), (c.day : ℤ)) := by
  obtain ⟨y, m, d⟩ := c
  obtain ⟨hm, hm', hd, hd'⟩ := h
  dsimp only at hm hm' hd hd' ⊢
  by_cases hspring : 3 ≤ m
  · have hbefore := daysBeforeMonth_eq y hspring hm'
    have hlength := daysInMonth_le y hspring hm'
    have hday : CivilDate.epochDay ⟨y, m, d⟩ = 365 * y + y / 4 - y / 100 + y / 400 +
        ((153 * ((m : ℤ) - 3) + 2) / 5 + d - 1) - 719468 := by
      have hmarch := daysBeforeYear_march y
      simp only [CivilDate.epochDay, hbefore]
      omega
    have hmonth := monthOfYear ((m : ℤ) - 3) d (by omega) (by omega)
    rw [hday, civilOfDay_eq (by omega) (by omega)]
    have hnumber : (if (m : ℤ) - 3 < 10 then (m : ℤ) - 3 + 3 else (m : ℤ) - 3 - 9) =
      m := by split <;> omega
    simp only [hmonth, hnumber]
    rw [if_neg (by omega)]
    simp only [Prod.mk.injEq, true_and]
    omega
  · -- January and February belong to the March-based year before
    have hmarch := daysBeforeYear_march (y - 1)
    have hyear := daysBeforeYear_succ (y - 1)
    have hleap : d = 29 → m = 2 → (y % 4 = 0 ∧ (y % 100 ≠ 0 ∨ y % 400 = 0)) := by
      rintro rfl rfl
      rw [← isLeapYear_iff]
      by_contra hnot
      simp [daysInMonth, hnot] at hd'
    have hlength : d ≤ 31 ∧ (m = 2 → d ≤ 29) := by
      obtain rfl | rfl : m = 1 ∨ m = 2 := by omega
      · exact ⟨hd', by omega⟩
      · simp only [daysInMonth] at hd'
        split at hd' <;> omega
    have hthirteen : daysBeforeMonth (y - 1) 13 = 337 + daysInMonth (y - 1) 2 := by
      simp [daysBeforeMonth, daysInMonth]
      omega
    have hday : CivilDate.epochDay ⟨y, m, d⟩ =
      365 * (y - 1) + (y - 1) / 4 - (y - 1) / 100 + (y - 1) / 400 +
        ((153 * ((m : ℤ) + 9) + 2) / 5 + d - 1) - 719468 := by
      have hbefore : daysBeforeMonth y m = 31 * (m - 1) := by
        obtain rfl | rfl : m = 1 ∨ m = 2 := by omega
        · rfl
        · rfl
      rw [Int.sub_add_cancel] at hyear
      simp only [CivilDate.epochDay, hbefore]
      omega
    have hmonth := monthOfYear ((m : ℤ) + 9) d (by omega) (by omega)
    rw [hday, civilOfDay_eq (by omega) (by omega)]
    have hnumber : (if (m : ℤ) + 9 < 10 then (m : ℤ) + 9 + 3 else (m : ℤ) + 9 - 9) =
      m := by split <;> omega
    simp only [hmonth, hnumber]
    rw [if_pos (by omega)]
    simp only [Prod.mk.injEq, true_and]
    omega

/-! ## The text of a day -/

theorem toList_padded (width n : ℕ) : (padded width n).toList =
    List.replicate (width - (Nat.toDigits 10 n).length) '0' ++ Nat.toDigits 10 n := by
  have hlength : n.repr.length = (Nat.toDigits 10 n).length := by
    rw [← String.length_toList, Nat.toList_repr]
  unfold padded
  simp [hlength]

/-- The digits of a padded number. -/
theorem padded_digits (width n : ℕ) (hwidth : 0 < width) (h : n < 10 ^ width) :
    (padded width n).toList.length = width ∧ (∀ ch ∈ (padded width n).toList, ch.isDigit) ∧
      Nat.ofDigitChars 10 (padded width n).toList 0 = n := by
  rw [toList_padded]
  have hlength : (Nat.toDigits 10 n).length ≤ width :=
    (Nat.length_toDigits_le_iff (by decide) hwidth).2 h
  refine ⟨?_, ?_, ?_⟩
  · simp
    omega
  · intro ch hch
    rcases List.mem_append.1 hch with hzero | hdigit
    · rw [List.eq_of_mem_replicate hzero]
      rfl
    · exact Nat.isDigit_of_mem_toDigits (by decide) (by decide) hdigit
  · rw [Nat.ofDigitChars_append, Nat.ofDigitChars_replicate_zero, Nat.mul_zero,
      Nat.ofDigitChars_ten_toDigits]

/-- The text of a day of the years 1 to 9999 is the text of its date. -/
theorem readDate_toChar {c : CivilDate} (hreal : c.IsReal) (hfirst : 1 ≤ c.year)
    (hlast : c.year ≤ 9999) :
    readDate (toChar c.epochDay) = some c := by
  obtain ⟨year, hyear⟩ := Int.eq_ofNat_of_zero_le (by omega : 0 ≤ c.year)
  have hmonth := hreal.month_le
  have hday : c.day ≤ 31 := hreal.day_le.trans (daysInMonth_le_thirtyOne c.year c.month)
  obtain ⟨hys, hydigit, hyvalue⟩ := padded_digits 4 year (by decide) (by omega)
  obtain ⟨hms, hmdigit, hmvalue⟩ := padded_digits 2 c.month (by decide) (by omega)
  obtain ⟨hds, hddigit, hdvalue⟩ := padded_digits 2 c.day (by decide) (by omega)
  -- the year of four digits, the month and the day of two
  have htext : (toChar c.epochDay).toList = (padded 4 year).toList ++
    '-' :: (padded 2 c.month).toList ++
      '-' :: (padded 2 c.day).toList := by
    unfold toChar
    rw [civilOfDay_epochDay hreal]
    dsimp only
    rw [if_pos (by omega), hyear]
    simp
  rw [readDate_ofList hys hms hds _ htext, hyvalue, hmvalue, hdvalue]
  · rw [← hyear]
  · intro ch hch
    simp only [List.mem_append] at hch
    rcases hch with (hch | hch) | hch
    · exact hydigit ch hch
    · exact hmdigit ch hch
    · exact hddigit ch hch

/-! ## The clock of the database -/

/-- The database converts between instants and the local times of the time zone by the clock of `z`,
and casts the text of a date to its midnight. The year 0 is out of its range. -/
structure ReportingRuntime.Keeps (rt : ReportingRuntime) (timezone : String) {z : Zone}
    (clock : LaterClock z) : Prop where
  toLocal : ∀ t, rt.toLocal timezone t = z.toLocal t
  toInstant : ∀ l, rt.toInstant timezone l = clock.resolve l
  castTimestamp : ∀ text c, readDate text = some c → c.IsReal →
    rt.castTimestamp text = if 1 ≤ c.year then .ok (c.epochDay * dayMs) else .error "22008"

/-- The midnight that a date starts with, as a local time. -/
def midnight (c : CivilDate) : LocalTime := c.epochDay * dayMs

theorem midnight_le_iff {c : CivilDate} {l : LocalTime} : midnight c ≤ l ↔ c.epochDay ≤ l.day :=
  (Int.le_ediv_iff_mul_le (by decide)).symm

/-- `c` is the date at the instant `t`. -/
structure LocalDate (z : Zone) (t : Instant) (c : CivilDate) : Prop where
  real : c.IsReal
  shown : c.epochDay = LocalTime.day (z.toLocal t)

theorem LocalDate.midnight_le_iff {z : Zone} {t : Instant} {c c' : CivilDate} (h : LocalDate z t c)
    (hreal : c'.IsReal) : midnight c' ≤ z.toLocal t ↔ ¬c.Before c' := by
  rw [BookingPlatform.midnight_le_iff, ← h.shown]
  exact CivilDate.epochDay_le_iff hreal h.real

theorem exists_localDate (z : Zone) (t : Instant) : ∃ c, LocalDate z t c := by
  obtain ⟨c, hreal, hday⟩ := exists_date (LocalTime.day (z.toLocal t))
  exact ⟨c, hreal, hday⟩

/-! ## Reports -/

/-- A live booking of the tenant that passes the filters. -/
structure ReportFilters.Admits (filters : ReportFilters) (tenantId : Uuid) (b : StoredBooking) :
    Prop where
  tenant : b.tenantId = tenantId
  live : b.deletedAt = none
  staff : ∀ id ∈ filters.staffId, b.staffId = id
  service : ∀ id ∈ filters.serviceId, b.serviceId = id

/-- The filters are about the dates from `first` to `last`, exclusively. -/
structure ReportFilters.Spans (filters : ReportFilters) (first last : CivilDate) : Prop where
  readFirst : readDate filters.fromDate = some first
  readLast : readDate filters.toDate = some last
  firstReal : first.IsReal
  lastReal : last.IsReal
  before : first.Before last

/-- The booking starts on one of the dates from `first` to `last`, exclusively. -/
def StartsWithin (z : Zone) (first last : CivilDate) (b : StoredBooking) : Prop :=
  ∃ c, LocalDate z b.startsAt c ∧ ¬c.Before first ∧ c.Before last

theorem startsWithin_iff {z : Zone} {first last : CivilDate} (hfirst : first.IsReal)
    (hlast : last.IsReal) {b : StoredBooking} : StartsWithin z first last b ↔
      midnight first ≤ z.toLocal b.startsAt ∧ z.toLocal b.startsAt < midnight last := by
  constructor
  · rintro ⟨c, hdate, hnot, hbefore⟩
    refine ⟨(hdate.midnight_le_iff hfirst).2 hnot, not_le.1 fun hle => ?_⟩
    exact (hdate.midnight_le_iff hlast).1 hle hbefore
  · rintro ⟨hle, hlt⟩
    obtain ⟨c, hdate⟩ := exists_localDate z b.startsAt
    refine ⟨c, hdate, (hdate.midnight_le_iff hfirst).1 hle, ?_⟩
    by_contra hnot
    exact absurd ((hdate.midnight_le_iff hlast).2 hnot) (not_le.2 hlt)

/-- The text names one of the dates from `first` to `last`, exclusively. -/
def LabelWithin (first last : CivilDate) (label : String) : Prop :=
  ∃ c, readDate label = some c ∧ ¬c.Before first ∧ c.Before last

namespace ReportingRepository

variable (rt : ReportingRuntime) (rows : List StoredBooking) (tenantId : Uuid)
  (filters : ReportFilters)

/-- The bookings that a report counts. -/
def counted : Except Thrown (List StoredBooking) :=
  (range rt filters).map fun span => baseQuery rows tenantId filters span.1 span.2

variable {rt rows tenantId filters}

theorem bookings_eq_counted (groupBy : ReportGroupBy) : bookings rt rows tenantId groupBy filters =
    (counted rt rows tenantId filters).map (selectGroups rt.collate
      (fun b => bucketExpr rt filters.timezone b groupBy) bookingBucket) := by
  unfold bookings counted
  cases range rt filters with
  | error e => rfl
  | ok span => rfl

theorem revenue_eq_counted (groupBy : ReportGroupBy) : revenue rt rows tenantId groupBy filters =
    (counted rt rows tenantId filters).map fun group => selectGroups (collatePair rt)
      (fun b => (bucketExpr rt filters.timezone b groupBy, b.priceCurrency)) revenueBucket
      (group.filter (·.status ∈ revenueStatuses)) := by
  unfold revenue counted
  cases range rt filters with
  | error e => rfl
  | ok span => rfl

theorem mem_baseQuery {start stop : Instant} {b : StoredBooking} :
    b ∈ baseQuery rows tenantId filters start stop ↔
      b ∈ rows ∧ filters.Admits tenantId b ∧ start ≤ b.startsAt ∧ b.startsAt < stop := by
  simp only [baseQuery, List.mem_filter, decide_eq_true_eq]
  constructor
  · rintro ⟨hmem, htenant, hlive, hstart, hstop, hstaff, hservice⟩
    exact ⟨hmem, ⟨htenant, hlive, hstaff, hservice⟩, hstart, hstop⟩
  · rintro ⟨hmem, ⟨htenant, hlive, hstaff, hservice⟩, hstart, hstop⟩
    exact ⟨hmem, htenant, hlive, hstart, hstop, hstaff, hservice⟩

end ReportingRepository

/-- The report over the dates counts exactly the bookings of the tenant that start on them, and by
day it shows no other date. -/
structure CountsByDate (rt : ReportingRuntime) (z : Zone) (rows : List StoredBooking)
    (tenantId : Uuid) (filters : ReportFilters) (first last : CivilDate) : Prop where
  counted : ∃ report, ReportingRepository.counted rt rows tenantId filters = .ok report ∧
    ∀ b, b ∈ report ↔ b ∈ rows ∧ filters.Admits tenantId b ∧ StartsWithin z first last b
  bookings : ∀ report, ReportingRepository.bookings rt rows tenantId .day filters = .ok report →
    ∀ row ∈ report, LabelWithin first last row.bucket
  revenue : ∀ report, ReportingRepository.revenue rt rows tenantId .day filters = .ok report →
    ∀ row ∈ report, LabelWithin first last row.bucket

/-- No booking that the report counts, or that starts on one of its dates, starts at an instant that
is misread at a bound. The first year is year 1. -/
structure BoundsRead {z : Zone} (clock : LaterClock z) (rows : List StoredBooking) (tenantId : Uuid)
    (filters : ReportFilters) (first last : CivilDate) : Prop where
  year : 1 ≤ first.year
  bookings : ∀ b ∈ rows, filters.Admits tenantId b →
    (midnight first ≤ z.toLocal b.startsAt ∧ z.toLocal b.startsAt < midnight last) ∨
      (clock.resolve (midnight first) ≤ b.startsAt ∧ b.startsAt < clock.resolve (midnight last)) →
    ¬clock.Misread (midnight first) b.startsAt ∧ ¬clock.Misread (midnight last) b.startsAt

section Reports

variable {rt : ReportingRuntime} {z : Zone} {clock : LaterClock z} {rows : List StoredBooking}
  {tenantId : Uuid} {filters : ReportFilters} {first last : CivilDate}

theorem ReportFilters.Spans.year_le (h : filters.Spans first last) : first.year ≤ last.year := by
  have hbefore := h.before
  unfold CivilDate.Before at hbefore
  omega

variable (rows tenantId) in
/-- The range of a report is between the readings of its midnights. -/
theorem counted_eq (hrt : rt.Keeps filters.timezone clock) (hspans : filters.Spans first last)
    (hyear : 1 ≤ first.year) : ReportingRepository.counted rt rows tenantId filters =
      .ok (ReportingRepository.baseQuery rows tenantId filters (clock.resolve (midnight first))
        (clock.resolve (midnight last))) := by
  have hlast : 1 ≤ last.year := hyear.trans hspans.year_le
  have hfrom := hrt.castTimestamp _ _ hspans.readFirst hspans.firstReal
  have hto := hrt.castTimestamp _ _ hspans.readLast hspans.lastReal
  rw [if_pos hyear] at hfrom
  rw [if_pos hlast] at hto
  unfold ReportingRepository.counted ReportingRepository.range
  rw [hfrom, hto]
  dsimp only [Except.map]
  rw [hrt.toInstant, hrt.toInstant]
  rfl

theorem year_of_counted (hrt : rt.Keeps filters.timezone clock) (hspans : filters.Spans first last)
    {report : List StoredBooking}
    (h : ReportingRepository.counted rt rows tenantId filters = .ok report) :
    1 ≤ first.year := by
  by_contra hyear
  have hfrom := hrt.castTimestamp _ _ hspans.readFirst hspans.firstReal
  rw [if_neg hyear] at hfrom
  unfold ReportingRepository.counted ReportingRepository.range at h
  rw [hfrom] at h
  cases h

/-- A booking is in the range of instants whenever it is in the range of local times, and
conversely, exactly if neither bound is misread where one of them has it. -/
theorem range_iff_iff {m m' t : ℤ} :
    ((clock.resolve m ≤ t ∧ t < clock.resolve m') ↔ (m ≤ z.toLocal t ∧ z.toLocal t < m')) ↔
      ((m ≤ z.toLocal t ∧ z.toLocal t < m') ∨ (clock.resolve m ≤ t ∧ t < clock.resolve m') →
        ¬clock.Misread m t ∧ ¬clock.Misread m' t) := by
  unfold LaterClock.Misread
  rw [← not_le, ← not_le]
  tauto

/-- The label of a booking is the text of its local date. -/
theorem labelWithin_of_startsWithin (hrt : rt.Keeps filters.timezone clock)
    (hspans : filters.Spans first last) (hyear : 1 ≤ first.year) {b : StoredBooking}
    (h : StartsWithin z first last b) :
    LabelWithin first last (bucketExpr rt filters.timezone b .day) := by
  obtain ⟨c, hdate, hnot, hbefore⟩ := h
  have hlast := (readDate_year hspans.readLast).2
  refine ⟨c, ?_, hnot, hbefore⟩
  unfold bucketExpr
  rw [hrt.toLocal, ← hdate.shown]
  unfold CivilDate.Before at hnot hbefore
  exact readDate_toChar hdate.real (by omega) (by omega)

/-- The report counts by date exactly if its bounds are read right. -/
theorem countsByDate_iff_boundsRead (hrt : rt.Keeps filters.timezone clock)
    (hspans : filters.Spans first last) :
    CountsByDate rt z rows tenantId filters first last ↔
      BoundsRead clock rows tenantId filters first last := by
  constructor
  · intro h
    -- a report that counts right says of each booking which side of the bounds it is on
    obtain ⟨report, hreport, hmem⟩ := h.counted
    have hyear := year_of_counted hrt hspans hreport
    rw [counted_eq rows tenantId hrt hspans hyear] at hreport
    obtain rfl := Except.ok.inj hreport
    refine ⟨hyear, fun b hb hadmits => range_iff_iff.1 ?_⟩
    have hiff := hmem b
    rw [ReportingRepository.mem_baseQuery,
      startsWithin_iff hspans.firstReal hspans.lastReal] at hiff
    simpa only [hb, hadmits, true_and] using hiff
  · intro h
    have hcounted := counted_eq rows tenantId hrt hspans h.year
    -- the query takes the bookings whose dates are in the range
    have hmem : ∀ b, b ∈ ReportingRepository.baseQuery rows tenantId filters
        (clock.resolve (midnight first)) (clock.resolve (midnight last)) ↔
          b ∈ rows ∧ filters.Admits tenantId b ∧ StartsWithin z first last b := by
      intro b
      rw [ReportingRepository.mem_baseQuery, startsWithin_iff hspans.firstReal hspans.lastReal]
      constructor
      · rintro ⟨hb, hadmits, hrange⟩
        exact ⟨hb, hadmits, (range_iff_iff.2 (h.bookings b hb hadmits)).1 hrange⟩
      · rintro ⟨hb, hadmits, hdates⟩
        exact ⟨hb, hadmits, (range_iff_iff.2 (h.bookings b hb hadmits)).2 hdates⟩
    -- and their labels are dates of the range
    have hlabel : ∀ b ∈ ReportingRepository.baseQuery rows tenantId filters
        (clock.resolve (midnight first)) (clock.resolve (midnight last)),
        LabelWithin first last (bucketExpr rt filters.timezone b .day) := fun b hb =>
      labelWithin_of_startsWithin hrt hspans h.year ((hmem b).1 hb).2.2
    refine ⟨⟨_, hcounted, hmem⟩, ?_, ?_⟩
    · intro report hreport row hrow
      rw [ReportingRepository.bookings_eq_counted, hcounted] at hreport
      obtain rfl := Except.ok.inj hreport
      obtain ⟨label, hkey, rfl⟩ := List.mem_map.1 hrow
      obtain ⟨b, hb, rfl⟩ := mem_groupKeys.1 hkey
      exact hlabel b hb
    · intro report hreport row hrow
      rw [ReportingRepository.revenue_eq_counted, hcounted] at hreport
      obtain rfl := Except.ok.inj hreport
      obtain ⟨key, hkey, rfl⟩ := List.mem_map.1 hrow
      obtain ⟨b, hb, rfl⟩ := mem_groupKeys.1 hkey
      exact hlabel b (List.mem_of_mem_filter hb)

/-- Whatever is booked, the bounds are read right if the clock passes both midnights once. -/
theorem boundsRead_of_passesOnce (rows : List StoredBooking) (tenantId : Uuid)
    (filters : ReportFilters) (hyear : 1 ≤ first.year) (hfirst : z.PassesOnce (midnight first))
    (hlast : z.PassesOnce (midnight last)) :
    BoundsRead clock rows tenantId filters first last where
  year := hyear
  bookings _ _ _ _ := ⟨clock.not_misread_iff.2 hfirst _, clock.not_misread_iff.2 hlast _⟩

/-- No text is a label of both of two adjacent ranges. -/
theorem not_labelWithin_both {middle : CivilDate} {label : String}
    (h : LabelWithin first middle label) (h' : LabelWithin middle last label) : False := by
  obtain ⟨c, hread, -, hbefore⟩ := h
  obtain ⟨c', hread', hnot, -⟩ := h'
  obtain rfl := Option.some.inj (hread.symm.trans hread')
  exact hnot hbefore

/-- A report counts by date exactly if its bounds are read right, and it does so for all bookings if
no transition takes the clock back to or over one of its midnights. There are instants misread at a
midnight exactly if the clock does not pass it once. Adjacent reports by day have no label in common
if the bounds of both are read right. -/
theorem countsByDate_iff (hrt : rt.Keeps filters.timezone clock)
    (hspans : filters.Spans first last) :
    (CountsByDate rt z rows tenantId filters first last ↔
        BoundsRead clock rows tenantId filters first last) ∧
      (1 ≤ first.year → z.PassesOnce (midnight first) → z.PassesOnce (midnight last) →
        ∀ rows' tenantId', CountsByDate rt z rows' tenantId' filters first last) ∧
      (∀ c : CivilDate, (∃ t, clock.Misread (midnight c) t) ↔ ¬z.PassesOnce (midnight c)) ∧
      ∀ (filters' : ReportFilters) (last' : CivilDate), filters'.timezone = filters.timezone →
        filters'.Spans last last' → BoundsRead clock rows tenantId filters first last →
        BoundsRead clock rows tenantId filters' last last' →
        ∀ report report', ReportingRepository.bookings rt rows tenantId .day filters = .ok report →
          ReportingRepository.bookings rt rows tenantId .day filters' = .ok report' →
          ∀ row ∈ report, ∀ row' ∈ report', row.bucket ≠ row'.bucket := by
  refine ⟨countsByDate_iff_boundsRead hrt hspans, ?_, fun c => ?_, ?_⟩
  · intro hyear hfirst hlast rows' tenantId'
    exact (countsByDate_iff_boundsRead hrt hspans).2
      (boundsRead_of_passesOnce rows' tenantId' filters hyear hfirst hlast)
  · rw [← clock.not_misread_iff, not_forall]
    simp only [not_not]
  · intro filters' last' hzone hspans' hread hread' report report' hreport hreport' row hrow
      row' hrow' heq
    have hrt' : rt.Keeps filters'.timezone clock := by rwa [hzone]
    have hlabel := ((countsByDate_iff_boundsRead hrt hspans).2 hread).bookings report
      hreport row hrow
    have hlabel' := ((countsByDate_iff_boundsRead hrt' hspans').2 hread').bookings report'
      hreport' row' hrow'
    -- a label in common would be a date of both ranges
    rw [← heq] at hlabel'
    exact not_labelWithin_both hlabel hlabel'

end Reports

/-! ## A midnight that occurs twice -/

/-- On the 1st of November 2026 the clock goes back from 01:00 to 00:00, at 05:00 in UTC. -/
def havana : Zone := stepZone (20758 * dayMs + 300 * minuteMs) (-240 * minuteMs) (-300 * minuteMs)

def havanaClock : LaterClock havana :=
  stepLaterClock (20758 * dayMs + 300 * minuteMs) (-240 * minuteMs) (-300 * minuteMs)

def havanaReporting : ReportingRuntime where
  parseDate text := (isoDay text).map (· * dayMs)
  castTimestamp text := match readDate text with
    | some c => if c.IsReal ∧ 1 ≤ c.year then .ok (c.epochDay * dayMs) else .error "22008"
    | none => .error "22007"
  toInstant _ l := havanaClock.resolve l
  toLocal _ t := havana.toLocal t
  uuidText id := toString id
  collate s s' := s ≤ s'

theorem havanaReporting_keeps : havanaReporting.Keeps "America/Havana" havanaClock where
  toLocal _ := rfl
  toInstant _ := rfl
  castTimestamp text c hread hreal := by
    by_cases hyear : 1 ≤ c.year
    · simp [havanaReporting, hread, hreal, hyear]
    · simp [havanaReporting, hread, hyear]

def havanaFilters (fromDate toDate : String) : ReportFilters :=
  ⟨fromDate, toDate, "America/Havana", none, none⟩

/-- The first booking starts at 00:30 in the first of the two hours, the second one at 12:00. -/
def havanaBookings : List StoredBooking :=
  [⟨⟨1, 1, 1, 1, 1, 20758 * dayMs + 270 * minuteMs, 20758 * dayMs + 300 * minuteMs,
    .confirmed, 500, "CUP",
      none, 1⟩, none⟩,
    ⟨⟨2, 1, 1, 1, 1, 20758 * dayMs + 1020 * minuteMs, 20758 * dayMs + 1050 * minuteMs,
      .confirmed, 500, "CUP", none, 1⟩, none⟩]

theorem havanaFilters_spans :
    (havanaFilters "2026-11-01" "2026-11-02").Spans ⟨2026, 11, 1⟩ ⟨2026, 11, 2⟩ where
  readFirst := by decide +kernel
  readLast := by decide +kernel
  firstReal := by decide
  lastReal := by decide
  before := by decide

/-- The report of the day does not count the first of its bookings. -/
theorem havana_midnight_missed :
    ¬∀ (rt : ReportingRuntime) (z : Zone) (clock : LaterClock z) (rows : List StoredBooking)
      (tenantId : Uuid) (filters : ReportFilters) (first last : CivilDate),
        rt.Keeps filters.timezone clock →
      filters.Spans first last → CountsByDate rt z rows tenantId filters first last := by
  intro hall
  have hcounts := hall havanaReporting havana havanaClock havanaBookings 1
    _ _ _ havanaReporting_keeps
    havanaFilters_spans
  have hread := (countsByDate_iff_boundsRead havanaReporting_keeps havanaFilters_spans).1 hcounts
  have hright := (hread.bookings _ (List.mem_cons_self ..) ⟨rfl, rfl, nofun, nofun⟩ (by decide)).1
  exact hright (by decide)

/-- Of the second booking alone, the report is right. -/
theorem countsByDate_iff_havana : CountsByDate havanaReporting havana (havanaBookings.drop 1) 1
    (havanaFilters "2026-11-01" "2026-11-02") ⟨2026, 11, 1⟩ ⟨2026, 11, 2⟩ := by
  refine (countsByDate_iff havanaReporting_keeps havanaFilters_spans).1.2 ⟨by decide, ?_⟩
  intro b hb _ _
  obtain rfl := List.mem_singleton.1 hb
  exact ⟨by decide, by decide⟩

end BookingPlatform
