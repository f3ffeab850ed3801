import BookingPlatform.Availability.Separation
import BookingPlatform.Recurrence.Expander
import Mathlib.Algebra.BigOperators.Group.Finset.Basic

/-!
# Anchoring to the Wall Clock

An occurrence is to be the local time of its rule on its own date, as availability reads it. The
loops go from one cursor to the next, and so a cursor that falls into a gap stays moved on all later
dates, until other gaps bring it back to the same time of day.

## Main definitions

- `Anchored`: the occurrences are the readings of the local time on their dates.
- `drift`: how far the cursor has been moved on its way.

## Main results

- `toLocal_cursorOf`: the drift is what parts a cursor from the wall clock.
- `expandRecurrence_anchored_iff`: the exact condition.
- `anchored_of_shownOnce`: transitions that touch neither the local time nor midnight do no harm.
-/

namespace BookingPlatform

open Library

/-- Availability in the zones of the expansion. -/
def LuxonRuntime.dates (lux : LuxonRuntime) (rt : AvailabilityRuntime) : AvailabilityRuntime :=
  { rt with zone := lux.zone, clock := lux.clock }

/-- A time that occurs twice is read with the offset in force, if that shows it. -/
def LuxonRuntime.KeepsOffset (lux : LuxonRuntime) : Prop :=
  ∀ name ref l, (lux.zone name).toLocal (l - (lux.zone name).offset ref) = l →
    (lux.clock name).resolve ref l = l - (lux.zone name).offset ref

namespace RecurrenceExpander

/-! ## Moves -/

section Moves

variable (lux : LuxonRuntime) (rt : AvailabilityRuntime) (now now' : Instant)
  (rule : RecurrenceRule)

/-- Every occurrence is the local time of the rule on its own date. -/
def Anchored : Prop :=
  ∀ o ∈ expandRecurrence lux now rule, o =
    localMinutesToUtc (lux.dates rt) now' rule.timezone
      (localDay lux rule.timezone o) rule.startMinutes

/-- How far the clock of the zone moves a local time: by the length of the gap in which it lies, if
there is one. -/
def move (ref l : ℤ) : ℤ :=
  (lux.zone rule.timezone).toLocal ((lux.clock rule.timezone).resolve ref l) - l

/-- The local time of the rule, in milliseconds. -/
def timeOfDay : ℤ := rule.startMinutes * minuteMs

/-- How far a local time is moved from one cursor to the next. -/
def stepMove (cur : Instant) : ℤ :=
  move lux rule cur ((lux.zone rule.timezone).toLocal cur + stepDays rule * dayMs)

/-- How far the `k`-th cursor has been moved on its way from the midnight `first` of the first day
on. -/
def drift (first start : Instant) (k : ℕ) : ℤ :=
  move lux rule first (localDay lux rule.timezone first * dayMs + timeOfDay rule) +
    ∑ j ∈ Finset.range k, stepMove lux rule (cursorOf lux rule start j)

/-- How far availability moves the local time of the rule on a date. -/
def ownMove (day : ℤ) : ℤ :=
  (lux.zone rule.timezone).toLocal
    (localMinutesToUtc (lux.dates rt) now' rule.timezone day
      rule.startMinutes) - (day * dayMs + timeOfDay rule)

/-- The moves on the way to the `k`-th cursor come, but for whole days, to the move of its own date,
and both are read with the same offset. -/
structure Recovers (first start : Instant) (k : ℕ) : Prop where
  moves : (timeOfDay rule + drift lux rule first start k) % dayMs =
    timeOfDay rule + ownMove lux rt now' rule
      (localDay lux rule.timezone (cursorOf lux rule start k))
  offset : (lux.zone rule.timezone).offset (cursorOf lux rule start k) =
    (lux.zone rule.timezone).offset (localMinutesToUtc (lux.dates rt) now' rule.timezone
      (localDay lux rule.timezone (cursorOf lux rule start k)) rule.startMinutes)

/-- At every occurrence that is returned, the cursor is back at its time of day. -/
def DriftRecovers : Prop :=
  ∀ first start, fromISO lux rule.timezone now rule.startDate = some first →
    startOf lux now rule = some start → ∀ k, Falls lux rule start k →
      (∀ j ≤ k, past (untilOf lux now rule) (cursorOf lux rule start j) = false) →
      Recovers lux rt now' rule first start k

end Moves

section Drift

variable {lux : LuxonRuntime} {rt : AvailabilityRuntime} {now now' : Instant}
  {rule : RecurrenceRule} {first start : Instant}

theorem startOf_eq (hfirst : fromISO lux rule.timezone now rule.startDate = some first)
    (hstart : startOf lux now rule = some start) :
    start = (lux.clock rule.timezone).resolve first
      (localDay lux rule.timezone first * dayMs + timeOfDay rule) := by
  have hminutes : rule.startMinutes / 60 * 60 + rule.startMinutes % 60 = rule.startMinutes :=
    Nat.div_add_mod' rule.startMinutes 60
  unfold startOf at hstart
  rw [hfirst, Option.map_some, setTime, hminutes] at hstart
  exact (Option.some.inj hstart).symm

theorem cursorOf_succ (k : ℕ) : cursorOf lux rule start (k + 1) =
    plusDays lux rule.timezone (stepDays rule) (cursorOf lux rule start k) :=
  Function.iterate_succ_apply' _ k start

/-- The clock of a cursor: the days since the first one at the local time of the rule, and the moves
on the way. -/
theorem toLocal_cursorOf (hfirst : fromISO lux rule.timezone now rule.startDate = some first)
    (hstart : startOf lux now rule = some start) (k : ℕ) :
    (lux.zone rule.timezone).toLocal (cursorOf lux rule start k) =
      (localDay lux rule.timezone first + k * stepDays rule) * dayMs + timeOfDay rule +
        drift lux rule first start k := by
  induction k with
  | zero =>
    have hzero : cursorOf lux rule start 0 = start := rfl
    rw [hzero, startOf_eq hfirst hstart]
    simp only [drift, move, Finset.range_zero, Finset.sum_empty]
    ring
  | succ k ih =>
    -- one more step, with its own move
    have hstep : drift lux rule first start (k + 1) =
        drift lux rule first start k + stepMove lux rule (cursorOf lux rule start k) := by
      unfold drift
      rw [Finset.sum_range_succ]
      ring
    have hmove : (lux.zone rule.timezone).toLocal (cursorOf lux rule start (k + 1)) =
        (lux.zone rule.timezone).toLocal (cursorOf lux rule start k) + stepDays rule * dayMs +
          stepMove lux rule (cursorOf lux rule start k) := by
      rw [cursorOf_succ]
      simp only [plusDays, stepMove, move]
      ring
    rw [hmove, ih, hstep]
    push_cast
    ring

/-- An instant is given by what the clock shows and its offset. -/
theorem eq_iff_toLocal_offset (z : Zone) {t u : ℤ} :
    t = u ↔ z.toLocal t = z.toLocal u ∧ z.offset t = z.offset u := by
  constructor
  · rintro rfl
    exact ⟨rfl, rfl⟩
  · rintro ⟨hlocal, hoffset⟩
    unfold Zone.toLocal at hlocal
    omega

/-- A cursor is the reading of its own date exactly if it has recovered from the moves on its
way. -/
theorem recovers_iff (hfirst : fromISO lux rule.timezone now rule.startDate = some first)
    (hstart : startOf lux now rule = some start) (k : ℕ) :
    cursorOf lux rule start k = localMinutesToUtc (lux.dates rt) now' rule.timezone
        (localDay lux rule.timezone (cursorOf lux rule start k)) rule.startMinutes ↔
      Recovers lux rt now' rule first start k := by
  have hlocal := toLocal_cursorOf hfirst hstart k
  -- the local day and the drifted time of day make up the local reading
  have hday : localDay lux rule.timezone (cursorOf lux rule start k) * dayMs +
      (timeOfDay rule + drift lux rule first start k) % dayMs =
        (lux.zone rule.timezone).toLocal (cursorOf lux rule start k) := by
    have hmod : (timeOfDay rule + drift lux rule first start k) % dayMs =
        (lux.zone rule.timezone).toLocal (cursorOf lux rule start k) % dayMs := by
      rw [hlocal, add_assoc, Int.mul_add_emod_self_right]
    rw [hmod, mul_comm]
    exact Int.mul_ediv_add_emod _ dayMs
  -- two instants are one if they read the same and have the same offset
  rw [eq_iff_toLocal_offset (lux.zone rule.timezone)]
  constructor
  · rintro ⟨hsame, hoffset⟩
    have hmoves : (timeOfDay rule + drift lux rule first start k) % dayMs =
        timeOfDay rule + ownMove lux rt now' rule
          (localDay lux rule.timezone (cursorOf lux rule start k)) := by
      unfold ownMove
      rw [← hsame]
      linarith
    exact ⟨hmoves, hoffset⟩
  · rintro ⟨hmoves, hoffset⟩
    unfold ownMove at hmoves
    exact ⟨by linarith, hoffset⟩

end Drift

end RecurrenceExpander

open RecurrenceExpander hiding fromISO setTime

/-- The occurrences are anchored to the local time of the rule exactly if each one that is returned
has recovered from the gaps into which the cursor has fallen on the way. -/
theorem expandRecurrence_anchored_iff (lux : LuxonRuntime) (rt : AvailabilityRuntime)
    (now now' : Instant) (rule : RecurrenceRule) :
    Anchored lux rt now now' rule ↔ DriftRecovers lux rt now now' rule := by
  constructor
  · intro hanchored first start hfirst hstart k hfalls hreached
    have hmem : cursorOf lux rule start k ∈ expandRecurrence lux now rule :=
      mem_expandRecurrence.2 ⟨start, hstart, k, hfalls, hreached, rfl⟩
    exact (recovers_iff hfirst hstart k).1 (hanchored _ hmem)
  · intro hrecovers o ho
    obtain ⟨start, hstart, k, hfalls, hreached, rfl⟩ := mem_expandRecurrence.1 ho
    obtain ⟨first, hfirst, -⟩ := Option.map_eq_some_iff.1 hstart
    exact (recovers_iff hfirst hstart k).2 (hrecovers first start hfirst hstart k hfalls hreached)

/-! ## Local times that no transition touches -/

namespace RecurrenceExpander

section ShownOnce

/-- The zone shows the local time at one instant only. -/
def ShownOnce (z : Zone) (l t : ℤ) : Prop := ∀ u, z.toLocal u = l ↔ u = t

variable {lux : LuxonRuntime} {rt : AvailabilityRuntime} {now now' : Instant}
  {rule : RecurrenceRule} {first start : Instant}

/-- Such a time is read as its instant, whatever the offset in force. -/
theorem resolve_of_shownOnce {name : String} {l t : ℤ} (h : ShownOnce (lux.zone name) l t)
    (ref : ℤ) :
    (lux.clock name).resolve ref l = t := by
  have hshows : (lux.zone name).toLocal t = l := (h t).2 rfl
  have hread := (lux.clock name).shown ref t
  rw [hshows] at hread
  exact (h _).1 hread

theorem localMinutesToUtc_of_shownOnce {day midnight t : ℤ}
    (hmidnight : ShownOnce (lux.zone rule.timezone) (day * dayMs) midnight)
    (htime : ShownOnce (lux.zone rule.timezone) (day * dayMs + timeOfDay rule) t) :
    localMinutesToUtc (lux.dates rt) now' rule.timezone day rule.startMinutes = t := by
  have hshows : (lux.zone rule.timezone).toLocal midnight = day * dayMs :=
    (hmidnight midnight).2 rfl
  have hstart : startOfLocalDay (day * dayMs) = day * dayMs := by
    unfold startOfLocalDay
    rw [Int.mul_ediv_cancel _ (by decide)]
  have hfirst : BookingPlatform.fromISO (lux.dates rt) now' rule.timezone day = midnight :=
    resolve_of_shownOnce hmidnight now'
  have hday : startOfDay (lux.dates rt) rule.timezone midnight = midnight := by
    unfold startOfDay
    change (lux.clock rule.timezone).resolve midnight
      (startOfLocalDay ((lux.zone rule.timezone).toLocal midnight)) = midnight
    rw [hshows, hstart, resolve_of_shownOnce hmidnight]
  -- midnight is a whole minute
  have hminute : day * dayMs % minuteMs = 0 := by
    unfold dayMs minuteMs secondMs
    omega
  unfold localMinutesToUtc
  rw [hfirst, hday]
  change (lux.clock rule.timezone).resolve midnight
    (startOfLocalDay ((lux.zone rule.timezone).toLocal midnight) + timeOfDay rule +
      (lux.zone rule.timezone).toLocal midnight % minuteMs) = t
  rw [hshows, hstart, hminute, Int.add_zero, resolve_of_shownOnce htime]

/-- Where the local time of the rule and midnight occur once on each day from the first one on, the
occurrences are anchored, whatever other transitions there are. -/
theorem anchored_of_shownOnce (lux : LuxonRuntime) (rt : AvailabilityRuntime) (now now' : Instant)
    (rule : RecurrenceRule) (hminutes : rule.startMinutes ≤ 1439) (midnights times : ℤ → ℤ)
    (honce : ∀ firstDay, isoDay rule.startDate = some firstDay → ∀ day, firstDay ≤ day →
      ShownOnce (lux.zone rule.timezone) (day * dayMs) (midnights day) ∧
        ShownOnce (lux.zone rule.timezone) (day * dayMs + timeOfDay rule) (times day)) :
    Anchored lux rt now now' rule := by
  intro o ho
  obtain ⟨start, hstart, k, -, -, rfl⟩ := mem_expandRecurrence.1 ho
  obtain ⟨first, hfirst, -⟩ := Option.map_eq_some_iff.1 hstart
  obtain ⟨firstDay, hdate, hmidnight⟩ := Option.map_eq_some_iff.1 hfirst
  have htimes := fun day hle => (honce firstDay hdate day hle).2
  -- the time of day does not reach the next day
  have hdayOf : ∀ day : ℤ, (day * dayMs + timeOfDay rule) / dayMs = day := by
    intro day
    unfold timeOfDay dayMs minuteMs secondMs
    omega
  have hfirstDay : localDay lux rule.timezone first = firstDay := by
    have honceFirst := (honce firstDay hdate firstDay (Int.le_refl firstDay)).1
    have hread : first = midnights firstDay :=
      hmidnight.symm.trans (resolve_of_shownOnce honceFirst now)
    have hshows : (lux.zone rule.timezone).toLocal first = firstDay * dayMs :=
      (honceFirst first).2 hread
    unfold localDay
    rw [hshows, Int.mul_ediv_cancel _ (by decide)]
  have hcursor : ∀ k : ℕ, cursorOf lux rule start k = times (firstDay + k * stepDays rule) := by
    intro k
    induction k with
    | zero =>
      have hzero : cursorOf lux rule start 0 = start := rfl
      rw [hzero, startOf_eq hfirst hstart, hfirstDay,
        resolve_of_shownOnce (htimes firstDay (Int.le_refl firstDay))]
      simp
    | succ k ih =>
      have hle : firstDay ≤ firstDay + k * stepDays rule :=
        Int.le_add_of_nonneg_right (by positivity)
      have hle' : firstDay ≤ firstDay + (k + 1 : ℕ) * stepDays rule :=
        Int.le_add_of_nonneg_right (by positivity)
      have hshows := (htimes _ hle (times (firstDay + k * stepDays rule))).2 rfl
      have hnext : (firstDay + k * stepDays rule) * dayMs + timeOfDay rule + stepDays rule * dayMs =
          (firstDay + (k + 1 : ℕ) * stepDays rule) * dayMs + timeOfDay rule := by
        push_cast
        ring
      rw [cursorOf_succ, ih, plusDays, hshows, hnext, resolve_of_shownOnce (htimes _ hle')]
  have hle : firstDay ≤ firstDay + k * stepDays rule := Int.le_add_of_nonneg_right (by positivity)
  have hshows := (htimes _ hle (times (firstDay + k * stepDays rule))).2 rfl
  have hdate : localDay lux rule.timezone (times (firstDay + k * stepDays rule)) =
      firstDay + k * stepDays rule := by
    unfold localDay
    rw [hshows, hdayOf]
  rw [hcursor k, hdate, localMinutesToUtc_of_shownOnce (honce firstDay ‹_› _ hle).1 (htimes _ hle)]

end ShownOnce

end RecurrenceExpander

/-! ## A gap on the way

On 2026-03-08 the clocks of New York go from 02:00 to 03:00. A daily series at 02:30 is at 03:30 on
that day, and stays there. -/

section Gap

/-- The transition, and the offsets before and after it. -/
abbrev springForward : Zone := stepZone 1772953200000 (-18000000) (-14400000)

abbrev springClock : LocalClock springForward := stepClock 1772953200000 (-18000000) (-14400000)

theorem springForward_toLocal (t : ℤ) : springForward.toLocal t =
    if t < 1772953200000 then t - 18000000 else t - 14400000 := by
  unfold Zone.toLocal
  rw [stepZone_offset]
  split <;> ring

/-- A time is read as an instant that shows it, or one hour later in the gap. -/
theorem springClock_shows (ref l : ℤ) : springForward.toLocal (springClock.resolve ref l) =
    if 1772935200000 ≤ l ∧ l < 1772938800000 then l + 3600000 else l := by
  simp only [stepClock, fixOffset, stepZone_offset, springForward_toLocal]
  grind

def newYorkLuxon : LuxonRuntime where
  zone _ := springForward
  clock _ := springClock
  endOfDay _ t := springClock.resolve t ((springForward.toLocal t / dayMs + 1) * dayMs - 1)
  diffWeeks _ t u := ((springForward.toLocal t - springForward.toLocal u) / (7 * dayMs) : ℤ)
  endOfDay_last _ ref day t h := by
    -- the clock never goes back, and no day ends in the gap
    have hmono : ∀ u v, u ≤ v → springForward.toLocal u ≤ springForward.toLocal v := by
      intro u v huv
      rw [springForward_toLocal, springForward_toLocal]
      split <;> split <;> omega
    have hend := hmono _ _ h
    rw [springClock_shows] at hend
    unfold dayMs minuteMs secondMs at *
    split at hend <;> omega
  endOfDay_shown _ t u h := by
    have hshown := springClock.shown t u
    rwa [h] at hshown
  diffWeeks_plus _ t weeks := by
    rw [springClock_shows]
    have hweeks : ∀ e : ℤ, 0 ≤ e → e ≤ 3600000 →
        (springForward.toLocal t + weeks * (7 * dayMs) + e - springForward.toLocal
          t) / (7 * dayMs) = weeks := by
      intro e hle hle'
      unfold dayMs minuteMs secondMs
      omega
    split
    · exact_mod_cast congrArg (Int.cast : ℤ → ℚ) (hweeks 3600000 (by decide) (by decide))
    · have hzero := hweeks 0 (by decide) (by decide)
      rw [Int.add_zero] at hzero
      exact_mod_cast congrArg (Int.cast : ℤ → ℚ) hzero

theorem newYorkLuxon_keepsOffset : newYorkLuxon.KeepsOffset := by
  intro name ref l hshows
  have hoffset : springForward.offset (l - springForward.offset ref) =
      springForward.offset ref := by
    change l - springForward.offset ref + springForward.offset
      (l - springForward.offset ref) = l at hshows
    omega
  change fixOffset springForward.offset (springForward.offset ref) l = l - springForward.offset ref
  unfold fixOffset
  rw [if_pos hoffset]

/-- Three days at 02:30. -/
def earlyRule : RecurrenceRule where
  freq := .daily
  interval := 1
  weekdays := none
  startDate := "2026-03-07"
  startMinutes := 150
  count := some 3
  untilDate := none
  timezone := "America/New_York"

theorem earlyRule_admitted : earlyRule.Admitted where
  interval_pos := by decide
  interval_le := by decide
  weekdays_length := by decide
  weekdays_le := by decide
  startDate := by decide +kernel
  startMinutes_le := by decide
  count := by decide
  untilDate := nofun

/-- On the day after the gap, the series is at 03:30. -/
theorem gap_moves_series :
    ¬∀ (lux : LuxonRuntime) (rt : AvailabilityRuntime) (now now' : Instant) (rule : RecurrenceRule),
      lux.KeepsOffset → rule.Admitted → (isoDay rule.startDate).isSome →
      Anchored lux rt now now' rule := by
  intro hall
  have hanchored := hall newYorkLuxon AvailabilityService.newYork 0 0 earlyRule
    newYorkLuxon_keepsOffset earlyRule_admitted
    (by decide +kernel)
  have hmem : 1773041400000 ∈ expandRecurrence newYorkLuxon 0 earlyRule := by decide +kernel
  have hread : localMinutesToUtc
    (newYorkLuxon.dates AvailabilityService.newYork) 0 earlyRule.timezone
      (localDay newYorkLuxon earlyRule.timezone 1773041400000) earlyRule.startMinutes =
        1773037800000 := by
    decide +kernel
  have hsame := hanchored _ hmem
  rw [hread] at hsame
  exact absurd hsame (by decide)

end Gap

end BookingPlatform
