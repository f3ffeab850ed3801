import BookingPlatform.Recurrence.Expander
import Mathlib.Tactic.Linarith

/-!
# The Dates of a Rule

In a zone with one offset the cursors are the days from the first one on, and a rule is a set of
dates. The expansion is the first dates of this set, as many as the count allows: the days that a
weekly rule scans are always enough.

## Main definitions

- `OnDate`: the rule falls on a date.

## Main results

- `le_count_fires`: the scan is long enough.
- `expandRecurrence_firstOf`: the expansion is the first dates of the rule.
-/

namespace BookingPlatform

open Library RecurrenceExpander

/-! ## Days of the week -/

/-- 0 for Sunday to 6 for Saturday; 1970-01-01 is a Thursday. -/
def weekdayOf (day : ℤ) : ℕ := ((day + 4) % 7).toNat

/-- The number of a week; weeks start on Mondays. -/
def weekOf (day : ℤ) : ℤ := (day + 3) / 7

theorem weekdayOf_lt (day : ℤ) : weekdayOf day < 7 := by
  unfold weekdayOf
  omega

/-- The days of a week go from Monday to Sunday. -/
theorem weekOf_monday_add (week : ℤ) {i : ℕ} (hi : i < 7) : weekOf (7 * week - 3 + i) = week := by
  unfold weekOf
  omega

theorem weekdayOf_monday_add (week : ℤ) (i : ℕ) : weekdayOf (7 * week - 3 + i) = (i + 1) % 7 := by
  unfold weekdayOf
  omega

/-- In a week, each weekday comes once. -/
theorem count_weekdays {weekdays : List ℕ} (hnodup : weekdays.Nodup) (hle : ∀ w ∈ weekdays, w ≤ 6) :
    Nat.count (fun i => (i + 1) % 7 ∈ weekdays) 7 = weekdays.length := by
  have hweek : (List.range 7).map (fun i => (i + 1) % 7) = [1, 2, 3, 4, 5, 6, 0] := by decide
  have hperm : weekdays.Perm ([1, 2, 3, 4, 5, 6, 0].filter (· ∈ weekdays)) := by
    refine (List.perm_ext_iff_of_nodup hnodup (List.Nodup.filter _ (by decide))).2 fun w => ?_
    simp only [List.mem_filter, decide_eq_true_eq]
    constructor
    · intro hw
      have hw6 := hle w hw
      refine ⟨?_, hw⟩
      simp only [List.mem_cons, List.not_mem_nil, or_false]
      omega
    · exact fun hw => hw.2
  rw [hperm.length_eq, ← hweek, ← List.countP_eq_length_filter, List.countP_map]
  rfl

/-! ## The rule as a set of dates -/

section Rule

variable (rule : RecurrenceRule) (start : ℤ)

/-- The weekdays of the rule, or that of the first day. -/
def ruleWeekdays : List ℕ :=
  if (rule.weekdays.getD []).length > 0 then rule.weekdays.getD [] else [weekdayOf start]

/-- The rule falls on a date: from the first day on, not after `until`, and every so many days, or
on its weekdays in every so many weeks. -/
structure OnDate (day : ℤ) : Prop where
  start_le : start ≤ day
  until_le : ∀ text ∈ rule.untilDate, ∀ u, isoDay text = some u → day ≤ u
  repeats : match rule.freq with
    | .daily => (rule.interval : ℤ) ∣ day - start
    | .weekly => (rule.interval : ℤ) ∣ weekOf day - weekOf start ∧
      weekdayOf day ∈ ruleWeekdays rule start

end Rule

/-! ## A zone with one offset -/

section Constant

variable {lux : LuxonRuntime} {now : Instant} {rule : RecurrenceRule} {o : ℤ}

/-- The instant of a date, at the local time of the rule. -/
def instantOf (rule : RecurrenceRule) (o day : ℤ) : Instant :=
  day * dayMs + rule.startMinutes * minuteMs - o

variable (hconstant : ∀ t, (lux.zone rule.timezone).offset t = o)

include hconstant

theorem toLocal_constant (t : Instant) : (lux.zone rule.timezone).toLocal t = t + o := by
  unfold Zone.toLocal
  rw [hconstant]

theorem resolve_constant (ref l : ℤ) : (lux.clock rule.timezone).resolve ref l = l - o :=
  (lux.clock rule.timezone).resolve_eq (by rw [toLocal_constant hconstant, Int.sub_add_cancel])
    (fun t _ => hconstant t) ref

variable (hadmitted : rule.Admitted)

/-- The local time of the rule is within the day. -/
theorem localDay_instantOf (hadmitted : rule.Admitted) (day : ℤ) :
    localDay lux rule.timezone (instantOf rule o day) = day := by
  have hminutes := hadmitted.startMinutes_le
  unfold localDay instantOf
  rw [toLocal_constant hconstant, Int.sub_add_cancel]
  unfold dayMs minuteMs secondMs
  omega

theorem plusDays_instantOf (days : ℕ) (day : ℤ) :
    plusDays lux rule.timezone days (instantOf rule o day) = instantOf rule o (day + days) := by
  unfold plusDays
  rw [resolve_constant hconstant, toLocal_constant hconstant]
  unfold instantOf
  ring

theorem cursorOf_instantOf (start : ℤ) (k : ℕ) :
    cursorOf lux rule (instantOf rule o start) k =
      instantOf rule o (start + k * stepDays rule) := by
  unfold cursorOf
  induction k generalizing start with
  | zero => simp [cursor]
  | succ k ih =>
    rw [← cursor_step, plusDays_instantOf hconstant, ih]
    congr 1
    push_cast
    ring

omit hconstant in
theorem instantOf_lt {day day' : ℤ} (h : day < day') :
    instantOf rule o day < instantOf rule o day' := by
  have hlt : day * dayMs < day' * dayMs := Int.mul_lt_mul_of_pos_right h (by decide)
  unfold instantOf
  linarith

/-- The series starts on the first day, if its date is real. -/
theorem startOf_constant {start : ℤ} (hstart : isoDay rule.startDate = some start) :
    startOf lux now rule = some (instantOf rule o start) := by
  have hday : localDay lux rule.timezone (start * dayMs - o) = start := by
    unfold localDay
    rw [toLocal_constant hconstant, Int.sub_add_cancel, Int.mul_ediv_cancel _ (by decide)]
  have hminutes : rule.startMinutes / 60 * 60 + rule.startMinutes % 60 = rule.startMinutes :=
    Nat.div_add_mod' rule.startMinutes 60
  unfold startOf fromISO
  rw [hstart]
  simp only [Option.map_some, Option.some.injEq]
  unfold setTime
  rw [resolve_constant hconstant, resolve_constant hconstant, hday, hminutes]
  rfl

/-- The loop stops at the first day that is after `until`. -/
theorem past_instantOf (hadmitted : rule.Admitted)
    (huntil : ∀ text ∈ rule.untilDate, (isoDay text).isSome) (day : ℤ) :
    past (untilOf lux now rule) (instantOf rule o day) = false ↔
      ∀ text ∈ rule.untilDate, ∀ u, isoDay text = some u → day ≤ u := by
  have hminutes := hadmitted.startMinutes_le
  cases htext : rule.untilDate with
  | none => simp [untilOf, htext, past]
  | some text =>
    obtain ⟨u, hu⟩ := Option.isSome_iff_exists.1 (huntil text htext)
    have hnonempty : text ≠ "" := by
      rintro rfl
      cases hu
    have hmidnight : (lux.zone rule.timezone).toLocal (u * dayMs - o) / dayMs = u := by
      rw [toLocal_constant hconstant, Int.sub_add_cancel, Int.mul_ediv_cancel _ (by decide)]
    -- the last millisecond of the day is shown by an instant
    have hend := lux.endOfDay_shown rule.timezone (u * dayMs - o) ((u + 1) * dayMs - 1 - o)
      (by rw [hmidnight, toLocal_constant hconstant, Int.sub_add_cancel])
    rw [hmidnight, toLocal_constant hconstant] at hend
    have hbound : untilOf lux now rule = some (some ((u + 1) * dayMs - 1 - o)) := by
      simp only [untilOf, htext, fromISO, Option.filter_some, decide_eq_true_eq]
      rw [if_pos hnonempty, Option.map_some, hu, Option.map_some, Option.map_some,
        resolve_constant hconstant]
      exact congrArg (fun t => some (some t)) (by linarith)
    have hle : day * dayMs + rule.startMinutes * minuteMs - o ≤ (u + 1) * dayMs - 1 - o ↔
        day ≤ u := by
      unfold dayMs minuteMs secondMs
      omega
    rw [hbound]
    unfold instantOf
    simp only [past, decide_eq_false_iff_not, not_lt, Option.mem_some_iff, forall_eq', hle]
    constructor
    · intro hday u' hu'
      obtain rfl : u = u' := Option.some.inj (hu.symm.trans hu')
      exact hday
    · exact fun hday => hday u hu

/-! ## A weekly rule -/

/-- The rule fires on a date in a week of the interval, on one of its weekdays. -/
def FiresOn (rule : RecurrenceRule) (start day : ℤ) : Prop :=
  (rule.interval : ℤ) ∣ weekOf day - weekOf start ∧ weekdayOf day ∈ ruleWeekdays rule start

instance (start day : ℤ) : Decidable (FiresOn rule start day) := inferInstanceAs (Decidable (_ ∧ _))

theorem startOfWeek_instantOf (hadmitted : rule.Admitted) (day : ℤ) :
    startOfWeek lux rule.timezone (instantOf rule o day) = (7 * weekOf day - 3) * dayMs - o := by
  have hmonday : day - (day + 3) % 7 = 7 * weekOf day - 3 := by
    unfold weekOf
    omega
  unfold startOfWeek
  rw [localDay_instantOf hconstant hadmitted, resolve_constant hconstant, hmonday]

theorem weekdaysOf_instantOf (hadmitted : rule.Admitted) (start : ℤ) :
    weekdaysOf lux rule (instantOf rule o start) = (ruleWeekdays rule start).dedup := by
  have hweekday : toSun0 lux rule.timezone (instantOf rule o start) = weekdayOf start := by
    unfold toSun0
    rw [localDay_instantOf hconstant hadmitted]
    rfl
  unfold weekdaysOf
  rw [hweekday]
  rfl

/-- The index of a week is the number of weeks since that of the first day. -/
theorem fires_instantOf (hadmitted : rule.Admitted) {start day : ℤ} (hle : start ≤ day) :
    fires lux rule (instantOf rule o start) (instantOf rule o day) = true ↔
    FiresOn rule start day := by
  have hweeks : weekOf start ≤ weekOf day := by
    unfold weekOf
    omega
  obtain ⟨weeks, hindex⟩ := Int.eq_ofNat_of_zero_le (Int.sub_nonneg.2 hweeks)
  -- under a constant offset, weeks added locally are weeks added
  have hlater : (lux.clock rule.timezone).resolve ((7 * weekOf start - 3) * dayMs - o)
      ((lux.zone rule.timezone).toLocal
        ((7 * weekOf start - 3) * dayMs - o) + weeks * (7 * dayMs)) =
        (7 * weekOf day - 3) * dayMs - o := by
    rw [resolve_constant hconstant, toLocal_constant hconstant, ← hindex]
    ring
  have hdiff := lux.diffWeeks_plus rule.timezone ((7 * weekOf start - 3) * dayMs - o) weeks
  rw [hlater] at hdiff
  unfold fires FiresOn
  rw [startOfWeek_instantOf hconstant hadmitted, startOfWeek_instantOf hconstant hadmitted, hdiff,
    weekdaysOf_instantOf hconstant hadmitted, hindex]
  have hfloor : (weeks : ℚ).floor = weeks := Rat.floor_intCast weeks
  have hweekday : toSun0 lux rule.timezone (instantOf rule o day) = weekdayOf day := by
    unfold toSun0
    rw [localDay_instantOf hconstant hadmitted]
    rfl
  rw [hfloor, hweekday]
  simp only [decide_eq_true_eq, List.mem_dedup]
  rw [Int.dvd_iff_tmod_eq_zero]

end Constant

section Count

variable {rule : RecurrenceRule}

theorem ruleWeekdays_le (hadmitted : rule.Admitted) (start : ℤ) :
    ∀ w ∈ ruleWeekdays rule start, w ≤ 6 := by
  unfold ruleWeekdays
  split
  · exact hadmitted.weekdays_le
  · intro w hw
    rw [List.mem_singleton.1 hw]
    exact Nat.le_of_lt_succ (weekdayOf_lt start)

theorem ruleWeekdays_dedup_pos (rule : RecurrenceRule) (start : ℤ) :
    0 < (ruleWeekdays rule start).dedup.length := by
  refine List.length_pos_iff.2 fun hnone => ?_
  rw [List.dedup_eq_nil] at hnone
  unfold ruleWeekdays at hnone
  split at hnone
  · rename_i hpos
    rw [hnone] at hpos
    exact absurd hpos (Nat.lt_irrefl 0)
  · cases hnone

/-- In a week of the interval, the rule fires on all its weekdays. -/
theorem count_fires_week (hadmitted : rule.Admitted) (start : ℤ) {week : ℤ} {k : ℕ}
    (hk : start + k = 7 * week - 3) (hweek : (rule.interval : ℤ) ∣ week - weekOf start) :
    Nat.count (fun i => FiresOn rule start (start + (k + i : ℕ))) 7 =
      (ruleWeekdays rule start).dedup.length := by
  have hle : ∀ w ∈ (ruleWeekdays rule start).dedup, w ≤ 6 := fun w hw =>
    ruleWeekdays_le hadmitted start w (List.mem_dedup.1 hw)
  rw [← count_weekdays (List.nodup_dedup _) hle]
  refine List.countP_congr fun i hi => ?_
  have hi : i < 7 := List.mem_range.1 hi
  have hday : start + (k + i : ℕ) = 7 * week - 3 + i := by
    push_cast
    linarith
  simp only [decide_eq_true_eq, List.mem_dedup]
  rw [hday]
  unfold FiresOn
  rw [weekOf_monday_add week hi, weekdayOf_monday_add]
  exact and_iff_right hweek

/-- The rule fires on all its weekdays in every week of the interval. The induction is on the weeks
of the interval after the first one, of which no more than the start may be over. -/
theorem le_count_fires (hadmitted : rule.Admitted) (start : ℤ) (weeks : ℕ) :
    weeks * (ruleWeekdays rule start).dedup.length ≤
      Nat.count (fun k => FiresOn rule start (start + k)) (weeks * rule.interval * 7 + 7) := by
  -- the days of the first week that are over when the rule starts
  obtain ⟨passed, hpassed⟩ :=
    Int.eq_ofNat_of_zero_le (Int.emod_nonneg (start + 3) (by decide : (7 : ℤ) ≠ 0))
  have hpassed_lt : passed < 7 := by omega
  have hstart : start = 7 * weekOf start - 3 + passed := by
    unfold weekOf
    omega
  have hweeks : weeks * (ruleWeekdays rule start).dedup.length ≤
      Nat.count (fun k => FiresOn rule start (start + k))
        (weeks * rule.interval * 7 + 7 - passed) := by
    induction weeks with
    | zero => simp
    | succ weeks ih =>
      have hinterval := hadmitted.interval_pos
      have hnext : (weeks + 1) * rule.interval * 7 =
        weeks * rule.interval * 7 + rule.interval * 7 := by ring
      obtain ⟨monday, hmonday⟩ : ∃ monday, monday + passed = (weeks + 1) * rule.interval * 7 :=
        ⟨(weeks + 1) * rule.interval * 7 - passed, by omega⟩
      -- the monday of the next week in which the rule fires
      have hweek : start + monday = 7 * (weekOf start + (weeks + 1) * rule.interval) - 3 := by
        have hcast : (monday : ℤ) + passed = (weeks + 1) * rule.interval * 7 := by
          exact_mod_cast hmonday
        linarith
      have hdvd : (rule.interval : ℤ) ∣
          weekOf start + (weeks + 1) * rule.interval - weekOf start := by
        rw [add_sub_cancel_left]
        exact dvd_mul_left _ _
      have hsplit : (weeks + 1) * rule.interval * 7 + 7 - passed = monday + 7 := by omega
      have hbefore : weeks * rule.interval * 7 + 7 - passed ≤ monday := by omega
      -- the count splits at this monday
      rw [hsplit, Nat.count_add, count_fires_week hadmitted start hweek hdvd, Nat.succ_mul]
      exact Nat.add_le_add_right (ih.trans (Nat.count_monotone _ hbefore)) _
  exact hweeks.trans (Nat.count_monotone _ (Nat.sub_le _ _))

end Count

/-! ## The first dates -/

section First

variable {lux : LuxonRuntime} {now : Instant} {rule : RecurrenceRule} {o start : ℤ}

theorem stepDays_pos (hadmitted : rule.Admitted) : 0 < stepDays rule := by
  unfold stepDays
  split
  · exact hadmitted.interval_pos
  · exact Nat.one_pos

variable (rule start) in
/-- The loop picks the date when it comes to it. -/
def PickedOn (day : ℤ) : Prop :=
  match rule.freq with
  | .daily => True
  | .weekly => FiresOn rule start day

/-- The dates of a rule are those that the loop comes to and picks, up to `until`. -/
theorem onDate_iff (day : ℤ) :
    OnDate rule start day ↔ ∃ k : ℕ, day = start + k * stepDays rule ∧ PickedOn rule start day ∧
      ∀ text ∈ rule.untilDate, ∀ u, isoDay text = some u → day ≤ u := by
  constructor
  · -- the steps to the day are the days since the start, or the multiples of the interval
    rintro ⟨hstart, huntil, hrepeats⟩
    obtain ⟨days, hdays⟩ := Int.eq_ofNat_of_zero_le (Int.sub_nonneg.2 hstart)
    unfold PickedOn stepDays
    cases hfreq : rule.freq with
    | daily =>
      simp only [hfreq] at hrepeats
      rw [hdays, Int.natCast_dvd_natCast] at hrepeats
      obtain ⟨k, rfl⟩ := hrepeats
      refine ⟨k, ?_, trivial, huntil⟩
      push_cast at hdays
      linarith
    | weekly =>
      simp only [hfreq] at hrepeats
      refine ⟨days, ?_, hrepeats, huntil⟩
      push_cast
      linarith
  · -- conversely, the cursor is not before the start
    rintro ⟨k, rfl, hpick, huntil⟩
    have hle : start ≤ start + k * stepDays rule := Int.le_add_of_nonneg_right (by positivity)
    refine ⟨hle, huntil, ?_⟩
    unfold PickedOn at hpick
    cases hfreq : rule.freq with
    | daily =>
      simp only [stepDays, hfreq]
      rw [add_sub_cancel_left]
      exact dvd_mul_left _ _
    | weekly =>
      simp only [hfreq] at hpick
      exact hpick

section Constant

variable (hconstant : ∀ t, (lux.zone rule.timezone).offset t = o) (hadmitted : rule.Admitted)

include hconstant hadmitted

theorem picks_instantOf {day : ℤ} (hle : start ≤ day) :
    picks lux rule (instantOf rule o start) (instantOf rule o day) = true ↔
    PickedOn rule start day := by
  unfold picks PickedOn
  cases rule.freq with
  | daily => simp
  | weekly => exact fires_instantOf hconstant hadmitted hle

theorem picks_cursorOf (k : ℕ) :
    picks lux rule (instantOf rule o start) (cursorOf lux rule (instantOf rule o start) k) = true ↔
      PickedOn rule start (start + k * stepDays rule) := by
  rw [cursorOf_instantOf hconstant]
  exact picks_instantOf hconstant hadmitted (Int.le_add_of_nonneg_right (by positivity))

/-- Among the cursors that are looked at, enough are picked. -/
theorem limit_le_count : limitOf rule ≤ Nat.count (fun k => picks lux rule (instantOf rule o start)
    (cursorOf lux rule (instantOf rule o start) k) =
      true) (scanned lux rule (instantOf rule o start)) := by
  have hpicks : ∀ k, picks lux rule (instantOf rule o start)
    (cursorOf lux rule (instantOf rule o start) k) =
      true ↔ PickedOn rule start (start + k * stepDays rule) := fun k =>
        picks_cursorOf hconstant hadmitted k
  cases hfreq : rule.freq with
  | daily =>
    have hall : ∀ k, picks lux rule (instantOf rule o start)
        (cursorOf lux rule (instantOf rule o start) k) = true := by
      intro k
      rw [hpicks, PickedOn, hfreq]
      trivial
    rw [Nat.count_of_forall fun k _ => hall k]
    simp [scanned, hfreq]
  | weekly =>
    -- the weeks after the first one have all the weekdays
    have hweekdays := weekdaysOf_instantOf hconstant hadmitted start
    have hpos := ruleWeekdays_dedup_pos rule start
    have hfires := le_count_fires hadmitted start
      ((limitOf rule + (ruleWeekdays rule start).dedup.length - 1) / (ruleWeekdays rule
        start).dedup.length)
    have henough : limitOf rule ≤ (limitOf rule + (ruleWeekdays rule start).dedup.length - 1) /
        (ruleWeekdays rule start).dedup.length * (ruleWeekdays rule start).dedup.length := by
      have hmod := Nat.mod_lt (limitOf rule + (ruleWeekdays rule start).dedup.length - 1) hpos
      have hdiv := Nat.div_add_mod' (limitOf rule + (ruleWeekdays rule start).dedup.length - 1)
        (ruleWeekdays rule start).dedup.length
      omega
    have hscanned : scanned lux rule (instantOf rule o start) =
        (limitOf rule + (ruleWeekdays rule start).dedup.length - 1) /
          (ruleWeekdays rule start).dedup.length * rule.interval * 7 + 7 := by
      simp only [scanned, hfreq, maxScanDays, hweekdays, Nat.max_eq_left hpos]
    rw [hscanned]
    refine (henough.trans hfires).trans (Nat.le_of_eq (List.countP_congr fun k _ => ?_))
    rw [decide_eq_true_iff, decide_eq_true_iff]
    refine Iff.symm ((hpicks k).trans ?_)
    simp [PickedOn, stepDays, hfreq]

end Constant

end First

/-- In a zone with one offset, the expansion of a rule are the instants of its first dates, as many
as the count allows. -/
theorem expandRecurrence_firstOf (lux : LuxonRuntime) (now : Instant) (rule : RecurrenceRule)
    (hadmitted : rule.Admitted) (o : ℤ) (hconstant : ∀ t, (lux.zone rule.timezone).offset t = o)
    (start : ℤ) (hstart : isoDay rule.startDate = some start)
    (huntil : ∀ text ∈ rule.untilDate, (isoDay text).isSome) :
    FirstOf (min (rule.count.getD maxOccurrences) maxOccurrences)
      (fun t => ∃ day, OnDate rule start day ∧ t = instantOf rule o day)
      (expandRecurrence lux now rule) := by
  rw [expandRecurrence_eq_scan (startOf_constant hconstant hstart)]
  refine firstOf_scan (fun k => ?_) (fun t => ?_) (limit_le_count hconstant hadmitted)
  · -- the next cursor is on a later day
    have hk := cursorOf_instantOf hconstant start k
    have hk' := cursorOf_instantOf hconstant start (k + 1)
    have hpos := stepDays_pos hadmitted
    unfold cursorOf at hk hk'
    rw [hk, hk']
    refine instantOf_lt ?_
    push_cast
    nlinarith
  · have hpast : ∀ day, past (untilOf lux now rule) (instantOf rule o day) = false ↔
        ∀ text ∈ rule.untilDate, ∀ u, isoDay text = some u → day ≤ u :=
      past_instantOf hconstant hadmitted huntil
    constructor
    · rintro ⟨day, hday, rfl⟩
      obtain ⟨k, rfl, hpick, hbefore⟩ := onDate_iff day |>.1 hday
      refine ⟨k, fun j hj => ?_, (picks_cursorOf hconstant hadmitted k).2 hpick,
        (cursorOf_instantOf hconstant start k).symm⟩
      change past _ (cursorOf lux rule (instantOf rule o start) j) = false
      rw [cursorOf_instantOf hconstant, hpast]
      intro text htext u hu
      have hle : start + (j : ℤ) * stepDays rule ≤ start + k * stepDays rule := by gcongr
      exact hle.trans (hbefore text htext u hu)
    · rintro ⟨k, hnotPast, hpick, rfl⟩
      have hcursor := cursorOf_instantOf hconstant start k
      have hbefore := hnotPast k (Nat.le_refl k)
      change past _ (cursorOf lux rule (instantOf rule o start) k) = false at hbefore
      rw [hcursor, hpast] at hbefore
      exact ⟨_, (onDate_iff _).2 ⟨k, rfl, (picks_cursorOf hconstant hadmitted k).1 hpick, hbefore⟩,
        hcursor⟩

/-- Mondays and Wednesdays of every second week, from a Wednesday on, in Tokyo. -/
def tokyoRule : RecurrenceRule where
  freq := .weekly
  interval := 2
  weekdays := some [1, 3, 1]
  startDate := "2026-06-03"
  startMinutes := 600
  count := some 4
  untilDate := some "2026-06-30"
  timezone := "Asia/Tokyo"

theorem expandRecurrence_firstOf_tokyo :
    FirstOf 4 (fun t => ∃ day, OnDate tokyoRule 20607 day ∧ t = instantOf tokyoRule 32400000 day)
      (expandRecurrence (constantRuntime fun _ => 32400000) 0 tokyoRule) := by
  have hadmitted : tokyoRule.Admitted :=
    ⟨by decide, by decide, by decide, by decide, by decide +kernel, by decide, by decide,
      fun text htext => by
      cases htext
      decide +kernel⟩
  exact expandRecurrence_firstOf (constantRuntime fun _ => 32400000) 0 tokyoRule hadmitted 32400000
    (fun _ => rfl) 20607 (by decide +kernel) fun text htext => by
      cases htext
      decide +kernel

end BookingPlatform
