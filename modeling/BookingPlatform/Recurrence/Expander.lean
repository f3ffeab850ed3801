import BookingPlatform.Booking.Service
import BookingPlatform.Library.Calendar
import BookingPlatform.Library.Scan
import BookingPlatform.Library.Zone
import Mathlib.Algebra.Field.Rat
import Mathlib.Tactic.Ring

/-!
# Expanding a Recurrence Rule

The instants of a series. A cursor goes from the first day on, by days of the local wall clock, and
the loop stops at a cursor after the end of the `until` day. An `until` that is no date of the
calendar is read as an invalid `DateTime`, which no cursor is after.

## Main definitions

- `LuxonRuntime`: what the expansion uses of luxon.
- `expandRecurrence`: the instants of a rule.
- `KeepsUntil`, `UntilBinds`: no occurrence is after the `until` date, and when that is so.

## Main results

- `mem_expandRecurrence`: which cursors the loops pick.
- `expandRecurrence_keepsUntil_iff`: the exact condition.
- `impossibleUntil_escapes`: a rule that goes past its `until`.
-/

namespace BookingPlatform

open Library

/-! ## Local times -/

/-- What the expansion uses of luxon: the zones with the reading of local times in them, the end of
a day, and the number of weeks between two instants. `endOf('day')` of a midnight is the last
millisecond of its day; adding whole weeks to an instant leads to one that is as many weeks
later. -/
structure LuxonRuntime where
  zone : String → Zone
  clock : (name : String) → LocalClock (zone name)
  endOfDay : String → Instant → Instant
  diffWeeks : String → Instant → Instant → ℚ
  endOfDay_last : ∀ name ref day t, t ≤ endOfDay name ((clock name).resolve ref (day * dayMs)) →
    (zone name).toLocal t / dayMs ≤ (zone name).toLocal
      ((clock name).resolve ref (day * dayMs)) / dayMs
  endOfDay_shown : ∀ name t u,
    (zone name).toLocal u = ((zone name).toLocal t / dayMs + 1) * dayMs - 1 →
    (zone name).toLocal (endOfDay name t) = ((zone name).toLocal t / dayMs + 1) * dayMs - 1
  diffWeeks_plus : ∀ name t (weeks : ℕ),
    diffWeeks name ((clock name).resolve t ((zone name).toLocal t + weeks * (7 * dayMs))) t = weeks

/-- Safety bound so an open-ended rule can never scan/emit without limit. -/
def maxOccurrences : ℕ := 100

/-- The rule comes from a request body that `CreateRecurrenceDto` admits; the dates are checked by
their pattern only. -/
structure RecurrenceRule.Admitted (rule : RecurrenceRule) : Prop where
  interval_pos : 1 ≤ rule.interval
  interval_le : rule.interval ≤ 52
  weekdays_length : (rule.weekdays.getD []).length ≤ 7
  weekdays_le : ∀ weekday ∈ rule.weekdays.getD [], weekday ≤ 6
  startDate : (readDate rule.startDate).isSome
  startMinutes_le : rule.startMinutes ≤ 1439
  count : ∀ n ∈ rule.count, 1 ≤ n ∧ n ≤ 100
  untilDate : ∀ text ∈ rule.untilDate, (readDate text).isSome

namespace RecurrenceExpander

section LocalTimes

variable (lux : LuxonRuntime) (zone : String)

/-- The calendar day of an instant. -/
def localDay (t : Instant) : ℤ := (lux.zone zone).toLocal t / dayMs

/-- `DateTime.fromISO(date, { zone })`; the text of no real date is invalid. -/
def fromISO (now : Instant) (date : String) : JsDate :=
  (isoDay date).map fun day => (lux.clock zone).resolve now (day * dayMs)

/-- `set({ hour, minute, second: 0, millisecond: 0 })`. -/
def setTime (t : Instant) (hour minute : ℕ) : Instant :=
  (lux.clock zone).resolve t (localDay lux zone t * dayMs + (hour * 60 + minute : ℕ) * minuteMs)

/-- `plus({ days })` keeps the wall-clock time. -/
def plusDays (days : ℕ) (t : Instant) : Instant :=
  (lux.clock zone).resolve t ((lux.zone zone).toLocal t + days * dayMs)

/-- `startOf('week')`, which is a Monday; 1970-01-01 is a Thursday. -/
def startOfWeek (t : Instant) : Instant :=
  (lux.clock zone).resolve t ((localDay lux zone t - (localDay lux zone t + 3) % 7) * dayMs)

/-- 0 for Sunday to 6 for Saturday. -/
def toSun0 (t : Instant) : ℕ := ((localDay lux zone t + 4) % 7).toNat

end LocalTimes

/-! ## The loops -/

/-- `until && cur > until`; an invalid `DateTime` is `some none`, and every comparison with it is
false. -/
def past (untilDay : Option JsDate) (cur : Instant) : Bool :=
  match untilDay with
  | some (some u) => u < cur
  | _ => false

section Loops

variable (lux : LuxonRuntime)

/-- The loop goes on until `limit` occurrences are there. -/
def expandDaily (zone : String) (interval : ℕ) (untilDay : Option JsDate) :
    (limit : ℕ) → (cur : Instant) → List Instant
  | 0, _ => []
  | limit + 1, cur =>
    if past untilDay cur then []
    else cur :: expandDaily zone interval untilDay limit (plusDays lux zone interval cur)

/-- The weekdays of a rule, each one once; that of the first day if there are none. -/
def weekdaysOf (rule : RecurrenceRule) (start : Instant) : List ℕ :=
  let weekdays := rule.weekdays.getD []
  (if weekdays.length > 0 then weekdays else [toSun0 lux rule.timezone start]).dedup

/-- The cursor is on one of the weekdays, in a week of the interval. -/
def fires (rule : RecurrenceRule) (start cursor : Instant) : Bool :=
  let weekIndex := (lux.diffWeeks rule.timezone (startOfWeek lux rule.timezone cursor)
    (startOfWeek lux rule.timezone start)).floor
  weekIndex.tmod rule.interval = 0 ∧ toSun0 lux rule.timezone cursor ∈ weekdaysOf lux rule start

/-- Enough days to reach `limit` occurrences, given the interval and how many weekdays fire per
active week. -/
def maxScanDays (rule : RecurrenceRule) (limit : ℕ) (start : Instant) : ℕ :=
  let perActiveWeek := max (weekdaysOf lux rule start).length 1
  (limit + perActiveWeek - 1) / perActiveWeek * rule.interval * 7 + 7

/-- The loop over days, of which `scanDays` are left. -/
def scanWeekly (rule : RecurrenceRule) (untilDay : Option JsDate) (start : Instant) :
    (scanDays limit : ℕ) → (cursor : Instant) → List Instant
  | 0, _, _ => []
  | _ + 1, 0, _ => []
  | scanDays + 1, limit + 1, cursor =>
    if past untilDay cursor then []
    else if fires lux rule start cursor then
      cursor :: scanWeekly rule untilDay start scanDays limit (plusDays lux rule.timezone 1 cursor)
    else scanWeekly rule untilDay start scanDays (limit + 1) (plusDays lux rule.timezone 1 cursor)

def expandWeekly (rule : RecurrenceRule) (limit : ℕ) (untilDay : Option JsDate) (start : Instant) :
    List Instant :=
  scanWeekly lux rule untilDay start (maxScanDays lux rule limit start) limit start

variable (now : Instant) (rule : RecurrenceRule)

/-- The first occurrence, if the date is real. -/
def startOf : JsDate :=
  (fromISO lux rule.timezone now rule.startDate).map fun t =>
    setTime lux rule.timezone t (rule.startMinutes / 60) (rule.startMinutes % 60)

def limitOf : ℕ := min (rule.count.getD maxOccurrences) maxOccurrences

/-- `null` if there is no `until`; an empty text counts as none. -/
def untilOf : Option JsDate :=
  (rule.untilDate.filter (· ≠ "")).map fun date =>
    (fromISO lux rule.timezone now date).map (lux.endOfDay rule.timezone)

end Loops

end RecurrenceExpander

open RecurrenceExpander

/-- The instants of a rule; `now` is the time at which luxon is asked. -/
def expandRecurrence (lux : LuxonRuntime) (now : Instant) (rule : RecurrenceRule) : List Instant :=
  match startOf lux now rule with
  | none => []
  | some start =>
    match rule.freq with
    | .daily =>
      expandDaily lux rule.timezone rule.interval (untilOf lux now rule) (limitOf rule) start
    | .weekly => expandWeekly lux rule (limitOf rule) (untilOf lux now rule) start

/-! ## What the loops pick -/

namespace RecurrenceExpander

section Picks

variable (lux : LuxonRuntime) (rule : RecurrenceRule) (start : Instant)

/-- The days from one cursor to the next. -/
def stepDays : ℕ :=
  match rule.freq with
  | .daily => rule.interval
  | .weekly => 1

/-- The number of cursors that are looked at. -/
def scanned : ℕ :=
  match rule.freq with
  | .daily => limitOf rule
  | .weekly => maxScanDays lux rule (limitOf rule) start

/-- The cursor is an occurrence: on every day of a daily rule, and on the weekdays of a weekly
one. -/
def picks (cur : Instant) : Bool :=
  match rule.freq with
  | .daily => true
  | .weekly => fires lux rule start cur

/-- The cursor after `k` steps. -/
def cursorOf (k : ℕ) : Instant := cursor (plusDays lux rule.timezone (stepDays rule)) start k

/-- The rule falls on the `k`-th cursor, before its count is used up. -/
structure Falls (k : ℕ) : Prop where
  scanned : k < scanned lux rule start
  picked : picks lux rule start (cursorOf lux rule start k) = true
  counted : Nat.count
    (fun j => picks lux rule start (cursorOf lux rule start j) = true) k < limitOf rule

end Picks

variable {lux : LuxonRuntime} {now : Instant} {rule : RecurrenceRule} {start : Instant}

theorem expandDaily_eq_scan (zone : String) (interval : ℕ) (untilDay : Option JsDate) (limit : ℕ)
    (cur : Instant) :
    expandDaily lux zone interval untilDay limit cur =
      scan (plusDays lux zone interval) (past untilDay) (fun _ => true) limit limit cur := by
  induction limit generalizing cur with
  | zero => rfl
  | succ limit ih =>
    unfold expandDaily scan
    rw [ih]
    rfl

theorem scanWeekly_eq_scan (untilDay : Option JsDate) (scanDays limit : ℕ) (cur : Instant) :
    scanWeekly lux rule untilDay start scanDays limit cur =
      scan (plusDays lux rule.timezone 1) (past untilDay)
        (fires lux rule start) scanDays limit cur := by
  induction scanDays generalizing limit cur with
  | zero => rfl
  | succ scanDays ih =>
    cases limit with
    | zero => rfl
    | succ limit =>
      unfold scanWeekly scan
      rw [ih, ih]

end RecurrenceExpander

section Expansion

variable {lux : LuxonRuntime} {now : Instant} {rule : RecurrenceRule} {start : Instant}

/-- Both loops are scans. -/
theorem expandRecurrence_eq_scan (hstart : startOf lux now rule = some start) :
    expandRecurrence lux now rule =
      scan (plusDays lux rule.timezone (stepDays rule)) (past (untilOf lux now rule))
        (picks lux rule start) (scanned lux rule start) (limitOf rule) start := by
  unfold expandRecurrence
  rw [hstart]
  -- the daily loop picks every cursor, the weekly one those on its weekdays
  cases hfreq : rule.freq with
  | daily =>
    have hpicks : picks lux rule start = fun _ => true := by
      funext cur
      simp [picks, hfreq]
    dsimp only
    rw [expandDaily_eq_scan, hpicks]
    simp [stepDays, scanned, hfreq]
  | weekly =>
    have hpicks : picks lux rule start = fires lux rule start := by
      funext cur
      simp [picks, hfreq]
    dsimp only
    rw [expandWeekly, scanWeekly_eq_scan, hpicks]
    simp [stepDays, scanned, hfreq]

/-- An occurrence is a cursor on which the rule falls, and which the loop gets to. -/
theorem mem_expandRecurrence {o : Instant} :
    o ∈ expandRecurrence lux now rule ↔ ∃ start, startOf lux now rule = some start ∧
      ∃ k, Falls lux rule start k ∧
        (∀ j ≤ k, past (untilOf lux now rule) (cursorOf lux rule start j) = false) ∧
        o = cursorOf lux rule start k := by
  cases hstart : startOf lux now rule with
  | none =>
    unfold expandRecurrence
    rw [hstart]
    simp
  | some start =>
    rw [expandRecurrence_eq_scan hstart, mem_scan]
    constructor
    · rintro ⟨k, hscanned, hreached, hpicked, hcounted, rfl⟩
      exact ⟨start, rfl, k, ⟨hscanned, hpicked, hcounted⟩, hreached, rfl⟩
    · rintro ⟨_, ⟨⟩, k, ⟨hscanned, hpicked, hcounted⟩, hreached, rfl⟩
      exact ⟨k, hscanned, hreached, hpicked, hcounted, rfl⟩

theorem length_expandRecurrence_le (lux : LuxonRuntime) (now : Instant) (rule : RecurrenceRule) :
    (expandRecurrence lux now rule).length ≤ limitOf rule := by
  cases hstart : startOf lux now rule with
  | none =>
    unfold expandRecurrence
    rw [hstart]
    exact Nat.zero_le _
  | some start =>
    rw [expandRecurrence_eq_scan hstart]
    exact length_scan_le _ _ _ _ _ _

/-! ## The last day -/

variable (lux now rule) in
/-- There is no occurrence, or all are on dates that are not after the `until` date, and there are
not more than the count. -/
def KeepsUntil : Prop :=
  expandRecurrence lux now rule = [] ∨
    (∀ u, rule.untilDate.bind readDate = some u →
      ∀ o ∈ expandRecurrence lux now rule, NotAfter (localDay lux rule.timezone o) u) ∧
    (expandRecurrence lux now rule).length ≤ min (rule.count.getD maxOccurrences) maxOccurrences

variable (lux now rule) in
/-- What holds the occurrences to the date `u` of an `until`. A date that is not real never stops
the loop, so the rule must not fall on a later one. A day that the zone skips stops the loop after
the end of the day as which its midnight is read, so the rule must not fall in between while the
cursors get no further. A real date of which the zone has the day asks for nothing. -/
structure FallsWithin (text : String) (u : CivilDate) : Prop where
  unreal : ¬u.IsReal → ∀ start, startOf lux now rule = some start → ∀ k, Falls lux rule start k →
    NotAfter (localDay lux rule.timezone (cursorOf lux rule start k)) u
  skipped : ∀ midnight, fromISO lux rule.timezone now text = some midnight →
    u.epochDay < localDay lux rule.timezone midnight →
      ∀ start, startOf lux now rule = some start → ∀ k, Falls lux rule start k →
        (∀ j ≤ k, cursorOf lux rule start j ≤ lux.endOfDay rule.timezone midnight) →
          ¬(u.epochDay < localDay lux rule.timezone (cursorOf lux rule start k) ∧
            localDay lux rule.timezone
              (cursorOf lux rule start k) ≤ localDay lux rule.timezone midnight)

variable (lux now rule) in
/-- The `until` date, if there is one, is real, and the zone has such a day; or else the rule does
not fall where the date should have stopped it. -/
def UntilBinds : Prop :=
  ∀ text u, rule.untilDate = some text → readDate text = some u → FallsWithin lux now rule text u

variable (lux rule) in
/-- The cursors go forward, and no instant after the end of the day shows it or an earlier one. -/
structure InOrder (start midnight : Instant) : Prop where
  forward : ∀ k, cursorOf lux rule start k < cursorOf lux rule start (k + 1)
  ended : ∀ t, localDay lux rule.timezone t ≤ localDay lux rule.timezone midnight →
    t ≤ lux.endOfDay rule.timezone midnight

section Bound

variable {text : String} {u : CivilDate} {midnight o : Instant}

theorem untilOf_eq (huntil : rule.untilDate = some text) (hread : readDate text = some u) :
    untilOf lux now rule =
      some ((fromISO lux rule.timezone now text).map (lux.endOfDay rule.timezone)) := by
  have hnonempty : text ≠ "" := by
    rintro rfl
    cases hread
  simp [untilOf, huntil, hnonempty]

/-- Every comparison with an invalid `until` is false. -/
theorem not_past_of_unreal (huntil : rule.untilDate = some text) (hread : readDate text = some u)
    (hreal : ¬u.IsReal) : past (untilOf lux now rule) o = false := by
  have hinvalid : fromISO lux rule.timezone now text = none := by
    simp [fromISO, isoDay, hread, hreal]
  rw [untilOf_eq huntil hread, hinvalid]
  rfl

/-- The bound of a real date. -/
theorem not_past_iff (huntil : rule.untilDate = some text) (hread : readDate text = some u)
    (hmidnight : fromISO lux rule.timezone now text = some midnight) :
    past (untilOf lux now rule) o = false ↔ o ≤ lux.endOfDay rule.timezone midnight := by
  rw [untilOf_eq huntil hread, hmidnight]
  simp [past]

theorem exists_midnight (hread : readDate text = some u) (hreal : u.IsReal) :
    ∃ midnight, fromISO lux rule.timezone now text = some midnight := by
  simp [fromISO, isoDay, hread, hreal]

/-- No cursor that the loop gets to is on a later day than the midnight. -/
theorem localDay_le (hmidnight : fromISO lux rule.timezone now text = some midnight)
    (hle : o ≤ lux.endOfDay rule.timezone midnight) :
    localDay lux rule.timezone o ≤ localDay lux rule.timezone midnight := by
  obtain ⟨day, -, rfl⟩ := Option.map_eq_some_iff.1 hmidnight
  exact lux.endOfDay_last rule.timezone now day o hle

end Bound

theorem untilBinds_of_keepsUntil (hkeeps : KeepsUntil lux now rule) : UntilBinds lux now rule := by
  intro text u htext hread
  -- a fall that the loop gets to is an occurrence
  have hdates : ∀ start, startOf lux now rule = some start → ∀ k, Falls lux rule start k →
      (∀ j ≤ k, past (untilOf lux now rule) (cursorOf lux rule start j) = false) →
      NotAfter (localDay lux rule.timezone (cursorOf lux rule start k)) u := by
    intro start hstart k hfalls hreached
    have hmem : cursorOf lux rule start k ∈ expandRecurrence lux now rule :=
      mem_expandRecurrence.2 ⟨start, hstart, k, hfalls, hreached, rfl⟩
    rcases hkeeps with hnone | ⟨hdates, -⟩
    · rw [hnone] at hmem
      exact absurd hmem List.not_mem_nil
    · exact hdates u (by rw [htext]; exact hread) _ hmem
  constructor
  case unreal =>
    intro hreal start hstart k hfalls
    exact hdates start hstart k hfalls fun j _ => not_past_of_unreal htext hread hreal
  case skipped =>
    intro midnight hmidnight _ start hstart k hfalls hreached hbetween
    have hreal : u.IsReal := by
      by_contra hunreal
      simp [fromISO, isoDay, hread, hunreal] at hmidnight
    have hnotAfter := hdates start hstart k hfalls fun j hj =>
      (not_past_iff htext hread hmidnight).2 (hreached j hj)
    rw [notAfter_iff_le hreal] at hnotAfter
    exact absurd hbetween.1 (not_lt.2 hnotAfter)

theorem keepsUntil_of_untilBinds (hbinds : UntilBinds lux now rule) : KeepsUntil lux now rule := by
  refine .inr ⟨fun u hu o ho => ?_, length_expandRecurrence_le lux now rule⟩
  obtain ⟨text, htext, hread⟩ := Option.bind_eq_some_iff.1 hu
  obtain ⟨start, hstart, k, hfalls, hreached, rfl⟩ := mem_expandRecurrence.1 ho
  have hwithin := hbinds text u htext hread
  by_cases hreal : u.IsReal
  · -- a real date has a midnight, and the loop stops after its local day
    obtain ⟨midnight, hmidnight⟩ : ∃ midnight, fromISO lux rule.timezone now text = some midnight :=
      exists_midnight hread hreal
    have hbounded : ∀ j ≤ k, cursorOf lux rule start j ≤ lux.endOfDay rule.timezone midnight :=
      fun j hj => (not_past_iff htext hread hmidnight).1 (hreached j hj)
    have hday := localDay_le hmidnight (hbounded k (Nat.le_refl k))
    rw [notAfter_iff_le hreal]
    by_contra hafter
    have hlater := not_le.1 hafter
    -- an occurrence after `until` would fall up to the day that its midnight is read as
    exact hwithin.skipped midnight hmidnight (hlater.trans_le hday) start hstart k hfalls hbounded
      ⟨hlater, hday⟩
  · exact hwithin.unreal hreal start hstart k hfalls

/-- No occurrence is after the `until` date exactly if the date binds the loop, or the rule does not
fall where it does not. Where the days of the zone are in order, a real date is kept exactly if the
rule does not fall between it and the day as which its midnight is read. -/
theorem expandRecurrence_keepsUntil_iff (lux : LuxonRuntime) (now : Instant)
    (rule : RecurrenceRule) :
    (KeepsUntil lux now rule ↔ UntilBinds lux now rule) ∧
      ∀ text u midnight start, rule.untilDate = some text → readDate text = some u →
        fromISO lux rule.timezone now text = some midnight → startOf lux now rule = some start →
          InOrder lux rule start midnight →
            (KeepsUntil lux now rule ↔ ∀ k, Falls lux rule start k →
              ¬(u.epochDay < localDay lux rule.timezone (cursorOf lux rule start k) ∧
                localDay lux rule.timezone (cursorOf lux rule start k) ≤
                  localDay lux rule.timezone midnight)) := by
  have hiff : KeepsUntil lux now rule ↔ UntilBinds lux now rule :=
    ⟨untilBinds_of_keepsUntil, keepsUntil_of_untilBinds⟩
  refine ⟨hiff, fun text u midnight start htext hread hmidnight hstart horder => ?_⟩
  constructor
  · intro hkeeps k hfalls hbetween
    -- the cursors up to this one are not later, and the day is over with its end
    have hreached : ∀ j ≤ k, cursorOf lux rule start j ≤ lux.endOfDay rule.timezone midnight := by
      intro j hj
      exact ((cursor_strictMono horder.forward).monotone hj).trans (horder.ended _ hbetween.2)
    exact (hiff.1 hkeeps text u htext hread).skipped midnight hmidnight
      (hbetween.1.trans_le hbetween.2) start hstart
      k hfalls hreached hbetween
  · intro hfalls
    apply hiff.2
    intro text' u' htext' hread'
    obtain rfl := Option.some.inj (htext.symm.trans htext')
    obtain rfl := Option.some.inj (hread.symm.trans hread')
    constructor
    case unreal =>
      intro hunreal
      simp [fromISO, isoDay, hread, hunreal] at hmidnight
    case skipped =>
      intro midnight' hmidnight' _ start' hstart' k hk _
      obtain rfl := Option.some.inj (hmidnight.symm.trans hmidnight')
      obtain rfl := Option.some.inj (hstart.symm.trans hstart')
      exact hfalls k hk

end Expansion

/-! ## A date that is not in the calendar -/

/-- A zone with one offset. -/
def constantZone (o : ℤ) : Zone where
  offset _ := o
  transitions := []
  steady _ _ _ := rfl

def constantClock (o : ℤ) : LocalClock (constantZone o) where
  resolve _ l := l - o
  shown ref t := by simp [Zone.toLocal, constantZone]
  skipped ref l h := absurd (by simp [Zone.toLocal, constantZone]) (h (l - o))

/-- Luxon in zones with one offset. -/
def constantRuntime (offset : String → ℤ) : LuxonRuntime where
  zone name := constantZone (offset name)
  clock name := constantClock (offset name)
  endOfDay name t := ((t + offset name) / dayMs + 1) * dayMs - 1 - offset name
  diffWeeks _ t u := ((t - u : ℤ) : ℚ) / (7 * dayMs : ℤ)
  endOfDay_last name ref day t h := by
    simp only [constantClock, constantZone, Zone.toLocal] at *
    have hday : (0 : ℤ) < dayMs := by decide
    have hle : t + offset name ≤ (day + 1) * dayMs - 1 := by
      have hmidnight : (day * dayMs - offset name + offset name) / dayMs = day := by
        rw [Int.sub_add_cancel, Int.mul_ediv_cancel _ hday.ne']
      rw [hmidnight] at h
      linarith
    rw [Int.sub_add_cancel, Int.mul_ediv_cancel _ hday.ne']
    exact Int.lt_add_one_iff.1 (Int.ediv_lt_of_lt_mul hday (by linarith))
  endOfDay_shown name t u _ := by
    simp only [constantZone, Zone.toLocal]
    ring
  diffWeeks_plus name t weeks := by
    simp only [constantClock, constantZone, Zone.toLocal]
    have hsub : t + offset name + weeks * (7 * dayMs) - offset name - t =
      weeks * (7 * dayMs) := by ring
    rw [hsub, Int.cast_mul, Int.cast_natCast, mul_div_assoc, div_self (by decide), mul_one]

def utcRuntime : LuxonRuntime := constantRuntime fun _ => 0

/-- Four days from the 27th of February 2026 on, until the 30th. -/
def februaryRule : RecurrenceRule where
  freq := .daily
  interval := 1
  weekdays := none
  startDate := "2026-02-27"
  startMinutes := 540
  count := some 4
  untilDate := some "2026-02-30"
  timezone := "UTC"

theorem februaryRule_admitted : februaryRule.Admitted where
  interval_pos := by decide
  interval_le := by decide
  weekdays_length := by decide
  weekdays_le := by decide
  startDate := by decide +kernel
  startMinutes_le := by decide
  count := by decide
  untilDate := by
    intro text htext
    cases htext
    decide +kernel

/-- The series goes on into March. -/
theorem impossibleUntil_escapes :
    ¬∀ rule : RecurrenceRule, rule.Admitted → KeepsUntil utcRuntime 0 rule := by
  intro hkeeps
  have hmarch : 1772355600000 ∈ expandRecurrence utcRuntime 0 februaryRule := by decide +kernel
  rcases hkeeps februaryRule februaryRule_admitted with hnone | ⟨hdates, -⟩
  · rw [hnone] at hmarch
    exact absurd hmarch List.not_mem_nil
  · have hread : februaryRule.untilDate.bind readDate = some ⟨2026, 2, 30⟩ := by decide +kernel
    have hnotAfter := hdates _ hread _ hmarch
    have hday : localDay utcRuntime "UTC" 1772355600000 =
      CivilDate.epochDay ⟨2026, 3, 1⟩ := by decide +kernel
    change NotAfter (localDay utcRuntime "UTC" 1772355600000) _ at hnotAfter
    rw [hday, notAfter_epochDay (by decide)] at hnotAfter
    exact hnotAfter (by decide)

/-! ## A day that a zone skips

On 2011-12-30 Apia was on the other side of the date line before the day began, so the midnight of
that day is read as that of the next one. -/

section Apia

abbrev dateLine : Zone := stepZone 1325239200000 (-36000000) 50400000

theorem dateLine_toLocal (t : ℤ) :
    dateLine.toLocal t = if t < 1325239200000 then t - 36000000 else t + 50400000 := by
  unfold Zone.toLocal
  rw [stepZone_offset]
  split <;> ring

/-- A time of the skipped day is read one day later. -/
theorem dateLine_shows (ref l : ℤ) :
    dateLine.toLocal ((stepClock 1325239200000 (-36000000) 50400000).resolve ref l) =
      if 1325203200000 ≤ l ∧ l < 1325289600000 then l + 86400000 else l := by
  simp only [stepClock, fixOffset, stepZone_offset, dateLine_toLocal]
  grind

theorem dateLine_mono {t u : ℤ} : dateLine.toLocal t ≤ dateLine.toLocal u ↔ t ≤ u := by
  rw [dateLine_toLocal, dateLine_toLocal]
  split <;> split <;> omega

def apiaLuxon : LuxonRuntime where
  zone _ := dateLine
  clock _ := stepClock 1325239200000 (-36000000) 50400000
  endOfDay _ t := (stepClock 1325239200000 (-36000000) 50400000).resolve t
    ((dateLine.toLocal t / dayMs + 1) * dayMs - 1)
  diffWeeks _ t u := ((dateLine.toLocal t - dateLine.toLocal u) / (7 * dayMs) : ℤ)
  endOfDay_last _ ref day t h := by
    have hend := dateLine_mono.2 h
    rw [dateLine_shows, dateLine_shows] at hend
    rw [dateLine_shows]
    unfold dayMs minuteMs secondMs at *
    split at hend <;> split at hend <;> split <;> omega
  endOfDay_shown _ t u h := by
    have hshown := (stepClock 1325239200000 (-36000000) 50400000).shown t u
    rwa [h] at hshown
  diffWeeks_plus _ t weeks := by
    rw [dateLine_shows]
    have hweeks : ∀ e : ℤ, 0 ≤ e → e ≤ 86400000 →
        (dateLine.toLocal t + weeks * (7 * dayMs) + e - dateLine.toLocal t) / (7 * dayMs) =
          weeks := by
      intro e hle hle'
      unfold dayMs minuteMs secondMs
      omega
    split
    · exact_mod_cast congrArg (Int.cast : ℤ → ℚ) (hweeks 86400000 (by decide) (by decide))
    · have hzero := hweeks 0 (by decide) (by decide)
      rw [Int.add_zero] at hzero
      exact_mod_cast congrArg (Int.cast : ℤ → ℚ) hzero

/-- Two Mondays, until the Friday that is skipped. -/
def mondayRule : RecurrenceRule where
  freq := .weekly
  interval := 1
  weekdays := some [1]
  startDate := "2011-12-26"
  startMinutes := 540
  count := some 2
  untilDate := some "2011-12-30"
  timezone := "Pacific/Apia"

theorem mondayRule_inOrder : InOrder apiaLuxon mondayRule 1324926000000 1325239200000 := by
  constructor
  case forward =>
    intro k
    -- a step adds a local day, over the gap as well
    have hstep : cursorOf apiaLuxon mondayRule 1324926000000 (k + 1) =
        plusDays apiaLuxon "Pacific/Apia" 1 (cursorOf apiaLuxon mondayRule 1324926000000 k) :=
      Function.iterate_succ_apply' _ k _
    rw [hstep, ← not_le, ← dateLine_mono]
    change ¬dateLine.toLocal ((stepClock 1325239200000 (-36000000) 50400000).resolve _ _) ≤ _
    rw [dateLine_shows]
    change ¬(if 1325203200000 ≤ dateLine.toLocal _ + 1 * dayMs ∧
      dateLine.toLocal _ + 1 * dayMs < 1325289600000 then
      dateLine.toLocal _ + 1 * dayMs + 86400000 else dateLine.toLocal _ + 1 * dayMs) ≤ _
    unfold dayMs minuteMs secondMs
    split <;> omega
  case ended =>
    intro t ht
    change dateLine.toLocal t / dayMs ≤ 15339 at ht
    -- the day on which the midnight is read ends with the Saturday
    have hend : apiaLuxon.endOfDay mondayRule.timezone 1325239200000 = 1325325599999 := by
      decide +kernel
    rw [hend, ← dateLine_mono]
    have hlast : dateLine.toLocal 1325325599999 = 1325375999999 := by decide +kernel
    rw [hlast]
    unfold dayMs minuteMs secondMs at ht
    omega

/-- The rule does not fall on the Saturday, so it keeps the date. -/
theorem expandRecurrence_keepsUntil_iff_apia :
    KeepsUntil apiaLuxon 0 mondayRule ∧
    expandRecurrence apiaLuxon 0 mondayRule = [1324926000000] := by
  refine ⟨?_, by decide +kernel⟩
  have hread : readDate "2011-12-30" = some ⟨2011, 12, 30⟩ := by decide +kernel
  have hmidnight : RecurrenceExpander.fromISO apiaLuxon "Pacific/Apia" 0 "2011-12-30" =
      some 1325239200000 := by
    decide +kernel
  have hstart : startOf apiaLuxon 0 mondayRule = some 1324926000000 := by decide +kernel
  apply ((expandRecurrence_keepsUntil_iff apiaLuxon 0 mondayRule).2 _ _ _ _ rfl hread
    hmidnight hstart
    mondayRule_inOrder).2
  intro k hfalls
  -- the scan has twenty-one cursors, of which none on the Saturday is picked
  have hscanned : k < 21 := hfalls.scanned.trans_le (by decide +kernel)
  have hnone : ∀ k < 21, picks apiaLuxon mondayRule 1324926000000
    (cursorOf apiaLuxon mondayRule 1324926000000 k) = true →
      ¬(CivilDate.epochDay ⟨2011, 12, 30⟩ <
          localDay apiaLuxon "Pacific/Apia" (cursorOf apiaLuxon mondayRule 1324926000000 k) ∧
        localDay apiaLuxon "Pacific/Apia" (cursorOf apiaLuxon mondayRule 1324926000000 k) ≤
          localDay apiaLuxon "Pacific/Apia" 1325239200000) := by
    decide +kernel
  exact hnone k hscanned hfalls.picked

end Apia

end BookingPlatform
