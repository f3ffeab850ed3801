import Mathlib.Data.Int.Notation
import Mathlib.Data.List.Basic
import Mathlib.Data.Nat.Notation
import Mathlib.Tactic.Linarith

/-!
# The Calendar

The Gregorian calendar, extended to all years. A day is the number of days since 1970-01-01. The
text of a date can name a date that does not exist, such as the 30th of February; it is compared
with real dates by year, month and day.

## Main definitions

- `CivilDate`: a year, a month and a day.
- `CivilDate.epochDay`: the day of a real date.
- `NotAfter`: the date of a day is not after another one, which need not be real.
- `readDate`: a text of the form YYYY-MM-DD.

## Main results

- `CivilDate.epochDay_lt`: the days of real dates are in the order of the dates.
- `exists_date`: every day has a date.
- `notAfter_iff_le`: for a real date, `NotAfter` compares days.
-/

namespace BookingPlatform.Library

/-- A year, a month and a day; there need not be such a date. -/
structure CivilDate where
  year : ℤ
  month : ℕ
  day : ℕ
  deriving DecidableEq, Repr

def isLeapYear (year : ℤ) : Bool := year % 4 = 0 ∧ (year % 100 ≠ 0 ∨ year % 400 = 0)

def daysInMonth (year : ℤ) : ℕ → ℕ
  | 2 => if isLeapYear year then 29 else 28
  | 4 | 6 | 9 | 11 => 30
  | _ => 31

/-- The days from 1970-01-01 to the start of the year. -/
def daysBeforeYear (year : ℤ) : ℤ :=
  365 * (year - 1970) + (year - 1) / 4 - (year - 1) / 100 + (year - 1) / 400 - 477

/-- The days of the year before the month. -/
def daysBeforeMonth (year : ℤ) : ℕ → ℕ
  | 0 | 1 => 0
  | m + 2 => daysBeforeMonth year (m + 1) + daysInMonth year (m + 1)

namespace CivilDate

/-- The date exists. -/
structure IsReal (c : CivilDate) : Prop where
  month_pos : 1 ≤ c.month
  month_le : c.month ≤ 12
  day_pos : 1 ≤ c.day
  day_le : c.day ≤ daysInMonth c.year c.month

instance (c : CivilDate) : Decidable c.IsReal :=
  decidable_of_iff (1 ≤ c.month ∧ c.month ≤ 12 ∧ 1 ≤ c.day ∧ c.day ≤ daysInMonth c.year c.month)
    ⟨fun ⟨h₁, h₂, h₃, h₄⟩ => ⟨h₁, h₂, h₃, h₄⟩, fun ⟨h₁, h₂, h₃, h₄⟩ => ⟨h₁, h₂, h₃, h₄⟩⟩

/-- The day of a real date. -/
def epochDay (c : CivilDate) : ℤ :=
  daysBeforeYear c.year + daysBeforeMonth c.year c.month + c.day - 1

/-- The order by year, month and day. -/
def Before (c c' : CivilDate) : Prop :=
  c.year < c'.year ∨ (c.year = c'.year ∧
    (c.month < c'.month ∨ (c.month = c'.month ∧ c.day < c'.day)))

instance (c c' : CivilDate) : Decidable (c.Before c') := inferInstanceAs (Decidable (_ ∨ _))

/-- Two dates are in one order or the other, or they are equal. -/
theorem before_trichotomy (c c' : CivilDate) : c.Before c' ∨ c = c' ∨ c'.Before c := by
  obtain ⟨y, m, d⟩ := c
  obtain ⟨y', m', d'⟩ := c'
  simp only [Before, CivilDate.mk.injEq]
  omega

end CivilDate

/-! ## The days of a year -/

theorem daysInMonth_pos (year : ℤ) (m : ℕ) : 28 ≤ daysInMonth year m := by
  unfold daysInMonth
  split
  · split <;> decide
  · decide
  · decide
  · decide
  · decide
  · decide

theorem daysInMonth_le_thirtyOne (year : ℤ) (m : ℕ) : daysInMonth year m ≤ 31 := by
  unfold daysInMonth
  split
  · split <;> decide
  · decide
  · decide
  · decide
  · decide
  · decide

theorem daysInMonth_february (year : ℤ) : daysInMonth year 2 = if isLeapYear year then 29 else 28 :=
  rfl

/-- The days of a year. -/
theorem daysBeforeMonth_thirteen (year : ℤ) :
    daysBeforeMonth year 13 = if isLeapYear year then 366 else 365 := by
  unfold daysBeforeMonth
  simp only [daysBeforeMonth, daysInMonth]
  split <;> rfl

theorem isLeapYear_iff {year : ℤ} :
    isLeapYear year = true ↔ year % 4 = 0 ∧ (year % 100 ≠ 0 ∨ year % 400 = 0) := by
  simp [isLeapYear]

theorem daysBeforeYear_succ (year : ℤ) :
    daysBeforeYear (year + 1) = daysBeforeYear year + daysBeforeMonth year 13 := by
  rw [daysBeforeMonth_thirteen]
  by_cases hleap : isLeapYear year = true
  · rw [if_pos hleap]
    rw [isLeapYear_iff] at hleap
    unfold daysBeforeYear
    omega
  · rw [if_neg hleap]
    rw [isLeapYear_iff] at hleap
    unfold daysBeforeYear
    omega

theorem daysBeforeYear_mono {year year' : ℤ} (h : year ≤ year') :
    daysBeforeYear year ≤ daysBeforeYear year' := by
  unfold daysBeforeYear
  omega

theorem daysBeforeMonth_succ (year : ℤ) {m : ℕ} (hm : 1 ≤ m) :
    daysBeforeMonth year (m + 1) = daysBeforeMonth year m + daysInMonth year m := by
  cases m with
  | zero => omega
  | succ k => rfl

/-- A month ends before a later one starts. -/
theorem daysBeforeMonth_add_le (year : ℤ) {m m' : ℕ} (hm : 1 ≤ m) (h : m < m') :
    daysBeforeMonth year m + daysInMonth year m ≤ daysBeforeMonth year m' := by
  induction m' with
  | zero => omega
  | succ k ih =>
    rw [daysBeforeMonth_succ year (by omega)]
    rcases Nat.lt_or_eq_of_le (Nat.le_of_lt_succ h) with hlt | rfl
    · exact Nat.le_trans (ih hlt) (Nat.le_add_right _ _)
    · exact Nat.le_refl _

namespace CivilDate

variable {c c' : CivilDate}

/-- A real date lies in its year. -/
theorem IsReal.before_year_end (h : c.IsReal) : c.epochDay < daysBeforeYear (c.year + 1) := by
  have hmonth : daysBeforeMonth c.year c.month + daysInMonth c.year
      c.month ≤ daysBeforeMonth c.year 13 :=
    daysBeforeMonth_add_le c.year h.month_pos (Nat.lt_succ_of_le h.month_le)
  have hday := h.day_le
  rw [daysBeforeYear_succ]
  unfold epochDay
  omega

theorem IsReal.year_start_le (h : c.IsReal) : daysBeforeYear c.year ≤ c.epochDay := by
  have hday := h.day_pos
  unfold epochDay
  omega

/-- The days of real dates are in the order of the dates. -/
theorem epochDay_lt (h : c.IsReal) (h' : c'.IsReal) (hbefore : c.Before c') :
    c.epochDay < c'.epochDay := by
  rcases hbefore with hyear | ⟨hyear, hmonth | ⟨hmonth, hday⟩⟩
  · have hle : daysBeforeYear (c.year + 1) ≤ daysBeforeYear c'.year := daysBeforeYear_mono hyear
    exact (h.before_year_end.trans_le hle).trans_le h'.year_start_le
  · have hle := daysBeforeMonth_add_le c.year h.month_pos hmonth
    have hday := h.day_le
    have hday' := h'.day_pos
    unfold epochDay
    rw [← hyear]
    omega
  · unfold epochDay
    rw [← hyear, ← hmonth]
    omega

theorem epochDay_le_iff (h : c.IsReal) (h' : c'.IsReal) :
    c.epochDay ≤ c'.epochDay ↔ ¬c'.Before c := by
  constructor
  · intro hle hbefore
    exact absurd (epochDay_lt h' h hbefore) (not_lt.2 hle)
  · intro hnot
    rcases before_trichotomy c c' with hbefore | rfl | hbefore
    · exact (epochDay_lt h h' hbefore).le
    · exact le_refl _
    · exact absurd hbefore hnot

theorem epochDay_injective (h : c.IsReal) (h' : c'.IsReal) (heq : c.epochDay = c'.epochDay) :
    c = c' := by
  rcases before_trichotomy c c' with hbefore | rfl | hbefore
  · exact absurd heq (epochDay_lt h h' hbefore).ne
  · rfl
  · exact absurd heq.symm (epochDay_lt h' h hbefore).ne

/-! ## The date of a day -/

/-- The date after a real one. -/
def next (c : CivilDate) : CivilDate :=
  if c.day < daysInMonth c.year c.month then { c with day := c.day + 1 }
  else if c.month < 12 then { c with month := c.month + 1, day := 1 }
  else ⟨c.year + 1, 1, 1⟩

/-- The date before a real one. -/
def previous (c : CivilDate) : CivilDate :=
  if 1 < c.day then { c with day := c.day - 1 }
  else if 1 < c.month then ⟨c.year, c.month - 1, daysInMonth c.year (c.month - 1)⟩
  else ⟨c.year - 1, 12, 31⟩

theorem IsReal.next (h : c.IsReal) : c.next.IsReal ∧ c.next.epochDay = c.epochDay + 1 := by
  obtain ⟨y, m, d⟩ := c
  obtain ⟨hm, hm', hd, hd'⟩ := h
  dsimp only at hm hm' hd hd'
  unfold CivilDate.next
  dsimp only
  by_cases hday : d < daysInMonth y m
  · rw [if_pos hday]
    refine ⟨⟨hm, hm', by dsimp only; omega, hday⟩, ?_⟩
    unfold epochDay
    dsimp only
    omega
  · rw [if_neg hday]
    have hlast : d = daysInMonth y m := by omega
    have hsucc := daysBeforeMonth_succ y hm
    by_cases hmonth : m < 12
    · rw [if_pos hmonth]
      have hlong := daysInMonth_pos y (m + 1)
      refine ⟨⟨by dsimp only; omega, hmonth, Nat.le_refl 1, by dsimp only; omega⟩, ?_⟩
      unfold epochDay
      dsimp only
      rw [hsucc]
      omega
    · -- the last day of the year
      obtain rfl : m = 12 := by omega
      rw [if_neg hmonth]
      have hjanuary : 1 ≤ daysInMonth (y + 1) 1 :=
        Nat.le_trans (by decide) (daysInMonth_pos (y + 1) 1)
      refine ⟨⟨Nat.le_refl 1, (by decide : 1 ≤ 12), Nat.le_refl 1, hjanuary⟩, ?_⟩
      unfold epochDay
      dsimp only
      rw [daysBeforeYear_succ, hsucc, daysBeforeMonth]
      omega

theorem IsReal.previous (h : c.IsReal) :
    c.previous.IsReal ∧ c.previous.epochDay = c.epochDay - 1 := by
  obtain ⟨y, m, d⟩ := c
  obtain ⟨hm, hm', hd, hd'⟩ := h
  dsimp only at hm hm' hd hd'
  unfold CivilDate.previous
  dsimp only
  by_cases hday : 1 < d
  · rw [if_pos hday]
    refine ⟨⟨hm, hm', by dsimp only; omega, by dsimp only; omega⟩, ?_⟩
    unfold epochDay
    dsimp only
    omega
  · rw [if_neg hday]
    obtain rfl : d = 1 := by omega
    by_cases hmonth : 1 < m
    · rw [if_pos hmonth]
      obtain ⟨k, rfl⟩ : ∃ k, m = k + 1 := ⟨m - 1, by omega⟩
      have hsucc := daysBeforeMonth_succ y (m := k) (by omega)
      have hlong := daysInMonth_pos y k
      have hfirst : 1 ≤ k := by omega
      have hlast : k ≤ 12 := by omega
      have hnonempty : 1 ≤ daysInMonth y k := by omega
      refine ⟨⟨hfirst, hlast, hnonempty, Nat.le_refl _⟩, ?_⟩
      unfold epochDay
      dsimp only
      rw [Nat.add_sub_cancel, hsucc]
      omega
    · -- the first day of the year
      obtain rfl : m = 1 := by omega
      rw [if_neg hmonth]
      refine ⟨⟨(by decide : 1 ≤ 12), Nat.le_refl 12, (by decide : 1 ≤ 31), Nat.le_refl 31⟩, ?_⟩
      have hyear := daysBeforeYear_succ (y - 1)
      have hsucc := daysBeforeMonth_succ (y - 1) (m := 12) (by decide)
      have hdecember : daysInMonth (y - 1) 12 = 31 := rfl
      rw [Int.sub_add_cancel, hsucc, hdecember] at hyear
      unfold epochDay
      dsimp only
      rw [hyear, daysBeforeMonth]
      omega

end CivilDate

/-- Every day has a date. -/
theorem exists_date (day : ℤ) : ∃ c : CivilDate, c.IsReal ∧ c.epochDay = day := by
  induction day using Int.induction_on with
  | zero => exact ⟨⟨1970, 1, 1⟩, by decide, by decide⟩
  | succ n ih =>
    obtain ⟨c, hreal, hday⟩ := ih
    exact ⟨c.next, hreal.next.1, by rw [hreal.next.2, hday]⟩
  | pred n ih =>
    obtain ⟨c, hreal, hday⟩ := ih
    exact ⟨c.previous, hreal.previous.1, by rw [hreal.previous.2, hday]⟩

/-- The date of the day is not after `u`, which need not be real. -/
def NotAfter (day : ℤ) (u : CivilDate) : Prop :=
  ∃ c : CivilDate, c.IsReal ∧ c.epochDay = day ∧ ¬u.Before c

theorem notAfter_epochDay {c : CivilDate} (hc : c.IsReal) {u : CivilDate} :
    NotAfter c.epochDay u ↔ ¬u.Before c := by
  constructor
  · rintro ⟨c', hreal, hday, hnot⟩
    obtain rfl := CivilDate.epochDay_injective hreal hc hday
    exact hnot
  · exact fun hnot => ⟨c, hc, rfl, hnot⟩

/-- For a real date, the days are compared. -/
theorem notAfter_iff_le {day : ℤ} {u : CivilDate} (hu : u.IsReal) :
    NotAfter day u ↔ day ≤ u.epochDay := by
  obtain ⟨c, hc, rfl⟩ := exists_date day
  rw [notAfter_epochDay hc, CivilDate.epochDay_le_iff hc hu]

/-! ## Texts -/

/-- The digits of a text of the form YYYY-MM-DD; there need not be such a date. -/
def readDate (s : String) : Option CivilDate :=
  match s.toList with
  | [y₁, y₂, y₃, y₄, '-', m₁, m₂, '-', d₁, d₂] =>
    if [y₁, y₂, y₃, y₄, m₁, m₂, d₁, d₂].all Char.isDigit then
      some ⟨Nat.ofDigitChars 10 [y₁, y₂, y₃, y₄] 0, Nat.ofDigitChars 10 [m₁, m₂] 0,
        Nat.ofDigitChars 10 [d₁, d₂] 0⟩
    else none
  | _ => none

/-- A text with the digits of a date. -/
theorem readDate_ofList {ys ms ds : List Char} (hys : ys.length = 4) (hms : ms.length = 2)
    (hds : ds.length = 2) (hdigit : ∀ ch ∈ ys ++ ms ++ ds, ch.isDigit) {s : String}
    (hs : s.toList = ys ++ '-' :: ms ++ '-' :: ds) :
    readDate s = some ⟨Nat.ofDigitChars 10 ys 0, Nat.ofDigitChars 10 ms 0,
      Nat.ofDigitChars 10 ds 0⟩ := by
  obtain ⟨y₁, y₂, y₃, y₄, rfl⟩ := List.length_eq_four.1 hys
  obtain ⟨m₁, m₂, rfl⟩ := List.length_eq_two.1 hms
  obtain ⟨d₁, d₂, rfl⟩ := List.length_eq_two.1 hds
  have hall : [y₁, y₂, y₃, y₄, m₁, m₂, d₁, d₂].all Char.isDigit = true := List.all_eq_true.2 hdigit
  unfold readDate
  simp only [hs, List.cons_append, List.nil_append, hall, if_true]

/-- The year of such a text has four digits. -/
theorem readDate_year {s : String} {c : CivilDate} (h : readDate s = some c) :
    0 ≤ c.year ∧ c.year ≤ 9999 := by
  unfold readDate at h
  split at h
  · rename_i y₁ y₂ y₃ y₄ m₁ m₂ d₁ d₂ _
    split at h
    · rename_i hall
      -- four digits make a number below ten thousand
      have hdigit : ∀ ch ∈ [y₁, y₂, y₃, y₄, m₁, m₂, d₁, d₂], ch.toNat - 48 ≤ 9 := by
        intro ch hch
        have hisDigit := List.all_eq_true.1 hall ch hch
        have hle : ch.toNat ≤ 57 := (Char.isDigit_iff_toNat.1 hisDigit).2
        omega
      obtain rfl := Option.some.inj h
      have h₁ := hdigit y₁ (by simp)
      have h₂ := hdigit y₂ (by simp)
      have h₃ := hdigit y₃ (by simp)
      have h₄ := hdigit y₄ (by simp)
      have hvalue : Nat.ofDigitChars 10 [y₁, y₂, y₃, y₄] 0 =
          10 * (10 * (10 * (y₁.toNat - 48) + (y₂.toNat - 48)) + (y₃.toNat - 48)) +
            (y₄.toNat - 48) := by
        simp [Nat.ofDigitChars_cons]
      dsimp only
      omega
    · cases h
  · cases h

/-- The day that such a text names, if it is a real date. -/
def isoDay (s : String) : Option ℤ := ((readDate s).filter fun c => c.IsReal).map (·.epochDay)

end BookingPlatform.Library
