import Mathlib.Data.Nat.Count
import Mathlib.Order.Basic

/-!
# Bounded Scans

A loop that goes from one state to the next, for a bounded number of steps, until it comes to a
state to stop at or has picked as many states as it may.

## Main definitions

- `scan`: the states that the loop picks.
- `FirstOf`: the first elements of a set, in order.

## Main results

- `mem_scan`: which states are picked.
- `firstOf_scan`: a scan that goes up, far enough, picks the first elements of a set.
-/

namespace BookingPlatform.Library

variable {α : Type}

/-- At most `fuel` states are looked at, and at most `limit` picked. -/
def scan (step : α → α) (stop pick : α → Bool) : (fuel limit : ℕ) → α → List α
  | 0, _, _ => []
  | _ + 1, 0, _ => []
  | fuel + 1, limit + 1, a =>
    if stop a then []
    else if pick a then a :: scan step stop pick fuel limit (step a)
    else scan step stop pick fuel (limit + 1) (step a)

/-- The state after `k` steps. -/
def cursor (step : α → α) (a : α) (k : ℕ) : α := step^[k] a

section Scan

variable {step : α → α} {stop pick : α → Bool} {fuel limit : ℕ} {a : α}

theorem cursor_step (step : α → α) (a : α) (k : ℕ) :
    cursor step (step a) k = cursor step a (k + 1) := rfl

theorem length_scan_le (step : α → α) (stop pick : α → Bool) (fuel limit : ℕ) (a : α) :
    (scan step stop pick fuel limit a).length ≤ limit := by
  induction fuel generalizing limit a with
  | zero => exact Nat.zero_le limit
  | succ fuel ih =>
    cases limit with
    | zero => exact Nat.le_refl 0
    | succ limit =>
      unfold scan
      split
      · exact Nat.zero_le _
      · split
        · exact Nat.succ_le_succ (ih limit (step a))
        · exact ih (limit + 1) (step a)

/-- The first `k` of the states that follow on `a`, one step later. -/
theorem count_cursor_succ (step : α → α) (pick : α → Bool) (a : α) (k : ℕ) :
    Nat.count (fun j => pick (cursor step a j) = true) (k + 1) =
      Nat.count (fun j => pick (cursor step (step a) j) = true) k + if pick a =
        true then 1 else 0 :=
  Nat.count_succ' _ _

/-- A state is picked if the loop gets there before it has picked enough others. -/
theorem mem_scan {b : α} : b ∈ scan step stop pick fuel limit a ↔
    ∃ k < fuel, (∀ j ≤ k, stop (cursor step a j) = false) ∧ pick (cursor step a k) = true ∧
      Nat.count (fun j => pick (cursor step a j) = true) k < limit ∧ b = cursor step a k := by
  induction fuel generalizing limit a with
  | zero => simp [scan]
  | succ fuel ih =>
    -- the first state, or one that comes after it
    have hsplit : ∀ P : ℕ → Prop, (∃ k < fuel + 1, P k) ↔ P 0 ∨ ∃ k < fuel, P (k + 1) :=
      fun P => Nat.exists_lt_succ_left
    have hstop : ∀ k, (∀ j ≤ k + 1, stop (cursor step a j) = false) ↔
        stop a = false ∧ ∀ j ≤ k, stop (cursor step (step a) j) = false := by
      intro k
      constructor
      · exact fun h => ⟨h 0 (Nat.zero_le _), fun j hj => h (j + 1) (Nat.succ_le_succ hj)⟩
      · rintro ⟨hzero, hsucc⟩ j hj
        cases j with
        | zero => exact hzero
        | succ j => exact hsucc j (Nat.le_of_succ_le_succ hj)
    have hzero : (∀ j ≤ 0, stop (cursor step a j) = false) ↔ stop a = false :=
      ⟨fun h => h 0 (Nat.le_refl 0), fun h j hj => Nat.le_zero.1 hj ▸ h⟩
    rw [hsplit]
    simp only [hstop, hzero, count_cursor_succ, ← cursor_step, Nat.count_zero]
    cases limit with
    | zero => simp [scan]
    | succ limit =>
      unfold scan
      cases hstopped : stop a with
      | true => simp
      | false =>
        cases hpicked : pick a with
        | true =>
          simp [ih, cursor, hpicked]
        | false =>
          simp [ih, cursor, hpicked]

/-- The loop picks as many states as it may, if there are enough before it stops. -/
theorem length_scan {m : ℕ} (hm : m ≤ fuel) (hstop : ∀ j < m, stop (cursor step a j) = false)
    (hcount : limit ≤ Nat.count (fun j => pick (cursor step a j) = true) m) :
    (scan step stop pick fuel limit a).length = limit := by
  induction fuel generalizing limit a m with
  | zero =>
    obtain rfl : m = 0 := Nat.le_zero.1 hm
    rw [Nat.count_zero] at hcount
    rw [Nat.le_zero.1 hcount]
    rfl
  | succ fuel ih =>
    cases limit with
    | zero => rfl
    | succ limit =>
      cases m with
      | zero =>
        rw [Nat.count_zero] at hcount
        exact absurd hcount (Nat.not_succ_le_zero limit)
      | succ m =>
        -- the first state counts, or not, and the rest are counted from the next one
        rw [count_cursor_succ] at hcount
        have hfirst : stop a = false := hstop 0 (Nat.succ_pos m)
        have hrest : ∀ j < m, stop (cursor step (step a) j) = false :=
          fun j hj => hstop (j + 1) (Nat.succ_lt_succ hj)
        have hm : m ≤ fuel := Nat.le_of_succ_le_succ hm
        unfold scan
        rw [hfirst]
        -- a state that is picked takes one off the limit
        cases hpicked : pick a with
        | true =>
          rw [if_pos hpicked] at hcount
          simp [ih hm hrest (Nat.le_of_succ_le_succ hcount)]
        | false =>
          rw [if_neg (by simp [hpicked])] at hcount
          simp [ih hm hrest hcount]

end Scan

/-! ## The first elements of a set -/

section First

variable [LinearOrder α]

/-- The first `n` elements of a set, or all of them if there are fewer, in increasing order. -/
structure FirstOf (n : ℕ) (P : α → Prop) (l : List α) : Prop where
  increasing : l.Pairwise (· < ·)
  sound : ∀ a ∈ l, P a
  length_le : l.length ≤ n
  complete : ∀ a, P a → a ∈ l ∨ l.length = n ∧ ∀ b ∈ l, b < a

variable {step : α → α} {stop pick : α → Bool} {fuel limit : ℕ} {a : α}

theorem cursor_strictMono (hup : ∀ k, cursor step a k < cursor step a (k + 1)) :
    StrictMono (cursor step a) := strictMono_nat_of_lt_succ hup

theorem scan_increasing (hup : ∀ k, cursor step a k < cursor step a (k + 1)) :
    (scan step stop pick fuel limit a).Pairwise (· < ·) := by
  induction fuel generalizing limit a with
  | zero => exact .nil
  | succ fuel ih =>
    cases limit with
    | zero => exact .nil
    | succ limit =>
      have hup' : ∀ k, cursor step (step a) k < cursor step (step a) (k + 1) := fun k => hup (k + 1)
      unfold scan
      split
      · exact .nil
      · split
        · -- every later pick is a later state of the cursor
          refine .cons (fun b hb => ?_) (ih hup')
          obtain ⟨k, -, -, -, -, rfl⟩ := mem_scan.1 hb
          exact cursor_strictMono hup (Nat.succ_pos k)
        · exact ih hup'

/-- A scan that goes up picks the first elements of a set: those are the states to be picked before
the first one to stop at, and the scan is not too short to pick as many as it may. -/
theorem firstOf_scan {P : α → Prop} (hup : ∀ k, cursor step a k < cursor step a (k + 1))
    (hP : ∀ b, P b ↔ ∃ k, (∀ j ≤ k, stop (cursor step a j) = false) ∧
      pick (cursor step a k) = true ∧ b = cursor step a k)
    (hfar : limit ≤ Nat.count (fun j => pick (cursor step a j) = true) fuel) :
    FirstOf limit P (scan step stop pick fuel limit a) where
  increasing := scan_increasing hup
  sound b hb := by
    obtain ⟨k, -, hstop, hpick, -, rfl⟩ := mem_scan.1 hb
    exact (hP _).2 ⟨k, hstop, hpick, rfl⟩
  length_le := length_scan_le step stop pick fuel limit a
  complete b hb := by
    obtain ⟨k, hstop, hpick, rfl⟩ := (hP b).1 hb
    by_cases hreached : k < fuel ∧ Nat.count (fun j => pick (cursor step a j) = true) k < limit
    · exact .inl (mem_scan.2 ⟨k, hreached.1, hstop, hpick, hreached.2, rfl⟩)
    · -- enough states were picked before
      have hbefore : limit ≤ Nat.count (fun j => pick (cursor step a j) = true) (min k fuel) := by
        rcases Nat.lt_or_ge k fuel with hlt | hge
        · rw [Nat.min_eq_left hlt.le]
          exact Nat.not_lt.1 fun h => hreached ⟨hlt, h⟩
        · rw [Nat.min_eq_right hge]
          exact hfar
      refine .inr ⟨length_scan (Nat.min_le_right k fuel) (fun j hj => ?_) hbefore, fun b hb => ?_⟩
      · exact hstop j (hj.le.trans (Nat.min_le_left k fuel))
      · obtain ⟨j, -, -, -, hcount, rfl⟩ := mem_scan.1 hb
        have hjk : j < min k fuel := by
          by_contra hle
          exact absurd hcount (Nat.not_lt.2
            (hbefore.trans (Nat.count_monotone _ (Nat.not_lt.1 hle))))
        exact cursor_strictMono hup (hjk.trans_le (Nat.min_le_left k fuel))

end First

end BookingPlatform.Library
