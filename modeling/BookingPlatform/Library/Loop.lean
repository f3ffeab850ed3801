import Mathlib.Data.Nat.Notation

/-!
# Loops

Loops on a state, without a fuel budget. A loop is given by what one pass makes of the state, which
is `none` when the condition of the loop fails.

## Main results

- `exists_loopEnds`: a loop with a variant ends.
- `LoopEnds.invariant`: what every pass keeps holds at the end.
- `LoopEnds.unique`: a loop ends in one state only.
-/

namespace BookingPlatform.Library

variable {σ : Type*} {next : σ → Option σ} {s t t' : σ}

/-- The loop that is started in the first state ends in the second one. -/
inductive LoopEnds (next : σ → Option σ) : σ → σ → Prop where
  | done (s : σ) (hstop : next s = none) : LoopEnds next s s
  | pass (s s' t : σ) (hpass : next s = some s') (hrest : LoopEnds next s' t) : LoopEnds next s t

namespace LoopEnds

/-- The condition fails at the end. -/
theorem stops (h : LoopEnds next s t) : next t = none := by
  induction h with
  | done s hstop => exact hstop
  | pass s s' t hpass hrest ih => exact ih

/-- Invariant rule: what holds at the start and is kept by every pass holds at the end. -/
theorem invariant {I : σ → Prop} (hkeep : ∀ s s', I s → next s = some s' → I s')
    (h : LoopEnds next s t) (hs : I s) : I t := by
  induction h with
  | done s hstop => exact hs
  | pass s s' t hpass hrest ih => exact ih (hkeep s s' hs hpass)

theorem unique (h : LoopEnds next s t) (h' : LoopEnds next s t') : t = t' := by
  induction h with
  | done s hstop =>
    cases h' with
    | done => rfl
    | pass s' _ _ hpass _ =>
      -- the loop cannot both stop and go on in one state
      rw [hstop] at hpass
      cases hpass
  | pass s s' t hpass hrest ih =>
    cases h' with
    | done _ hstop =>
      rw [hstop] at hpass
      cases hpass
    | pass _ s'' _ hpass' hrest' =>
      rw [hpass] at hpass'
      cases hpass'
      exact ih hrest'

end LoopEnds

/-- Termination rule: a loop whose passes decrease a number ends. -/
theorem exists_loopEnds (variant : σ → ℕ)
    (hdecreases : ∀ s s', next s = some s' → variant s' < variant s) (s : σ) :
    ∃ t, LoopEnds next s t := by
  induction hn : variant s using Nat.strongRecOn generalizing s with
  | ind n ih =>
    cases hpass : next s with
    | none => exact ⟨s, .done s hpass⟩
    | some s' =>
      have hless : variant s' < n := hn ▸ hdecreases s s' hpass
      obtain ⟨t, hrest⟩ := ih (variant s') hless s' rfl
      exact ⟨t, .pass s s' t hpass hrest⟩

end BookingPlatform.Library
