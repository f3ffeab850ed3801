import BookingPlatform.Common.Types

/-!
# Booking Lifecycle

All allowed status changes of a booking.

## Main results

- `canTransition_active`: only an active booking changes its status.
- `mem_transitions_ne`: no status change is a change to the same status.
-/

namespace BookingPlatform

open BookingStatus

/-- The statuses a booking may change to. -/
def transitions : BookingStatus → List BookingStatus
  | pending => [confirmed, cancelled, noShow]
  | confirmed => [completed, cancelled, noShow]
  | completed => []
  | cancelled => []
  | noShow => []

def canTransition (current target : BookingStatus) : Bool :=
  (transitions current).contains target

def assertCanTransition (current target : BookingStatus) : Except AppException Unit :=
  if canTransition current target then .ok ()
  else .error (.unprocessableState
    ("Cannot change a " ++ current.value ++ " booking to " ++ target.value))

/-- A booking whose status is terminal occupies no slot any more. -/
def BookingStatus.Terminal (s : BookingStatus) : Prop := s ∉ activeBookingStatuses

instance (s : BookingStatus) : Decidable s.Terminal :=
  inferInstanceAs (Decidable (s ∉ activeBookingStatuses))

theorem canTransition_iff {current target : BookingStatus} :
    canTransition current target = true ↔ target ∈ transitions current := by
  simp [canTransition]

/-- The terminal statuses are the three without an outgoing edge. -/
theorem terminal_iff_transitions_nil (s : BookingStatus) : s.Terminal ↔ transitions s = [] := by
  cases s <;> decide

/-- Only an active booking changes its status. -/
theorem canTransition_active {current target : BookingStatus} (h : target ∈ transitions current) :
    current ∈ activeBookingStatuses := by
  refine Decidable.byContradiction fun hterm => ?_
  rw [(terminal_iff_transitions_nil current).1 hterm] at h
  exact absurd h List.not_mem_nil

/-- Every active booking can be cancelled. -/
theorem cancelled_mem_transitions {s : BookingStatus} (h : s ∈ activeBookingStatuses) :
    cancelled ∈ transitions s := by
  cases s <;> revert h <;> decide

/-- No edge of the lifecycle is a loop. -/
theorem mem_transitions_ne {current target : BookingStatus} (h : target ∈ transitions current) :
    target ≠ current := by
  cases current <;> cases target <;> revert h <;> decide

end BookingPlatform
