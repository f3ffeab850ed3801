import Mathlib.Data.List.Nodup

/-!
# Counting by a Key

Lists whose elements have different keys.

## Main results

- `countP_le_one`: a property that decides the key holds of one element at most.
-/

namespace BookingPlatform.Library

/-- A list has at most one element with a property that decides the key. -/
theorem countP_le_one {α κ : Type*} {l : List α} {f : α → κ} {p : α → Bool} (hnd : (l.map f).Nodup)
    (hkey : ∀ a ∈ l, ∀ b ∈ l, p a = true → p b = true → f a = f b) : l.countP p ≤ 1 := by
  induction l with
  | nil => exact Nat.zero_le 1
  | cons a l ih =>
    rw [List.map_cons, List.nodup_cons] at hnd
    have hrest := ih hnd.2 fun b hb c hc =>
      hkey b (List.mem_cons_of_mem _ hb) c (List.mem_cons_of_mem _ hc)
    by_cases ha : p a = true
    · -- the head has the property, so that no other element has it
      have hnone : l.countP p = 0 := by
        rw [List.countP_eq_zero]
        intro b hb hpb
        have heq : f a = f b := hkey a List.mem_cons_self b (List.mem_cons_of_mem _ hb) ha hpb
        exact hnd.1 (heq ▸ List.mem_map_of_mem hb)
      have hone : (a :: l).countP p = 1 := by rw [List.countP_cons_of_pos ha, hnone]
      exact Nat.le_of_eq hone
    · rw [List.countP_cons_of_neg ha]
      exact hrest

end BookingPlatform.Library
