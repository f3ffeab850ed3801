import Mathlib.Algebra.BigOperators.Group.List.Basic
import Mathlib.Data.List.Dedup

/-!
# Grouped Queries

`SELECT … GROUP BY key ORDER BY key` over a list of rows: one result for each key that occurs, with
the rows of its group.

## Main definitions

- `groupKeys`, `fiber`: the keys in their order, and the rows of a group.
- `selectGroups`: the result of a grouped query.

## Main results

- `sum_fibers`: a sum over all rows is the sum over the groups.
- `find_selectGroups`: the result for a key.
- `filter_perm_append`: rows that are selected in two disjoint parts.
-/

namespace BookingPlatform.Library

variable {α β κ M : Type} [DecidableEq κ]

/-- The rows of a group. -/
def fiber (key : α → κ) (rows : List α) (k : κ) : List α := rows.filter (key · = k)

/-- The keys of the groups in the order `le`. -/
def groupKeys (le : κ → κ → Bool) (key : α → κ) (rows : List α) : List κ :=
  (rows.map key).dedup.mergeSort le

/-- One result for each group. -/
def selectGroups (le : κ → κ → Bool) (key : α → κ) (result : κ → List α → β) (rows : List α) :
    List β :=
  (groupKeys le key rows).map fun k => result k (fiber key rows k)

variable {le : κ → κ → Bool} {key : α → κ} {rows : List α}

@[simp] theorem mem_fiber {k : κ} {a : α} : a ∈ fiber key rows k ↔ a ∈ rows ∧ key a = k := by
  simp [fiber]

theorem mem_groupKeys {k : κ} : k ∈ groupKeys le key rows ↔ ∃ a ∈ rows, key a = k := by
  simp [groupKeys]

theorem nodup_groupKeys : (groupKeys le key rows).Nodup :=
  (List.mergeSort_perm _ le).nodup_iff.2 (List.nodup_dedup _)

/-- A key without rows has an empty group. -/
theorem fiber_eq_nil {k : κ} (h : k ∉ groupKeys le key rows) : fiber key rows k = [] := by
  rw [List.eq_nil_iff_forall_not_mem]
  intro a ha
  obtain ⟨hmem, hkey⟩ := mem_fiber.1 ha
  exact h (mem_groupKeys.2 ⟨a, hmem, hkey⟩)

/-! ## Sums -/

section Sums

variable [AddCommMonoid M] (f : α → M)

/-- Sums over the groups of distinct keys count each row under one of them once. -/
theorem sum_fibers_of_nodup {ks : List κ} (hnodup : ks.Nodup) (rows : List α) :
    (ks.map fun k => ((fiber key rows k).map f).sum).sum =
      ((rows.filter (key · ∈ ks)).map f).sum := by
  induction ks with
  | nil => simp
  | cons k ks ih =>
    rw [List.nodup_cons] at hnodup
    rw [List.map_cons, List.sum_cons, ih hnodup.2, ← List.sum_append, ← List.map_append]
    -- the rows under `k` and those under a later key
    refine (List.Perm.map f ?_).sum_eq
    have hsplit := List.filter_append_perm
      (fun a => decide (key a = k)) (rows.filter (key · ∈ k :: ks))
    refine .trans ?_ hsplit
    rw [List.filter_filter, List.filter_filter]
    refine .append (.of_eq (List.filter_congr fun a _ => ?_))
      (.of_eq (List.filter_congr fun a _ => ?_))
    · simp
      tauto
    · by_cases ha : key a = k
      · simp [ha, hnodup.1]
      · simp [ha]

/-- A sum over all rows is the sum over the groups. -/
theorem sum_fibers (le : κ → κ → Bool) (key : α → κ) (rows : List α) :
    ((groupKeys le key rows).map fun k => ((fiber key rows k).map f).sum).sum =
      (rows.map f).sum := by
  rw [sum_fibers_of_nodup f nodup_groupKeys, List.filter_eq_self.2]
  intro a ha
  exact decide_eq_true (mem_groupKeys.2 ⟨a, ha, rfl⟩)

/-- A sum over the rows whose key is selected is the sum over the selected groups. -/
theorem sum_fibers_filter (le : κ → κ → Bool) (key : α → κ) (rows : List α) (p : κ → Bool) :
    (((groupKeys le key rows).filter p).map fun k => ((fiber key rows k).map f).sum).sum =
      ((rows.filter fun a => p (key a)).map f).sum := by
  rw [sum_fibers_of_nodup f (nodup_groupKeys.filter p)]
  congr 2
  refine List.filter_congr fun a ha => ?_
  have hmem : key a ∈ groupKeys le key rows := mem_groupKeys.2 ⟨a, ha, rfl⟩
  simp [hmem]

end Sums

/-! ## Single groups -/

section Results

variable {ι : Type} [DecidableEq ι] {name : κ → ι} {result : κ → List α → β} {nameOf : β → ι}
  (hname : ∀ k group, nameOf (result k group) = name k)

include hname

/-- The result for a key, if it has rows; the results bear the names of their keys. -/
theorem find_selectGroups (hinj : Function.Injective name) (k : κ) :
    (selectGroups le key result rows).find? (nameOf · = name k) =
      if k ∈ groupKeys le key rows then some (result k (fiber key rows k)) else none := by
  unfold selectGroups
  induction groupKeys le key rows with
  | nil => rfl
  | cons k' ks ih =>
    rw [List.map_cons, List.find?_cons, hname, ih]
    by_cases h : k' = k
    · subst h
      simp
    · simp [hinj.ne h, Ne.symm h]

omit [DecidableEq ι] in
/-- Which names have a result. -/
theorem exists_selectGroups (n : ι) :
    (∃ r ∈ selectGroups le key result rows, nameOf r = n) ↔ ∃ a ∈ rows, name (key a) = n := by
  constructor
  · rintro ⟨r, hr, rfl⟩
    obtain ⟨k, hk, rfl⟩ := List.mem_map.1 hr
    obtain ⟨a, ha, rfl⟩ := mem_groupKeys.1 hk
    exact ⟨a, ha, (hname _ _).symm⟩
  · rintro ⟨a, ha, rfl⟩
    exact ⟨_, List.mem_map_of_mem (mem_groupKeys.2 ⟨a, ha, rfl⟩), hname _ _⟩

end Results

omit [DecidableEq κ] in
/-- Rows that are selected by exactly one of two conditions. -/
theorem filter_perm_append {p q r : α → Bool} (hp : ∀ a ∈ rows, p a = (q a || r a))
    (hdisjoint : ∀ a ∈ rows, q a = true → r a = false) :
    (rows.filter p).Perm (rows.filter q ++ rows.filter r) := by
  have hsplit := (List.filter_append_perm q (rows.filter p)).symm
  refine hsplit.trans ?_
  rw [List.filter_filter, List.filter_filter]
  refine .append (.of_eq (List.filter_congr fun a ha => ?_))
    (.of_eq (List.filter_congr fun a ha => ?_))
  · rw [hp a ha]
    cases q a <;> simp
  · have hq := hdisjoint a ha
    rw [hp a ha]
    cases hqa : q a <;> simp_all

theorem fiber_append (rows rows' : List α) (k : κ) :
    fiber key (rows ++ rows') k = fiber key rows k ++ fiber key rows' k :=
      List.filter_append rows rows'

end BookingPlatform.Library
