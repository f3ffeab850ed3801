import Mathlib.Logic.Relation

/-!
# Guarded Runs

Runs of a labelled transition relation in which every step meets a side condition.

A system is given by `step : σ → lab → σ → Prop`. A guard `σ → lab → Prop` says
which labels are admitted in which state, so "every run all of whose steps meet a
condition" is a run under that guard, and an unrestricted run is one under `anyStep`.

## Main results

- `Runs.invariant`: a property kept by every admitted step holds at the end of a run.
- `Runs.weaken`: a run under a guard is a run under every weaker guard.
-/

namespace BookingPlatform.Library

variable {σ lab : Type*}

/-- One step whose label is admitted by `guard` in the state it starts from. -/
def GuardedStep (step : σ → lab → σ → Prop) (guard : σ → lab → Prop) (a b : σ) : Prop :=
  ∃ l, guard a l ∧ step a l b

/-- Finite runs all of whose steps are admitted by `guard`. -/
abbrev Runs (step : σ → lab → σ → Prop) (guard : σ → lab → Prop) : σ → σ → Prop :=
  Relation.ReflTransGen (GuardedStep step guard)

/-- The guard that admits every step. -/
def anyStep : σ → lab → Prop := fun _ _ => True

namespace Runs

variable {step : σ → lab → σ → Prop} {guard guard' : σ → lab → Prop} {a b c : σ}

/-- Invariant rule: what holds at the start and is kept by every admitted step
holds at the end of the run. -/
theorem invariant {I : σ → Prop}
    (hkeep : ∀ ⦃x l y⦄, I x → guard x l → step x l y → I y)
    (h : Runs step guard a b) (ha : I a) : I b := by
  induction h with
  | refl => exact ha
  | tail _ hstep ih =>
    obtain ⟨l, hg, hs⟩ := hstep
    exact hkeep ih hg hs

/-- A run under a guard is a run under any weaker guard. -/
theorem weaken (hle : ∀ x l, guard x l → guard' x l) (h : Runs step guard a b) :
    Runs step guard' a b :=
  Relation.ReflTransGen.mono (fun x _ ⟨l, hg, hs⟩ => ⟨l, hle x l hg, hs⟩) _ _ h

/-- Extend a run by one admitted step. -/
theorem snoc {l : lab} (h : Runs step guard a b) (hg : guard b l) (hs : step b l c) :
    Runs step guard a c :=
  Relation.ReflTransGen.tail h ⟨l, hg, hs⟩

/-- The run of a step function along a list of labels, each of which has passed a check that admits
it. -/
theorem foldlM {next : σ → lab → Option σ} {ok : σ → lab → Bool} (ls : List lab)
    (hok : ∀ x l, ok x l = true → guard x l)
    (h : ls.foldlM (fun x l => if ok x l then next x l else none) a = some b) :
    Runs (fun x l y => next x l = some y) guard a b := by
  induction ls generalizing a with
  | nil =>
    cases h
    exact .refl
  | cons l ls ih =>
    obtain ⟨x, hx, hrest⟩ := Option.bind_eq_some_iff.1 h
    obtain ⟨hadmitted, hx⟩ := Option.ite_none_right_eq_some.1 hx
    have hfirst : GuardedStep (fun x l y => next x l = some y) guard a x :=
      ⟨l, hok a l hadmitted, hx⟩
    exact .head hfirst (ih hrest)

/-- Every guarded run is an unrestricted one. -/
theorem toAny (h : Runs step guard a b) : Runs step anyStep a b :=
  h.weaken fun _ _ _ => trivial

end Runs

end BookingPlatform.Library
