import Mathlib.Data.Int.Init
import Mathlib.Data.Int.Notation
import Mathlib.Data.Nat.Notation
import Mathlib.Tactic.Linarith

/-!
# Time Zones

A zone is an offset for every instant, with finitely many transitions. Reading a wall-clock time in
a zone gives an instant that shows it, if there is one; a time that a transition skips is moved
forward by the length of the gap.

## Main definitions

- `Zone`: offsets and transitions.
- `LocalClock`: a reading of wall-clock times in a zone.
- `fixOffset`: the reading that guesses an offset and corrects the guess.
- `LaterClock`: a reading that prefers the offset from after a transition.
- `Zone.PassesOnce`: no transition repeats a wall-clock time or skips over it.

## Main results

- `stepClock`: in a zone with one transition, `fixOffset` is such a reading.
- `LaterClock.not_misread_iff`: the instants from the reading of a time on are those that show it or
  a later time, exactly if the clock passes it once.
-/

namespace BookingPlatform.Library

/-- What to add to an instant to get the wall-clock time, and when that changes. -/
structure Zone where
  offset : ℤ → ℤ
  transitions : List ℤ
  steady : ∀ t u, (∀ x ∈ transitions, x ≤ t ↔ x ≤ u) → offset t = offset u

namespace Zone

variable (z : Zone)

/-- The wall-clock time at an instant. -/
def toLocal (t : ℤ) : ℤ := t + z.offset t

/-- The transition at `x` skips the wall-clock time `l`. -/
def Skips (x l : ℤ) : Prop :=
  x ∈ z.transitions ∧ x + z.offset (x - 1) ≤ l ∧ l < x + z.offset x

end Zone

/-- A reading of wall-clock times. Of two instants that show the same time, it may choose either,
and the choice may depend on the instant `ref` it starts from. A skipped time is moved forward by
the length of the gap, as the offset from before the transition does. -/
structure LocalClock (z : Zone) where
  resolve : (ref l : ℤ) → ℤ
  shown : ∀ ref t, z.toLocal (resolve ref (z.toLocal t)) = z.toLocal t
  skipped : ∀ ref l, (∀ t, z.toLocal t ≠ l) →
    ∃ x, z.Skips x l ∧ resolve ref l = l - z.offset (x - 1)

namespace LocalClock

variable {z : Zone} (clock : LocalClock z)

/-- Where the zone shows `l` only under the offset `o`, the reading of `l` is `l - o`. -/
theorem resolve_eq {l o : ℤ} (hshows : z.toLocal (l - o) = l)
    (honly : ∀ t, z.toLocal t = l → z.offset t = o) (ref : ℤ) : clock.resolve ref l = l - o := by
  have hlocal : z.toLocal (clock.resolve ref l) = l := by
    have h := clock.shown ref (l - o)
    rwa [hshows] at h
  have hoffset := honly _ hlocal
  unfold Zone.toLocal at hlocal
  omega

end LocalClock

/-! ## Passing a wall-clock time -/

namespace Zone

variable {z : Zone}

/-- Between transitions the clock runs with the instants. -/
theorem toLocal_succ {t : ℤ} (h : t ∉ z.transitions) : z.toLocal t = z.toLocal (t - 1) + 1 := by
  have hoffset : z.offset t = z.offset (t - 1) := by
    apply z.steady
    intro x hx
    have hne : x ≠ t := fun heq => h (heq ▸ hx)
    omega
  unfold toLocal
  omega

/-- The clock passes the wall-clock time `m` once: no transition takes it from `m` or later to `m`
or earlier, and none skips a stretch with `m` strictly inside. -/
structure PassesOnce (z : Zone) (m : ℤ) : Prop where
  notBack : ∀ x ∈ z.transitions, m ≤ z.toLocal (x - 1) → m < z.toLocal x
  notOver : ∀ x ∈ z.transitions, z.toLocal (x - 1) + 1 < m → z.toLocal x ≤ m

/-- Once it has passed `m`, the clock stays there. -/
theorem PassesOnce.stays {m : ℤ} (h : z.PassesOnce m) {t : ℤ} (hpassed : m ≤ z.toLocal (t - 1)) :
    m < z.toLocal t := by
  by_cases ht : t ∈ z.transitions
  · exact h.notBack t ht hpassed
  · rw [toLocal_succ ht]
    omega

theorem PassesOnce.stays_le {m t u : ℤ} (h : z.PassesOnce m) (hpassed : m ≤ z.toLocal t)
    (hle : t ≤ u) :
    m ≤ z.toLocal u := by
  induction u, hle using Int.leInduction with
  | base => exact hpassed
  | succ u _ ih =>
    have hstays := h.stays (t := u + 1) (by rwa [Int.add_sub_cancel])
    exact hstays.le

end Zone

/-- A reading of wall-clock times. A time that occurs twice is read after the transition that
repeats it, a skipped time with the offset from before the transition. -/
structure LaterClock (z : Zone) where
  resolve : ℤ → ℤ
  shown : ∀ t, z.toLocal (resolve (z.toLocal t)) = z.toLocal t
  later : ∀ t u, t < u → z.toLocal t = z.toLocal u →
    ∃ s < resolve (z.toLocal t), z.toLocal s = z.toLocal t
  skipped : ∀ l, (∀ t, z.toLocal t ≠ l) → ∃ x, z.Skips x l ∧ resolve l = l - z.offset (x - 1)

namespace LaterClock

variable {z : Zone} (clock : LaterClock z)

/-- The clock is on the wrong side of `m` at the instant `t`: it shows `m` or later before the
instant that `m` is read as, or a time before `m` from that instant on. -/
def Misread (m t : ℤ) : Prop := ¬(clock.resolve m ≤ t ↔ m ≤ z.toLocal t)

instance (m t : ℤ) : Decidable (clock.Misread m t) := inferInstanceAs (Decidable (¬_))

variable {m : ℤ}

/-- A skipped time is read at or after the transition, by which the clock has passed it. -/
theorem resolve_of_skipped (hskip : ∀ t, z.toLocal t ≠ m) :
    ∃ x ∈ z.transitions, z.toLocal (x - 1) + 1 ≤ m ∧ m < z.toLocal x ∧
      clock.resolve m = x + (m - (z.toLocal (x - 1) + 1)) := by
  obtain ⟨x, ⟨hx, hbefore, hafter⟩, hresolve⟩ := clock.skipped m hskip
  refine ⟨x, hx, ?_, hafter, ?_⟩
  · unfold Zone.toLocal
    omega
  · rw [hresolve]
    unfold Zone.toLocal
    omega

/-- Where the clock passes `m` once, it shows `m` or later exactly from the reading of `m` on. -/
theorem resolve_le_iff (h : z.PassesOnce m) (t : ℤ) : clock.resolve m ≤ t ↔ m ≤ z.toLocal t := by
  -- the clock has passed `m` at its reading, but not just before
  have hreading : m ≤ z.toLocal (clock.resolve m) ∧ z.toLocal (clock.resolve m - 1) < m := by
    by_cases hshown : ∃ u, z.toLocal u = m
    · obtain ⟨u, rfl⟩ := hshown
      have hsame := clock.shown u
      refine ⟨hsame.ge, ?_⟩
      by_contra hnot
      have hstays := h.stays (not_lt.1 hnot)
      omega
    · obtain ⟨x, hx, hbefore, hafter, hresolve⟩ :=
        clock.resolve_of_skipped fun u hu => hshown ⟨u, hu⟩
      have hover : ¬z.toLocal (x - 1) + 1 < m := fun hlt =>
        absurd (h.notOver x hx hlt) (not_le.2 hafter)
      have hstart : clock.resolve m = x := by omega
      rw [hstart]
      omega
  constructor
  · exact h.stays_le hreading.1
  · intro hpassed
    by_contra hlt
    have hle := h.stays_le hpassed (by omega : t ≤ clock.resolve m - 1)
    omega

/-- No instant is misread at `m` exactly if the clock passes `m` once. -/
theorem not_misread_iff : (∀ t, ¬clock.Misread m t) ↔ z.PassesOnce m := by
  constructor
  · intro hright
    have hside : ∀ t, clock.resolve m ≤ t ↔ m ≤ z.toLocal t := fun t => not_not.1 (hright t)
    constructor
    · intro x hx hpassed
      have hbefore := (hside (x - 1)).2 hpassed
      have hafter := (hside x).1 (by omega)
      refine lt_of_le_of_ne hafter fun heq => ?_
      -- `m` occurs again at `x`, and so it occurs before its reading
      have hsame : z.toLocal (clock.resolve m) = m := by
        rw [heq]
        exact clock.shown x
      have hagain := clock.later (clock.resolve m) x (by omega) (hsame.trans heq)
      rw [hsame] at hagain
      obtain ⟨s, hlt, hs⟩ := hagain
      have hle := (hside s).2 hs.ge
      omega
    · intro x hx hbefore
      by_contra hafter
      have hstart : clock.resolve m = x := by
        have hle := (hside x).2 (by omega)
        have hnot := mt (hside (x - 1)).1 (by omega)
        omega
      have hskip : ∀ t, z.toLocal t ≠ m := by
        rintro t rfl
        have hsame := clock.shown t
        rw [hstart] at hsame
        omega
      obtain ⟨x', -, hbefore', hafter', hresolve⟩ := clock.resolve_of_skipped hskip
      have hle := (hside x').2 hafter'.le
      have heq : x' = x := by omega
      subst heq
      omega
  · intro h t hmisread
    exact hmisread (clock.resolve_le_iff h t)

end LaterClock

/-! ## Guessing the offset -/

/-- Guess the offset `o` for the time `l`; if the guess is wrong, try the offset that holds there
instead; if that does not hold either, the time is in a gap. -/
def fixOffset (offset : ℤ → ℤ) (o l : ℤ) : ℤ :=
  let guess := l - o
  let o2 := offset guess
  if o2 = o then guess
  else
    let guess2 := l - o2
    let o3 := offset guess2
    if o2 = o3 then guess2 else l - min o2 o3

/-- The zone with one transition. -/
def stepZone (x before after : ℤ) : Zone where
  offset t := if t < x then before else after
  transitions := [x]
  steady t u h := by
    have hx : x ≤ t ↔ x ≤ u := h x (by simp)
    by_cases ht : t < x
    · have hu : u < x := by omega
      simp [ht, hu]
    · have hu : ¬u < x := by omega
      simp [ht, hu]

section Step

variable {x before after : ℤ}

theorem stepZone_offset (t : ℤ) :
    (stepZone x before after).offset t = if t < x then before else after := rfl

/-- The reading of a wall-clock time in a zone with one transition, starting from the offset at
`ref`. -/
def stepClock (x before after : ℤ) : LocalClock (stepZone x before after) where
  resolve ref l := fixOffset (stepZone x before after).offset
    ((stepZone x before after).offset ref) l
  shown ref t := by
    simp only [Zone.toLocal, fixOffset, stepZone_offset]
    by_cases hgap : before ≤ after <;> grind
  skipped ref l hskip := by
    have hbefore := hskip (l - before)
    have hafter := hskip (l - after)
    simp only [Zone.toLocal, stepZone_offset] at hbefore hafter
    refine ⟨x, ⟨List.mem_singleton.2 rfl, ?_, ?_⟩, ?_⟩
    all_goals
      simp only [fixOffset, stepZone_offset]
      grind

end Step

/-- The reading of a wall-clock time in a zone with one transition: with the offset from after the
transition, if that holds at the time read, and else with the one from before. -/
def stepLaterClock (x before after : ℤ) : LaterClock (stepZone x before after) where
  resolve l := if x ≤ l - after then l - after else l - before
  shown t := by
    simp only [Zone.toLocal, stepZone_offset]
    grind
  later t u := by
    simp only [Zone.toLocal, stepZone_offset]
    intro hlt heq
    refine ⟨t, ?_, rfl⟩
    grind
  skipped l hskip := by
    have hbefore := hskip (l - before)
    have hafter := hskip (l - after)
    simp only [Zone.toLocal, stepZone_offset] at hbefore hafter
    refine ⟨x, ⟨List.mem_singleton.2 rfl, ?_, ?_⟩, ?_⟩
    all_goals
      simp only [stepZone_offset]
      grind

end BookingPlatform.Library
