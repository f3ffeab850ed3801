import BookingPlatform.Availability.Separation
import BookingPlatform.Library.Loop

/-!
# Slicing of Windows

The loop that slices a window into slots ends on every window, and what it returns is the grid of
the window from which the slots that meet a blocker are left out.

## Main definitions

- `Slicing.next`: one pass of the loop.
- `SlicedInto`: the slots of a window.

## Main results

- `slicing_ends`: the loop ends with the slots of `generateSlots`.
- `generateSlots_sliced`: these are the free slots of the window.
-/

namespace BookingPlatform

open Library MsInterval

/-! ## The loop -/

/-- The variables of the loop. -/
structure Slicing where
  start : ℤ
  slots : List MsInterval

section Loop

variable (window : MsInterval) (durationMs : ℤ) (blockers : List MsInterval)

/-- `if (!blockers.some(…)) slots.push(slot)`. -/
def Slicing.push (s : Slicing) (slot : MsInterval) : List MsInterval :=
  if blockers.any (overlaps slot) then s.slots else s.slots ++ [slot]

/-- One pass of the loop, if another slot fits in the window. -/
def Slicing.next (s : Slicing) : Option Slicing :=
  if s.start + durationMs ≤ window.stop then
    some ⟨s.start + durationMs, s.push blockers ⟨s.start, s.start + durationMs⟩⟩
  else none

variable {window durationMs blockers}

theorem Slicing.next_eq_none {s : Slicing} :
    s.next window durationMs blockers = none ↔ ¬s.start + durationMs ≤ window.stop := by
  simp [Slicing.next]

theorem Slicing.next_eq_some {s s' : Slicing} (h : s.next window durationMs blockers = some s') :
    s.start + durationMs ≤ window.stop ∧
      s' = ⟨s.start + durationMs, s.push blockers ⟨s.start, s.start + durationMs⟩⟩ := by
  unfold Slicing.next at h
  split at h
  · rename_i hfits
    exact ⟨hfits, (Option.some.inj h).symm⟩
  · cases h

/-- No slot fits in the rest of the window. -/
theorem generateSlots_of_not_fits (hd : 0 < durationMs) {start stop : ℤ}
    (hfits : ¬start + durationMs ≤ stop) :
    generateSlots ⟨start, stop⟩ durationMs blockers = [] := by
  have hcount : (stop - start) / durationMs < 1 := Int.ediv_lt_of_lt_mul hd (by linarith)
  have hzero : ((stop - start) / durationMs).toNat = 0 := by omega
  simp only [generateSlots, hzero, slotsFrom]

/-- The first slot of a window in which it fits, and the slots of the rest of the window. -/
theorem generateSlots_of_fits (hd : 0 < durationMs) {start stop : ℤ}
    (hfits : start + durationMs ≤ stop) :
    generateSlots ⟨start, stop⟩ durationMs blockers =
      (if blockers.any (overlaps ⟨start, start + durationMs⟩) then [] else
        [⟨start, start + durationMs⟩]) ++
        generateSlots ⟨start + durationMs, stop⟩ durationMs blockers := by
  -- the rest of the window is one duration shorter
  have hrest : (stop - (start + durationMs)) / durationMs = (stop - start) / durationMs - 1 := by
    have hshort : stop - (start + durationMs) = stop - start - durationMs := by ring
    rw [hshort, Int.sub_ediv_of_dvd _ (dvd_refl _), Int.ediv_self hd.ne']
  have hcount : 1 ≤ (stop - start) / durationMs := by
    apply (Int.le_ediv_iff_mul_le hd).2
    linarith
  have hsucc : ((stop - start) / durationMs).toNat =
      ((stop - (start + durationMs)) / durationMs).toNat + 1 := by
    rw [hrest]
    omega
  simp only [generateSlots, hsucc, slotsFrom, if_pos hfits]
  split <;> rfl

/-- What the loop has pushed and what it still has to slice are the slots of the window. -/
def Slicing.Resumes (window : MsInterval) (durationMs : ℤ) (blockers : List MsInterval)
    (s : Slicing) : Prop :=
  s.slots ++ generateSlots ⟨s.start, window.stop⟩ durationMs blockers =
    generateSlots window durationMs blockers

theorem Slicing.Resumes.next (hd : 0 < durationMs) {s s' : Slicing}
    (h : s.Resumes window durationMs blockers)
    (hpass : s.next window durationMs blockers = some s') :
    s'.Resumes window durationMs blockers := by
  obtain ⟨hfits, rfl⟩ := Slicing.next_eq_some hpass
  unfold Slicing.Resumes at h ⊢
  rw [← h, generateSlots_of_fits hd hfits]
  unfold Slicing.push
  by_cases hblocked : blockers.any (overlaps ⟨s.start, s.start + durationMs⟩) = true
  · rw [if_pos hblocked, if_pos hblocked, List.nil_append]
  · rw [if_neg hblocked, if_neg hblocked, List.append_assoc]

/-- The loop ends, and with the slots of `generateSlots`. -/
theorem slicing_ends (hd : 0 < durationMs) (window : MsInterval) (blockers : List MsInterval) :
    ∃ start, LoopEnds (Slicing.next window durationMs blockers) ⟨window.start, []⟩
      ⟨start, generateSlots window durationMs blockers⟩ := by
  -- every pass moves the start towards the end of the window
  have hdecreases : ∀ s s' : Slicing, s.next window durationMs blockers = some s' →
      (window.stop - s'.start).toNat < (window.stop - s.start).toNat := by
    intro s s' hpass
    obtain ⟨hfits, rfl⟩ := Slicing.next_eq_some hpass
    dsimp only
    omega
  obtain ⟨last, hends⟩ := exists_loopEnds
    (fun s : Slicing => (window.stop - s.start).toNat) hdecreases
    ⟨window.start, []⟩
  have hresumes : last.Resumes window durationMs blockers :=
    hends.invariant (fun _ _ h hpass => h.next hd hpass) (List.nil_append _)
  have hslots : last.slots = generateSlots window durationMs blockers := by
    unfold Slicing.Resumes at hresumes
    rwa [generateSlots_of_not_fits hd (Slicing.next_eq_none.1 hends.stops),
      List.append_nil] at hresumes
  exact ⟨last.start, hslots ▸ hends⟩

end Loop

/-! ## The slots of a window -/

section Slots

variable {durationMs : ℤ} {blockers : List MsInterval}

/-- The slots of a window in order: those of its grid that end in the window and have no instant in
common with a blocker. -/
structure SlicedInto (window : MsInterval) (durationMs : ℤ) (blockers slots : List MsInterval) :
    Prop where
  increasing : slots.Pairwise fun i j => i.start < j.start
  mem_iff : ∀ slot, slot ∈ slots ↔ (∃ k, slot = nthSlot durationMs window.start k) ∧
    slot.stop ≤ window.stop ∧ ∀ blocker ∈ blockers, slot.Apart blocker
  apart : slots.Pairwise Apart
  inside : ∀ slot ∈ slots, window.start ≤ slot.start ∧ slot.stop ≤ window.stop

theorem nthSlot_start_lt_stop (hd : 0 < durationMs) (start : ℤ) (k : ℕ) :
    (nthSlot durationMs start k).start < (nthSlot durationMs start k).stop := by
  simp only [nthSlot]
  linarith

theorem start_le_nthSlot (hd : 0 < durationMs) (start : ℤ) (k : ℕ) :
    start ≤ (nthSlot durationMs start k).start := by
  have hlater : 0 ≤ (k : ℤ) * durationMs := by positivity
  simp only [nthSlot]
  linarith

/-- For intervals with an instant, the comparison of the code says whether they have one in
common. -/
theorem overlaps_eq_false_iff {i j : MsInterval} (hi : i.start < i.stop) (hj : j.start < j.stop) :
    overlaps i j = false ↔ i.Apart j := by
  constructor
  · exact apart_of_not_overlaps
  · intro happart
    rw [Bool.eq_false_iff, ne_eq, overlaps_iff]
    intro hoverlaps
    -- the later of the two starts
    have hleft : i.Contains (max i.start j.start) := ⟨le_max_left _ _, max_lt hi hoverlaps.2⟩
    have hright : j.Contains (max i.start j.start) := ⟨le_max_right _ _, max_lt hoverlaps.1 hj⟩
    exact happart _ hleft hright

theorem any_overlaps_eq_false_iff {slot : MsInterval} (hslot : slot.start < slot.stop)
    (hblockers : ∀ blocker ∈ blockers, blocker.start < blocker.stop) :
    blockers.any (overlaps slot) = false ↔ ∀ blocker ∈ blockers, slot.Apart blocker := by
  rw [List.any_eq_false]
  constructor
  · intro hfree blocker hblocker
    have hnot : overlaps slot blocker = false := Bool.eq_false_iff.2 (hfree blocker hblocker)
    exact (overlaps_eq_false_iff hslot (hblockers blocker hblocker)).1 hnot
  · intro hapart blocker hblocker
    have hnot := (overlaps_eq_false_iff hslot (hblockers blocker hblocker)).2
      (hapart blocker hblocker)
    exact Bool.eq_false_iff.1 hnot

/-- The slots of a window in increasing order. -/
theorem generateSlots_increasing (hd : 0 < durationMs) (window : MsInterval)
    (blockers : List MsInterval) :
    (generateSlots window durationMs blockers).Pairwise fun i j => i.start < j.start := by
  apply List.Pairwise.imp_of_mem _ (pairwise_slotsFrom hd blockers _ _ _)
  intro i j hi _ hle
  obtain ⟨k, -, rfl, -⟩ := (mem_slotsFrom hd).1 hi
  exact (nthSlot_start_lt_stop hd _ k).trans_le hle

/-- Whatever the blockers, the loop ends, in one state only, and has sliced the window into the free
slots of its grid. -/
theorem generateSlots_sliced (hd : 0 < durationMs)
    (hblockers : ∀ blocker ∈ blockers, blocker.start < blocker.stop) (window : MsInterval) :
    (∃ start, ∀ last, LoopEnds (Slicing.next window durationMs blockers) ⟨window.start, []⟩ last ↔
      last = ⟨start, generateSlots window durationMs blockers⟩) ∧
    SlicedInto window durationMs blockers (generateSlots window durationMs blockers) := by
  constructor
  · obtain ⟨start, hends⟩ := slicing_ends hd window blockers
    exact ⟨start, fun last => ⟨fun h => h.unique hends, fun h => h ▸ hends⟩⟩
  · -- the slots are those of the grid that no blocker meets
    have hmem : ∀ slot, slot ∈ generateSlots window durationMs blockers ↔
        (∃ k, slot = nthSlot durationMs window.start k) ∧ slot.stop ≤ window.stop ∧
          ∀ blocker ∈ blockers, slot.Apart blocker := by
      intro slot
      rw [mem_generateSlots hd]
      constructor
      · rintro ⟨k, rfl, hstop, hfree⟩
        have hslot := nthSlot_start_lt_stop hd window.start k
        exact ⟨⟨k, rfl⟩, hstop, (any_overlaps_eq_false_iff hslot hblockers).1 hfree⟩
      · rintro ⟨⟨k, rfl⟩, hstop, hapart⟩
        have hslot := nthSlot_start_lt_stop hd window.start k
        exact ⟨k, rfl, hstop, (any_overlaps_eq_false_iff hslot hblockers).2 hapart⟩
    have hinside : ∀ slot ∈ generateSlots window durationMs blockers,
        window.start ≤ slot.start ∧ slot.stop ≤ window.stop := by
      intro slot hslot
      obtain ⟨⟨k, rfl⟩, hstop, -⟩ := (hmem slot).1 hslot
      exact ⟨start_le_nthSlot hd window.start k, hstop⟩
    exact ⟨generateSlots_increasing hd window blockers, hmem,
      pairwise_generateSlots hd window blockers, hinside⟩

/-- An hour in slots of 20 minutes, with two blockers that overlap one another. -/
theorem generateSlots_sliced_hour :
    (∃ start, ∀ last, LoopEnds (Slicing.next ⟨0, 60⟩ 20 [⟨25, 40⟩, ⟨20, 30⟩]) ⟨0, []⟩ last ↔
      last = ⟨start, generateSlots ⟨0, 60⟩ 20 [⟨25, 40⟩, ⟨20, 30⟩]⟩) ∧
    SlicedInto ⟨0, 60⟩ 20 [⟨25, 40⟩, ⟨20, 30⟩] [⟨0, 20⟩, ⟨40, 60⟩] :=
  generateSlots_sliced (by decide) (by decide) ⟨0, 60⟩

end Slots

end BookingPlatform
