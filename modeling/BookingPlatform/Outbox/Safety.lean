import BookingPlatform.Outbox.Relay

/-!
# Outbox Safety

What holds of the outbox in every world that any number of relays reach: no event is in
two batches, only a delivery that returned marks its event as dispatched, marks are final,
attempts are failed deliveries, and no event is lost.

## Main definitions

- `OutboxSafety`: these four promises.

## Main results

- `committed_outbox`: they hold in every reachable world.
-/

namespace BookingPlatform

open Library

/-- Statements of relays and workers as a signature. -/
abbrev RelaySql : Signature := sqlSignature RelayStatement RelayStatement.Result

/-- The relays and workers over one outbox, at some moment. -/
abbrev RelayWorld (T : Type) : Type := World RelaySql T (RelayDb T) RelayJob Thrown ℕ

/-! ## Events in flight -/

/-- The events a batch holds: those it has claimed in the transaction it is in. -/
def holding : Protocol RelaySql (List Uuid) where
  allows _ _ := True
  answers _ _ _ := True
  next ids s x := match s, x with
    | .claimBatch _, .ok v => v.map (·.id) ++ ids
    | .commit, _ => []
    | .rollback, _ => []
    | _, _ => ids

variable {T : Type} [DecidableEq T]

def heldTracker : Tracker (relayServer (T := T) anyDispatch) holding [] fun _ => [] :=
  Server.traceTracker _ _ _ _ fun _ _ _ => trivial

/-- The events that session `t` holds. -/
def heldBy (w : RelayWorld T) (t : T) : List Uuid := Server.tracePhase holding [] (fun _ => []) w t

/-- A transaction has locked the events that it holds. -/
theorem holding_locks {g : RelayDb T} {t : T} {ids : List Uuid} (h : ids ⊆ g.locks t)
    (s : RelayStatement) (x : Except SqlState s.Result) :
    holding.next ids s x ⊆ (g.effect t s x).locks t := by
  have hnil : ∀ g' : RelayDb T, [] ⊆ g'.locks t := fun _ => List.nil_subset _
  rcases x with code | v
  · cases s with
    | commit => exact hnil _
    | rollback => exact hnil _
    | _ => exact h
  · cases s with
    -- what is claimed is locked
    | claimBatch limit =>
      have hlocks : (g.effect t (.claimBatch limit) (.ok v)).locks t = v.map (·.id) ++
          g.locks t := by
        simp [RelayDb.effect, RelayDb.apply]
      rw [hlocks]
      exact List.append_subset.2 ⟨List.subset_append_left _ _,
        List.Subset.trans h (List.subset_append_right _ _)⟩
    | setDispatched id | setDead id | setRetry id =>
      intro id' hid
      have hold : id' ∈ g.locks t := h hid
      simp [RelayDb.effect, RelayDb.apply, RelayDb.write, hold]
    | commit => exact hnil _
    | rollback => exact hnil _
    | add job =>
      rcases v with _ | stored
      · exact h
      · cases stored <;> exact h
    | _ => exact h

/-- A statement does not touch the locks of other transactions. -/
theorem RelayDb.effect_locks_ne (g : RelayDb T) {t u : T} (hu : u ≠ t) (s : RelayStatement)
    (x : Except SqlState s.Result) : (g.effect t s x).locks u = g.locks u := by
  have hcommit : (g.commit t).locks u = g.locks u := by
    unfold RelayDb.commit
    split <;> simp [RelayDb.rollback, hu]
  rcases x with code | v
  · cases s <;> simp [RelayDb.effect, RelayDb.abort, RelayDb.rollback, hu]
  · cases s with
    | commit => exact hcommit
    | add job =>
      rcases v with _ | stored
      · rfl
      · cases stored <;> rfl
    | _ => simp [RelayDb.effect, RelayDb.apply, RelayDb.write, RelayDb.rollback, hu]

/-! ## Runs -/

/-- How far each batch has come, by what it has done. -/
def batchTracker : Tracker (relayServer (T := T) anyDispatch) batch .idle Batch.start :=
  Server.traceTracker _ _ _ _ fun _ _ _ => trivial

/-- How far the batch of session `t` has come. -/
def batchOf (w : RelayWorld T) (t : T) : Batch := Server.tracePhase batch .idle Batch.start w t

/-- What the outbox promises. -/
structure OutboxSafety (w : RelayWorld T) : Prop where
  exclusive : ∀ t u, t ≠ u → ∀ id ∈ heldBy w t, id ∉ heldBy w u
  dispatched : ∀ l w', World.Step (relayServer anyDispatch) w l w' → ∀ id r',
    w'.shared.event id = some r' → r'.status = .dispatched →
    (∃ r, w.shared.event id = some r ∧ r.status = .dispatched) ∨
      ∃ t, l = .call t ⟨.commit, .ok ()⟩ ∧ ⟨id, true⟩ ∈ w.shared.deliveries.pending t
  final : ∀ w', Runs (World.Step (relayServer anyDispatch)) anyStep w w' → ∀ id r,
    w.shared.event id = some r → r.status ≠ .pending →
    ∃ r', w'.shared.event id = some r' ∧ r'.status = r.status
  pending : ∀ id r, w.shared.event id = some r → r.status = .pending →
    r.attempts = w.shared.failures id ∧ r.attempts < outboxMaxAttempts
  dead : ∀ id r, w.shared.event id = some r →
    (r.status = .dead ↔ w.shared.failures id = outboxMaxAttempts)
  kept : ∀ w', Runs (World.Step (relayServer anyDispatch)) anyStep w w' → ∀ id,
    (w.shared.event id).isSome → (w'.shared.event id).isSome

/-- The course of all batches and what holds of the outbox. -/
structure OutboxInv (w : RelayWorld T) : Prop where
  conforms : batchTracker.Conforms (fun ph _ => ph = .idle) w
  relay : RelayInv w.shared (batchOf w)
  held : ∀ t, heldBy w t ⊆ w.shared.locks t

variable {w w' : RelayWorld T}

theorem OutboxInv.step (h : OutboxInv w) {l : Label RelaySql T RelayJob}
    (hs : World.Step (relayServer anyDispatch) w l w') : OutboxInv w' := by
  refine ⟨h.conforms.step follows_batch hs, ?_, ?_⟩
  · -- the batches: the one whose relay moves, and the others as they were
    cases hs with
    | @start t q hidle =>
      have hph : batchOf w t = .idle := h.conforms.phase_idle hidle
      have hself := batchTracker.start_eq w t q hidle hph
      have hmoved : batchOf (w.start (relayServer anyDispatch) t q) =
          Function.update (batchOf w) t (Batch.start q) :=
        Function.eq_update_iff.2 ⟨hself, fun u hu => batchTracker.start_frame w t q u hu⟩
      rw [hmoved]
      exact h.relay.start hph q
    | @call t q tr s k x hat hx =>
      have hself := batchTracker.call_eq w t q s k tr x hat hx
      have hmoved : batchOf (w.answered (relayServer anyDispatch) t q (k x) tr s x) =
          Function.update (batchOf w) t (batch.next (batchOf w t) s x) :=
        Function.eq_update_iff.2
          ⟨hself, fun u hu => batchTracker.call_frame w t q (k x) tr s x u hu⟩
      rw [hmoved]
      exact h.relay.statement (h.conforms.allows hat) hx
    | @crash t σ hat hrun =>
      have hself := batchTracker.crash_eq w t
      have hmoved : batchOf (w.crashed (relayServer anyDispatch) t) =
          Function.update (batchOf w) t .idle :=
        Function.eq_update_iff.2 ⟨hself, fun u hu => batchTracker.crash_frame w t u hu⟩
      rw [hmoved]
      exact h.relay.rollback t
    | @env g hg => exact h.relay.env hg
  · -- what each relay holds is locked
    intro u
    cases hs with
    | @start t q hidle =>
      by_cases hu : u = t
      · subst hu
        have hself : heldBy (w.start (relayServer anyDispatch) u q) u = [] :=
          heldTracker.start_eq w u q hidle
            (by simp [heldTracker, Server.traceTracker, Server.tracePhase, hidle])
        rw [hself]
        exact List.nil_subset _
      · have hsame : heldBy (w.start (relayServer anyDispatch) t q) u = heldBy w u :=
          heldTracker.start_frame w t q u hu
        rw [hsame]
        exact h.held u
    | @call t q tr s k x hat hx =>
      by_cases hu : u = t
      · subst hu
        have hself : heldBy (w.answered (relayServer anyDispatch) u q (k x) tr s x) u =
            holding.next (heldBy w u) s x := heldTracker.call_eq w u q s k tr x hat hx
        rw [hself]
        exact holding_locks (h.held u) s x
      · have hsame : heldBy (w.answered (relayServer anyDispatch) t q (k x) tr s x) u =
            heldBy w u :=
          heldTracker.call_frame w t q (k x) tr s x u hu
        rw [hsame, World.answered_shared]
        exact (w.shared.effect_locks_ne hu s x).symm ▸ h.held u
    | @crash t σ hat hrun =>
      by_cases hu : u = t
      · subst hu
        have hself : heldBy (w.crashed (relayServer anyDispatch) u) u = [] :=
          heldTracker.crash_eq w u
        rw [hself]
        exact List.nil_subset _
      · have hsame : heldBy (w.crashed (relayServer anyDispatch) t) u = heldBy w u :=
          heldTracker.crash_frame w t u hu
        have hlocks : (w.shared.rollback t).locks u = w.shared.locks u := by
          simp [RelayDb.rollback, hu]
        rw [hsame]
        exact hlocks.symm ▸ h.held u
    | @env g hg =>
      have hlocks : g.locks = w.shared.locks := by
        rcases hg with ⟨e, -, -, -, rfl⟩ | ⟨clock, -, rfl⟩ <;> rfl
      exact hlocks.symm ▸ h.held u

theorem OutboxInv.fresh {g₀ : RelayDb T} (h₀ : g₀.Initial) :
    OutboxInv (World.fresh g₀ : RelayWorld T) where
  conforms t := by
    show batchOf (World.fresh g₀) t = .idle
    simp [batchOf, Server.tracePhase]
  relay := by
    have hidle : batchOf (World.fresh g₀ : RelayWorld T) = fun _ => .idle := by
      funext t
      simp [batchOf, Server.tracePhase]
    rw [hidle]
    exact h₀.relayInv
  held t := by simp [heldBy, Server.tracePhase]

/-- What one step does to the row of an event: only the commit of a batch changes it, to the
row of an outcome, or it is new. -/
theorem OutboxInv.row_step (h : OutboxInv w) {l : Label RelaySql T RelayJob}
    (hs : World.Step (relayServer anyDispatch) w l w') (id : Uuid) :
    w'.shared.event id = w.shared.event id ∨
    (w.shared.event id = none ∧ ∃ r', w'.shared.event id = some r' ∧ r'.status = .pending) ∨
    ∃ t done o, l = .call t ⟨.commit, .ok ()⟩ ∧ batchOf w t = .working done [] ∧
      Fresh w.shared done ∧ o ∈ done ∧ o.event.id = id ∧ w'.shared.event id = some o.row := by
  cases hs with
  | start q hidle => exact .inl rfl
  | @call t q tr s k x hat hx =>
    rcases h.relay.committed (x := x) (h.conforms.allows hat) with
      ⟨done, hcommit, hph, hfresh, hcommits⟩ | hsame
    · -- the row of an outcome, or a row of which the batch says nothing
      by_cases hid : ∃ o ∈ done, o.event.id = id
      · obtain ⟨o, ho, rfl⟩ := hid
        have hlabel : (⟨s, x⟩ : Exchange RelaySql) = ⟨.commit, .ok ()⟩ := hcommit
        exact .inr (.inr ⟨t, done, o, by rw [hlabel], hph, hfresh, ho, rfl,
          hcommits.event_of_mem hfresh ho⟩)
      · exact .inl (hcommits.event_of_ne hfresh fun o ho heq => hid ⟨o, ho, heq⟩)
    · left
      exact congrArg (eventTable.row · id) hsame
  | crash hat hrun => exact .inl rfl
  | @env g hg =>
    rcases hg with ⟨e, hnew, hpending, -, rfl⟩ | ⟨clock, -, rfl⟩
    · by_cases hid : e.id = id
      · subst hid
        exact .inr (.inl ⟨eventTable.row_of_ne hnew, e, eventTable.row_cons_self e _, hpending⟩)
      · exact .inl (eventTable.row_cons_ne hid _)
    · exact .inl rfl

/-- An event with a final mark keeps it. -/
theorem OutboxInv.final_step (h : OutboxInv w) {l : Label RelaySql T RelayJob}
    (hs : World.Step (relayServer anyDispatch) w l w') {id : Uuid} {r : OutboxEvent}
    (hr : w.shared.event id = some r) :
    ∃ r', w'.shared.event id = some r' ∧ (r.status ≠ .pending → r'.status = r.status) := by
  rcases h.row_step hs id with hsame | ⟨hnone, -⟩ | ⟨t, done, o, -, -, hfresh, ho, rfl, hrow⟩
  · exact ⟨r, hsame.trans hr, fun _ => rfl⟩
  · rw [hnone] at hr
    cases hr
  · -- a batch has outcomes for pending events only
    obtain ⟨hcurrent, hpending⟩ := hfresh.current o ho
    obtain rfl : o.event = r := Option.some.inj (hcurrent.symm.trans hr)
    exact ⟨o.row, hrow, fun hne => absurd hpending hne⟩

theorem OutboxInv.final_run (h : OutboxInv w)
    (hrun : Runs (World.Step (relayServer anyDispatch)) anyStep w w') {id : Uuid} {r : OutboxEvent}
    (hr : w.shared.event id = some r) :
    ∃ r', w'.shared.event id = some r' ∧ (r.status ≠ .pending → r'.status = r.status) := by
  have hkeep : OutboxInv w' ∧
      ∃ r', w'.shared.event id = some r' ∧ (r.status ≠ .pending → r'.status = r.status) := by
    refine hrun.invariant (I := fun v => OutboxInv v ∧
      ∃ r', v.shared.event id = some r' ∧ (r.status ≠ .pending → r'.status = r.status)) ?_
      ⟨h, r, hr, fun _ => rfl⟩
    rintro v l v' ⟨hv, r₁, hr₁, hfinal₁⟩ - hs
    obtain ⟨r₂, hr₂, hfinal₂⟩ := hv.final_step hs hr₁
    refine ⟨hv.step hs, r₂, hr₂, fun hne => ?_⟩
    have heq := hfinal₁ hne
    exact (hfinal₂ (heq ▸ hne)).trans heq
  exact hkeep.2

/-- The promises of the outbox hold in every world that any number of relays reach. -/
theorem committed_outbox {g₀ : RelayDb T} (h₀ : g₀.Initial)
    (hrun : Runs (World.Step (relayServer anyDispatch)) anyStep (World.fresh g₀) w) :
    OutboxSafety w := by
  -- every promise follows from the invariant
  have h : OutboxInv w := hrun.invariant (I := OutboxInv)
    (fun _ _ _ h _ hs => h.step hs) (.fresh h₀)
  refine ⟨?_, ?_, ?_, ?_, ?_, ?_⟩
  · exact fun t u htu id ht hu => h.relay.locks t u htu id (h.held t ht) (h.held u hu)
  · intro l w' hs id r' hr' hstatus
    rcases h.row_step hs id with hsame | ⟨-, r₁, hr₁, hpending⟩ |
      ⟨t, done, o, rfl, hph, hfresh, ho, rfl, hrow⟩
    · exact .inl ⟨r', hsame.symm.trans hr', hstatus⟩
    · obtain rfl : r₁ = r' := Option.some.inj (hr₁.symm.trans hr')
      rw [hpending] at hstatus
      cases hstatus
    · -- a row that becomes dispatched is that of a delivery that went well
      obtain rfl : o.row = r' := Option.some.inj (hrow.symm.trans hr')
      refine .inr ⟨t, rfl, ?_⟩
      have hpend : w.shared.deliveries.pending t = done.map (·.delivery) := by
        have hsound := h.relay.sound t
        rw [hph] at hsound
        exact hsound.deliveries nofun
      have hok : o.ok = true := by
        by_contra hnot
        obtain ⟨-, hmark⟩ := (hfresh.valid o ho).failed (Bool.eq_false_iff.2 hnot)
        rcases hmark with ⟨hdead, -⟩ | ⟨hpending, -⟩
        · simp [hdead] at hstatus
        · simp [hpending] at hstatus
      have hmem : o.delivery ∈ done.map (·.delivery) := List.mem_map_of_mem ho
      rw [Outcome.delivery, hok] at hmem
      rw [hpend]
      exact hmem
  · intro w' hrun' id r hr hne
    -- a row that is no longer pending stays as it is
    obtain ⟨r', hr', hfinal⟩ := h.final_run hrun' hr
    exact ⟨r', hr', hfinal hne⟩
  · intro id r hr hpending
    have hcounts := h.relay.counts id r hr
    have hattempts := hcounts.attempts
    rw [RelayDb.event_id hr] at hattempts
    exact ⟨hattempts, hcounts.alive (by simp [hpending])⟩
  · intro id r hr
    have hcounts := h.relay.counts id r hr
    have hattempts := hcounts.attempts
    rw [RelayDb.event_id hr] at hattempts
    rw [← hattempts]
    refine ⟨hcounts.dead, fun hmax => ?_⟩
    -- an event that is not dead has attempts left
    by_contra hne
    have hbelow := hcounts.alive hne
    omega
  · intro w' hrun' id hsome
    obtain ⟨r, hr⟩ := Option.isSome_iff_exists.1 hsome
    obtain ⟨r', hr', -⟩ := h.final_run hrun' hr
    exact Option.isSome_iff_exists.2 ⟨r', hr'⟩

/-- Two relays, each with one of two events; the second delivery throws. -/
def twoRelays : List (Move (Fin 2) RelayJob RelayChoice) :=
  [.start 0 (.batch 1), .start 1 (.batch 1), .go 0 (.claims [sampleEvent 1]),
    .go 1 (.claims [sampleEvent 2]), .go 0 .good, .go 1 .throws, .go 0 .good, .go 1 .good,
    .go 1 .good, .go 0 .good, .go 1 .good]

theorem committed_outbox_twoRelays :
    ∃ w : RelayWorld (Fin 2), (w.shared.event 1).map (·.status) = some .dispatched ∧
      (w.shared.event 2).map (·.attempts) = some 1 ∧ OutboxSafety w := by
  obtain ⟨w, hrun, hw⟩ := (relayResponder anyDispatch).exists_anyRun
    (World.fresh (RelayDb.ofEvents (Fin 2) [sampleEvent 1, sampleEvent 2])) twoRelays
    (fun w => (w.shared.event 1).map (·.status) = some .dispatched ∧
      (w.shared.event 2).map (·.attempts) = some 1) (by decide +kernel)
  obtain ⟨hfirst, hsecond⟩ := of_decide_eq_true hw
  exact ⟨w, hfirst, hsecond,
    committed_outbox (RelayDb.initial_ofEvents (by decide) (by decide)) hrun⟩

end BookingPlatform
