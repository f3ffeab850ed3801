import BookingPlatform.Library.Solo
import BookingPlatform.Outbox.Safety
import Mathlib.Data.List.Sort

/-!
# Progress of the Outbox

No event gets stuck. A transaction that is over has left no locks behind, and one that is not over
can die. A claim returns the oldest events that are due, so that an event can have to wait for
others; but every batch leaves fewer of them, and when there are none left the event is delivered.

## Main definitions

- `Rescues`: what the relays do for an event.
- `RelayDb.older`: the events that an event can have to wait for.

## Main results

- `locks_of_idle`: only a batch that is under way has locks.
- `executes_batch`: a batch can deliver and mark all that it claims.
- `pending_deliverable`: a pending event can be delivered from every reachable world.
-/

namespace BookingPlatform

open Library RelayM

variable {T : Type} [DecidableEq T]

/-! ## Locks -/

/-- A batch comes to its end by `COMMIT` or `ROLLBACK`, which release its locks; nothing else is
idle. -/
theorem locks_effect_of_idle {g : RelayDb T} {t : T} {ph : Batch} {s : RelayStatement}
    (hallow : batch.allows ph s) (hidle : ph = .idle → g.locks t = [])
    (x : Except SqlState s.Result) (hnext : batch.next ph s x = .idle) :
    (g.effect t s x).locks t = [] := by
  have hrollback : (g.rollback t).locks t = [] := by simp [RelayDb.rollback]
  have hcommit : (g.commit t).locks t = [] := by
    unfold RelayDb.commit
    split
    · exact hrollback
    · simp
  cases s with
  | commit => cases x with
    | error code => exact hrollback
    | ok v => exact hcommit
  | rollback => cases x <;> exact hrollback
  | process job =>
    -- a worker; a batch does not process jobs
    cases ph with
    | idle => cases x <;> exact hidle rfl
    | delivered done e ok todo => cases ok <;> exact hallow.elim
    | working done todo => cases todo <;> exact hallow.elim
    | claiming => exact hallow.elim
    | broken => cases x <;> cases hnext
  | _ =>
    cases ph with
    | idle => exact hallow.elim
    | delivered done e ok todo => cases ok <;> cases x <;> first | exact hallow.elim | cases hnext
    | working done todo => cases todo <;> cases x <;> first | exact hallow.elim | cases hnext
    | claiming => cases x <;> first | exact hallow.elim | cases hnext
    | broken => cases x <;> cases hnext

/-- Only a batch that is under way has locks. -/
def Unburdened (w : RelayWorld T) : Prop := ∀ t, batchOf w t = .idle → w.shared.locks t = []

variable {w w' : RelayWorld T}

theorem Unburdened.step (h : Unburdened w) (hinv : OutboxInv w) {l : Label RelaySql T RelayJob}
    (hs : World.Step (relayServer anyDispatch) w l w') : Unburdened w' := by
  intro u hu
  cases hs with
  | @start t q hidle =>
    by_cases hut : u = t
    · subst hut
      exact h u (hinv.conforms.phase_idle hidle)
    · have hsame : batchOf (w.start (relayServer anyDispatch) t q) u = batchOf w u :=
        batchTracker.start_frame w t q u hut
      exact h u (hsame.symm.trans hu)
  -- a statement that ends the transaction leaves no lock behind
  | @call t q tr s k x hat hx =>
    by_cases hut : u = t
    · subst hut
      have hself : batchOf (w.answered (relayServer anyDispatch) u q (k x) tr s x) u =
          batch.next (batchOf w u) s x := batchTracker.call_eq w u q s k tr x hat hx
      exact locks_effect_of_idle (hinv.conforms.allows hat) (h u) x (hself.symm.trans hu)
    · have hsame : batchOf (w.answered (relayServer anyDispatch) t q (k x) tr s x) u =
          batchOf w u :=
        batchTracker.call_frame w t q (k x) tr s x u hut
      rw [World.answered_shared]
      exact (w.shared.effect_locks_ne hut s x).trans (h u (hsame.symm.trans hu))
  -- the transaction of a relay that dies is rolled back
  | @crash t σ hat hrunning =>
    show (w.shared.rollback t).locks u = []
    by_cases hut : u = t
    · subst hut
      simp [RelayDb.rollback]
    · have hsame : batchOf (w.crashed (relayServer anyDispatch) t) u = batchOf w u :=
        batchTracker.crash_frame w t u hut
      have hlocks : (w.shared.rollback t).locks u =
        w.shared.locks u := by simp [RelayDb.rollback, hut]
      exact hlocks.trans (h u (hsame.symm.trans hu))
  -- a recorded event and a later time take no lock
  | @env g hg =>
    have hlocks : g.locks = w.shared.locks := by
      rcases hg with ⟨e, -, -, -, rfl⟩ | ⟨clock, -, rfl⟩ <;> rfl
    show g.locks u = []
    rw [hlocks]
    exact h u hu

/-- Only a batch that is under way has locks, in every reachable world. -/
theorem locks_of_idle {g₀ : RelayDb T} (h₀ : g₀.Initial)
    (hrun : Runs (World.Step (relayServer anyDispatch)) anyStep (World.fresh g₀) w) :
    OutboxInv w ∧ Unburdened w := by
  have hfresh : Unburdened (World.fresh g₀ : RelayWorld T) := fun t _ => h₀.locks t
  apply hrun.invariant (I := fun v => OutboxInv v ∧ Unburdened v) _ ⟨.fresh h₀, hfresh⟩
  rintro v l v' ⟨hinv, hfree⟩ - hs
  exact ⟨hinv.step hs, hfree.step hinv hs⟩

/-! ## The first rows -/

/-- The first elements of a list by a total order: what is not among them comes after them. -/
theorem exists_first {α : Type*} (r : α → α → Prop) [Std.Total r] [IsTrans α r] (l : List α)
    (n : ℕ) :
    ∃ first : List α, first.Subperm l ∧ first.length ≤ n ∧ first.Pairwise r ∧
      ∀ a ∈ l, a ∈ first ∨ first.length = n ∧ ∀ b ∈ first, r b a := by
  classical
  have hsorted : (l.insertionSort r).Pairwise r := List.pairwise_insertionSort r l
  have hperm : (l.insertionSort r).Perm l := List.perm_insertionSort r l
  -- sort the list and take the first `n`
  refine ⟨(l.insertionSort r).take n, ?_, List.length_take_le _ _, hsorted.take, ?_⟩
  · exact ((List.take_sublist _ _).subperm).trans hperm.subperm
  · intro a ha
    have hsplit : a ∈ (l.insertionSort r).take n ++ (l.insertionSort r).drop n := by
      rw [List.take_append_drop]
      exact hperm.mem_iff.2 ha
    rcases List.mem_append.1 hsplit with hfirst | hlater
    · exact .inl hfirst
    · -- what comes later is there only if the list is longer than `n`
      have hlong : n < (l.insertionSort r).length := by
        have hpos := List.length_pos_of_mem hlater
        rw [List.length_drop] at hpos
        omega
      refine .inr ⟨List.length_take_of_le hlong.le, fun b hb => ?_⟩
      rw [← List.take_append_drop n (l.insertionSort r)] at hsorted
      exact (List.pairwise_append.1 hsorted).2.2 b hb a hlater

instance : Std.Total RelayDb.Before where
  total a b := by
    simp only [RelayDb.Before, Instant, Uuid]
    omega

instance : IsTrans OutboxEvent RelayDb.Before where
  trans a b c hab hbc := by
    simp only [RelayDb.Before, Instant, Uuid] at *
    omega

omit [DecidableEq T] in
/-- There is always an answer to a claim. -/
theorem RelayDb.exists_claimsFirst (g : RelayDb T) (t : T) (limit : ℕ) :
    ∃ rows, g.ClaimsFirst t limit rows := by
  classical
  -- the rows as `t` sees them, and those that it may claim
  let row (id : Uuid) : Option OutboxEvent := eventTable.row (g.events.visible t) id
  let current : List OutboxEvent := ((g.events.visible t).map (·.id)).dedup.filterMap row
  let claimable : List OutboxEvent := current.filter fun e =>
    e.status = .pending ∧ e.availableAt ≤ g.clock ∧ g.Unlocked t e.id
  have hown : ∀ {id e}, row id = some e → e.id = id := by
    intro id e hrow
    rcases eventTable.row_eq_some hrow with ⟨e', -, hid, rfl⟩ | hbase
    · exact hid
    · cases hbase
  -- a row that is seen is in the log under its id
  have hcurrent : ∀ e, e ∈ current ↔ row e.id = some e := by
    intro e
    constructor
    · intro he
      obtain ⟨id, -, hrow⟩ := List.mem_filterMap.1 he
      rw [hown hrow]
      exact hrow
    · intro hrow
      refine List.mem_filterMap.2 ⟨e.id, List.mem_dedup.2 ?_, hrow⟩
      rcases eventTable.row_eq_some hrow with ⟨e', he', hid, -⟩ | hbase
      · exact hid ▸ List.mem_map_of_mem he'
      · cases hbase
  -- one row for each id
  have hnodup : (current.map (·.id)).Nodup := by
    apply List.Nodup.map_on
    · intro e he e' he' hsame
      have hrow := (hcurrent e).1 he
      rw [hsame, (hcurrent e').1 he'] at hrow
      exact (Option.some.inj hrow).symm
    · apply (List.nodup_dedup _).filterMap
      intro id id' e hid hid'
      exact (hown hid).symm.trans (hown hid')
  -- the claim takes the first of them
  obtain ⟨rows, hsub, hlength, hsorted, hfirst⟩ := exists_first RelayDb.Before claimable limit
  have hids : (rows.map (·.id)).Nodup := by
    obtain ⟨kept, hperm, hkept⟩ := hsub
    have hsublist : (kept.map (·.id)).Sublist (current.map (·.id)) :=
      (hkept.trans List.filter_sublist).map _
    exact (hperm.map _).nodup_iff.1 (hsublist.nodup hnodup)
  refine ⟨rows, ⟨hlength, hids, hsorted, fun e he => ?_⟩, fun e hrow hpending hdue hunlocked => ?_⟩
  · obtain ⟨hmem, hp⟩ := List.mem_filter.1 (hsub.subset he)
    exact ⟨(hcurrent e).1 hmem, of_decide_eq_true hp⟩
  · exact hfirst e (List.mem_filter.2
      ⟨(hcurrent e).2 hrow, decide_eq_true ⟨hpending, hdue, hunlocked⟩⟩)

/-! ## A batch that delivers all that it claims -/

variable {g : RelayDb T} {t : T}

/-- What the batch of `t` has written when it has delivered and marked these events. -/
def RelayDb.drained (g : RelayDb T) (t : T) (events : List OutboxEvent) : RelayDb T :=
  { g with
    events := g.events.pushAll t (events.map fun e => { e with status := .dispatched })
    deliveries := g.deliveries.pushAll t (events.map fun e => ⟨e.id, true⟩)
    locks := Function.update g.locks t ((events.map (·.id)).reverse ++ g.locks t) }

theorem RelayDb.drained_nil (g : RelayDb T) (t : T) : g.drained t [] = g := by
  simp [RelayDb.drained, LogStore.pushAll_nil]

theorem RelayDb.drained_cons (g : RelayDb T) (t : T) (e : OutboxEvent) (events : List OutboxEvent) :
    g.drained t (e :: events) = (g.drained t [e]).drained t events := by
  simp [RelayDb.drained, LogStore.pushAll]

omit [DecidableEq T] in
/-- A statement outside an aborted transaction gets an answer that it can have. -/
theorem possible_of_open {s : RelayStatement} {v : s.Result} (haborted : g.aborted t = false)
    (hv : g.returns t s v) : g.possible t s (.ok v) :=
  ⟨fun h => absurd (haborted.symm.trans h) Bool.false_ne_true, hv⟩

theorem executes_relay {s : RelayStatement} {v : s.Result}
    (h : RelayDb.possibleAlone t g s (.ok v)) :
    (orderedServer anyDispatch).Executes t (RelayM.exec s) g (.ok v) (g.apply t s v) :=
  ⟨.ok v, h, Server.executes_ret v⟩

/-- One event is delivered and marked. -/
theorem executes_processEvent {e : OutboxEvent} (haborted : g.aborted t = false)
    (hrow : eventTable.row (g.events.visible t) e.id = some e) (hunlocked : g.Unlocked t e.id) :
    (orderedServer anyDispatch).Executes t (OutboxService.processEvent anyDispatch e) g (.ok true)
      (g.drained t [e]) := by
  -- the delivery first, then the mark, both in the relay's transaction
  let g₁ := g.apply t (.deliver e) (.ok ())
  have hdeliver : (orderedServer anyDispatch).Executes t (anyDispatch e) g (.ok ()) g₁ := by
    apply Server.executes_bind (b := .ok ())
    · exact executes_relay (possible_of_open haborted trivial)
    · exact Server.executes_ret ()
  have hmark : (orderedServer anyDispatch).Executes t
    (OutboxRepository.markDispatched e.id) g₁ (.ok ())
      (g₁.apply t (.setDispatched e.id) ()) :=
    executes_relay (possible_of_open (g := g₁) haborted hunlocked)
  -- the mark is written on the row that the transaction sees
  have hdrained : g₁.apply t (.setDispatched e.id) () = g.drained t [e] := by
    show g₁.write t e.id _ = _
    unfold RelayDb.write
    rw [show eventTable.row (g₁.events.visible t) e.id = some e from hrow]
    rfl
  rw [← hdrained]
  apply Server.executes_tryCatch
  apply Server.executes_bind hdeliver
  exact Server.executes_bind hmark (Server.executes_ret true)

/-- All events are delivered and marked, one after the other. -/
theorem executes_processEvents {events : List OutboxEvent} (hnodup : (events.map (·.id)).Nodup)
    (haborted : g.aborted t = false)
    (hrows : ∀ e ∈ events, eventTable.row (g.events.visible t) e.id = some e ∧ g.Unlocked t e.id)
    (dispatched : ℕ) :
    (orderedServer anyDispatch).Executes t
      (OutboxService.processEvents anyDispatch events dispatched) g
      (.ok (dispatched + events.length)) (g.drained t events) := by
  induction events generalizing g dispatched with
  | nil =>
    rw [RelayDb.drained_nil]
    exact Server.executes_ret dispatched
  | cons e events ih =>
    rw [List.map_cons, List.nodup_cons] at hnodup
    obtain ⟨hrow, hunlocked⟩ := hrows e List.mem_cons_self
    have hfirst := executes_processEvent haborted hrow hunlocked
    -- the marks of one event are not about the others
    have hothers : ∀ e' ∈ events,
      eventTable.row ((g.drained t [e]).events.visible t) e'.id = some e' ∧
        (g.drained t [e]).Unlocked t e'.id := by
      intro e' he'
      obtain ⟨hrow', hunlocked'⟩ := hrows e' (List.mem_cons_of_mem _ he')
      have hne : e.id ≠ e'.id := fun heq => hnodup.1 (heq ▸ List.mem_map_of_mem he')
      constructor
      · have hvisible : (g.drained t [e]).events.visible t =
            { e with status := .dispatched } :: g.events.visible t := by
          simp [RelayDb.drained]
        have hkey : eventTable.key { e with status := .dispatched } ≠ e'.id := hne
        rw [hvisible, eventTable.row_cons_ne hkey]
        exact hrow'
      · intro u hu
        have hlocks : (g.drained t [e]).locks u = g.locks u := Function.update_of_ne hu _ _
        rw [hlocks]
        exact hunlocked' u hu
    have hrest := ih (g := g.drained t [e]) hnodup.2 haborted hothers (dispatched + 1)
    rw [← RelayDb.drained_cons] at hrest
    have hcount : dispatched + (e :: events).length = dispatched + 1 + events.length := by
      rw [List.length_cons]
      omega
    rw [hcount]
    exact Server.executes_bind hfirst hrest

/-- What is left when a batch has delivered and marked these events. -/
structure Drained (g : RelayDb T) (rows : List OutboxEvent) (g' : RelayDb T) : Prop where
  events : g'.events.committed = (rows.map fun e => { e with status := .dispatched }).reverse ++
    g.events.committed
  deliveries : ∀ e ∈ rows, ⟨e.id, true⟩ ∈ g'.deliveries.committed
  clock : g'.clock = g.clock
  locks : ∀ u id, id ∈ g'.locks u → id ∈ g.locks u

/-- A batch delivers and marks all that it has claimed. -/
theorem executes_batch {limit : ℕ} {rows : List OutboxEvent} (haborted : g.aborted t = false)
    (hpending : g.events.pending t = []) (hclaims : g.ClaimsFirst t limit rows) :
    ∃ g', (orderedServer anyDispatch).Executes t (handleJob anyDispatch (.batch limit)) g
      (.ok rows.length) g' ∧
      Drained g rows g' := by
  let g₁ := g.apply t (.claimBatch limit) rows
  have hclaim : (orderedServer anyDispatch).Executes t (RelayM.exec (.claimBatch limit)) g
      (.ok rows) g₁ :=
    executes_relay ⟨possible_of_open haborted hclaims.1, hclaims⟩
  obtain ⟨-, hnodup, -, hrows⟩ := hclaims.1
  have hclaimed : ∀ e ∈ rows, eventTable.row (g₁.events.visible t) e.id = some e ∧
      g₁.Unlocked t e.id := by
    intro e he
    obtain ⟨hrow, -, -, hunlocked⟩ := hrows e he
    refine ⟨hrow, fun u hu => ?_⟩
    have hlocks : g₁.locks u = g.locks u := Function.update_of_ne hu _ _
    rw [hlocks]
    exact hunlocked u hu
  have hevents := executes_processEvents (g := g₁) hnodup haborted hclaimed 0
  rw [Nat.zero_add] at hevents
  let g₂ := g₁.drained t rows
  have hcommit :
      (orderedServer anyDispatch).Executes t (RelayM.exec .commit) g₂ (.ok ())
        (g₂.apply t .commit ()) :=
    executes_relay (possible_of_open (g := g₂) haborted trivial)
  -- nothing has failed, so all of it is committed
  have hended : g₂.apply t .commit () =
      { g₂ with
        events := g₂.events.commit t
        deliveries := g₂.deliveries.commit t
        locks := Function.update g₂.locks t [] } := by
    apply if_neg
    rw [show g₂.aborted t = false from haborted]
    exact Bool.false_ne_true
  refine ⟨g₂.apply t .commit (), ?_, ?_⟩
  · apply Server.executes_tryCatch
    apply Server.executes_bind (b := rows.length)
    · exact Server.executes_bind hclaim hevents
    · exact Server.executes_bind hcommit (Server.executes_ret rows.length)
  · rw [hended]
    constructor
    · show (g.events.pushAll t _).pending t ++ g.events.committed = _
      rw [LogStore.pushAll_pending_self, hpending, List.append_nil]
    · intro e he
      show _ ∈ (g.deliveries.pushAll t _).pending t ++ g.deliveries.committed
      rw [LogStore.pushAll_pending_self, List.append_assoc]
      exact List.mem_append_left _ (List.mem_reverse.2 (List.mem_map_of_mem he))
    · rfl
    · intro u id hid
      by_cases hut : u = t
      · subst hut
        simp at hid
      · simpa [g₂, g₁, RelayDb.drained, RelayDb.apply, hut] using hid

/-! ## Waiting for older events -/

namespace Drained

variable {rows : List OutboxEvent} {g' : RelayDb T}

omit [DecidableEq T] in
/-- An event that was not claimed is as it was. -/
theorem event_of_notMem (h : Drained g rows g') {id : Uuid} (hid : ∀ e ∈ rows, e.id ≠ id) :
    g'.event id = g.event id := by
  unfold RelayDb.event
  rw [h.events]
  apply eventTable.row_append_of_ne
  intro r hr
  obtain ⟨e, he, rfl⟩ := List.mem_map.1 (List.mem_reverse.1 hr)
  exact hid e he

omit [DecidableEq T] in
/-- One that was claimed is dispatched. -/
theorem event_of_mem (h : Drained g rows g') (hnodup : (rows.map (·.id)).Nodup) {e : OutboxEvent}
    (he : e ∈ rows) :
    g'.event e.id = some { e with status := .dispatched } := by
  unfold RelayDb.event
  rw [h.events]
  have hkeys : ((rows.map fun e =>
      { e with status := .dispatched }).reverse.map eventTable.key).Nodup := by
    rw [List.map_reverse, List.map_map]
    exact List.nodup_reverse.2 hnodup
  exact eventTable.row_of_mem_nodup hkeys
    (List.mem_reverse.2 (List.mem_map_of_mem he)) g.events.committed

end Drained

/-- The pending events that a claim puts before this one, and itself. -/
def RelayDb.older (g : RelayDb T) (e : OutboxEvent) : Finset Uuid :=
  (g.events.committed.map (·.id)).toFinset.filter fun id =>
    (g.event id).any fun r => r.status = .pending ∧ RelayDb.Before r e

omit [DecidableEq T] in
theorem RelayDb.mem_older {e : OutboxEvent} {id : Uuid} :
    id ∈ g.older e ↔ ∃ r, g.event id = some r ∧ r.status = .pending ∧ RelayDb.Before r e := by
  unfold RelayDb.older
  rw [Finset.mem_filter, Option.any_eq_true]
  constructor
  · rintro ⟨-, r, hrow, hr⟩
    exact ⟨r, hrow, of_decide_eq_true hr⟩
  · rintro ⟨r, hrow, hr⟩
    refine ⟨?_, r, hrow, decide_eq_true hr⟩
    rcases eventTable.row_eq_some hrow with ⟨e', he', hid, -⟩ | hbase
    · exact List.mem_toFinset.2 (hid ▸ List.mem_map_of_mem he')
    · cases hbase

omit [DecidableEq T] in
/-- A batch that has not claimed an event that it could have claimed leaves fewer events before
it. -/
theorem Drained.older_lt {rows : List OutboxEvent} {g' : RelayDb T} (h : Drained g rows g')
    {limit : ℕ} (hlimit : 0 < limit) (hpending : g.events.pending t = [])
    (hclaims : g.ClaimsFirst t limit rows) {e : OutboxEvent} (hfull : rows.length = limit)
    (hbefore : ∀ r ∈ rows, RelayDb.Before r e) :
    (g'.older e).card < (g.older e).card := by
  obtain ⟨-, hnodup, -, hrows⟩ := hclaims.1
  apply Finset.card_lt_card
  rw [Finset.ssubset_iff_of_subset]
  · -- the first of the claimed events is not pending any more
    obtain ⟨r, hr⟩ := List.exists_mem_of_length_pos (hfull ▸ hlimit)
    obtain ⟨hrow, hstatus, -⟩ := hrows r hr
    rw [LogStore.visible, hpending] at hrow
    refine ⟨r.id, RelayDb.mem_older.2 ⟨r, hrow, hstatus, hbefore r hr⟩, fun hmem => ?_⟩
    obtain ⟨r', hrow', hstatus', -⟩ := RelayDb.mem_older.1 hmem
    rw [h.event_of_mem hnodup hr] at hrow'
    cases hrow'
    cases hstatus'
  · intro id hmem
    obtain ⟨r, hrow, hstatus, hr⟩ := RelayDb.mem_older.1 hmem
    by_cases hid : ∃ r ∈ rows, r.id = id
    · obtain ⟨r', hr', rfl⟩ := hid
      rw [h.event_of_mem hnodup hr'] at hrow
      cases hrow
      cases hstatus
    · rw [h.event_of_notMem fun r' hr' heq => hid ⟨r', hr', heq⟩] at hrow
      exact RelayDb.mem_older.2 ⟨r, hrow, hstatus, hr⟩

/-! ## From every reachable world -/

/-- What is done for an event: a relay that had locked it may die, and relays that had not started
yet handle one batch after the other. -/
def Rescues (w₀ : RelayWorld T) (id : Uuid) (limit : ℕ) (_ : RelayWorld T) :
    Label RelaySql T RelayJob → Prop
  | .start _ q => q = .batch limit
  | .call t _ => w₀.session t = none
  | .crash t => id ∈ w₀.shared.locks t
  | .env => False

/-- Claims that return the first rows are claims. -/
theorem runs_of_rescues {w₀ : RelayWorld T} {id : Uuid} {limit : ℕ}
    (hrun : Runs (World.Step (orderedServer anyDispatch)) (Rescues w₀ id limit) w w') :
    Runs (World.Step (relayServer anyDispatch)) anyStep w w' := by
  have hanswers : ∀ (t : T) (g : RelayDb T) s x, RelayDb.possibleAlone t g s x →
      g.possible t s x := by
    intro t g s x hx
    cases s with
    | claimBatch limit => cases x with
      | error code => exact hx
      | ok rows => exact hx.1
    | _ => exact hx
  induction hrun with
  | refl => exact .refl
  | tail _ hstep ih =>
    obtain ⟨l, -, hs⟩ := hstep
    exact ih.snoc trivial (World.Step.weaken hanswers hs)

/-- A session that has not started or is over has no batch under way. -/
theorem batchOf_of_over (hinv : OutboxInv w) {t : T}
    (hover : ∀ σ, w.session t = some σ → σ.prog.outcome ≠ none) :
    batchOf w t = .idle := by
  cases hat : w.session t with
  | none => exact hinv.conforms.phase_idle hat
  | some σ =>
    have hfollows := hinv.conforms.running hat
    cases hp : σ.prog with
    | ret a =>
      rw [hp] at hfollows
      exact hfollows
    | raise e =>
      rw [hp] at hfollows
      exact hfollows
    | call s k => exact absurd (by rw [hp]; rfl) (hover σ hat)

/-- A relay that has locked an event can die, so that nobody has locked it. -/
theorem exists_unlocked (hinv : OutboxInv w) (hfree : Unburdened w) (id : Uuid) (limit : ℕ) :
    ∃ w', Runs (World.Step (orderedServer anyDispatch)) (Rescues w id limit) w w' ∧
      w'.shared.events.committed = w.shared.events.committed ∧ w'.shared.clock = w.shared.clock ∧
      ∀ u, id ∉ w'.shared.locks u := by
  by_cases hlocked : ∃ u, id ∈ w.shared.locks u
  · obtain ⟨u, hu⟩ := hlocked
    have hrunning : ∃ σ, w.session u = some σ ∧ σ.prog.outcome = none := by
      by_contra hover
      have hidle : batchOf w u = .idle := batchOf_of_over hinv fun σ hat hnone =>
        hover ⟨σ, hat, hnone⟩
      rw [hfree u hidle] at hu
      cases hu
    obtain ⟨σ, hat, hnone⟩ := hrunning
    have hmay : Rescues w id limit w (.crash u) := hu
    refine ⟨w.crashed (orderedServer anyDispatch) u, Runs.snoc .refl hmay (.crash hat hnone),
      rfl, rfl, ?_⟩
    intro v hv
    -- nobody but the relay that died had locked the event
    by_cases hvu : v = u
    · subst hvu
      simp [orderedServer, relayServer, RelayDb.rollback] at hv
    · have hv' : id ∈ w.shared.locks v := by simpa [orderedServer, relayServer, RelayDb.rollback,
        hvu] using hv
      exact hinv.relay.locks v u hvu id hv' hu
  · exact ⟨w, .refl, rfl, rfl, fun u hu => hlocked ⟨u, hu⟩⟩

/-- A relay that has not started handles one batch. -/
theorem exists_round (hinv : OutboxInv w) {w₀ : RelayWorld T} {t : T} (ht : w.session t = none)
    (ht₀ : w₀.session t = none) (id : Uuid) (limit : ℕ) :
    ∃ rows w', Runs (World.Step (orderedServer anyDispatch)) (Rescues w₀ id limit) w w' ∧
      w.shared.events.pending t = [] ∧ w.shared.ClaimsFirst t limit rows ∧
      Drained w.shared rows w'.shared := by
  have hidle : batchOf w t = .idle := hinv.conforms.phase_idle ht
  have hsound : (batchOf w t).Sound w.shared t := hinv.relay.sound t
  rw [hidle] at hsound
  -- a transaction that has not begun has nothing pending and is not broken
  have haborted : w.shared.aborted t = false := by
    cases habort : w.shared.aborted t with
    | false => rfl
    | true => cases hsound.aborted.1 habort
  have hpending : w.shared.events.pending t = [] := hsound.rows nofun
  obtain ⟨rows, hclaims⟩ := w.shared.exists_claimsFirst t limit
  -- it claims the first events and delivers all of them
  obtain ⟨g', hexecutes, hdrained⟩ := executes_batch haborted hpending hclaims
  have hstarted : (w.start (orderedServer anyDispatch) t (.batch limit)).session t =
      some ⟨.batch limit, handleJob anyDispatch (.batch limit), []⟩ := Function.update_self _ _ _
  have hmoves : ∀ (v : RelayWorld T) x, Rescues w₀ id limit v (.call t x) := fun _ _ => ht₀
  -- the batch as a run, in which only this relay moves
  obtain ⟨w', p', tr', hrun, hshared, -⟩ := Server.exists_guarded_run_of_executes
    (w := w.start (orderedServer anyDispatch) t (.batch limit)) hmoves hexecutes hstarted
  have hmay : Rescues w₀ id limit w (.start t (.batch limit)) := rfl
  refine ⟨rows, w', .head ⟨_, hmay, .start (.batch limit) ht⟩ hrun, hpending, hclaims, ?_⟩
  rw [hshared]
  exact hdrained

/-- Batch after batch, an event that is due and that nobody has locked is delivered: there are fewer
and fewer events before it. -/
theorem exists_delivered [Infinite T] {g₀ : RelayDb T} (h₀ : g₀.Initial) {w₀ : RelayWorld T}
    (hstarted : {t | w₀.session t ≠ none}.Finite) {limit : ℕ} (hlimit : 0 < limit) {e : OutboxEvent}
    (hpending : e.status = .pending)
    (hrun : Runs (World.Step (relayServer anyDispatch)) anyStep (World.fresh g₀) w)
    (hrow : w.shared.event e.id = some e) (hdue : e.availableAt ≤ w.shared.clock)
    (hunlocked : ∀ u, e.id ∉ w.shared.locks u) :
    ∃ w', Runs (World.Step (orderedServer anyDispatch)) (Rescues w₀ e.id limit) w w' ∧
      w'.shared.event e.id = some { e with status := .dispatched } ∧
      ⟨e.id, true⟩ ∈ w'.shared.deliveries.committed := by
  -- induction on the number of events that come before `e`
  generalize hn : (w.shared.older e).card = n
  induction n using Nat.strong_induction_on generalizing w with
  | _ n ih =>
    obtain ⟨hinv, -⟩ := locks_of_idle h₀ hrun
    -- a relay that has not started yet, of the endlessly many
    obtain ⟨t, ht⟩ := ((World.finite_started hrun).union hstarted).exists_notMem
    obtain ⟨hfresh, hfresh₀⟩ := not_or.1 ht
    obtain ⟨rows, w₁, hround, hnone, hclaims, hdrained⟩ :=
      exists_round hinv (not_not.1 hfresh) (not_not.1 hfresh₀) e.id limit
    obtain ⟨-, hnodup, -, hrows⟩ := hclaims.1
    have hvisible : eventTable.row (w.shared.events.visible t) e.id = some e := by
      rw [LogStore.visible, hnone]
      exact hrow
    by_cases hclaimed : e ∈ rows
    · exact ⟨w₁, hround, hdrained.event_of_mem hnodup hclaimed, hdrained.deliveries e hclaimed⟩
    · -- `e` is not claimed: the batch is full of events that come before it
      obtain ⟨hfull, hbefore⟩ :=
        (hclaims.2 e hvisible hpending hdue fun u _ => hunlocked u).resolve_left hclaimed
      have hother : ∀ r ∈ rows, r.id ≠ e.id := by
        intro r hr heq
        have hsame := (hrows r hr).1
        rw [heq, hvisible] at hsame
        exact hclaimed (Option.some.inj hsame ▸ hr)
      have hfewer := hdrained.older_lt hlimit hnone hclaims hfull hbefore
      have hrow₁ : w₁.shared.event e.id = some e := (hdrained.event_of_notMem hother).trans hrow
      -- these are dispatched now, so that fewer come before `e`
      obtain ⟨w', hrest, hdone⟩ := ih _ (hn ▸ hfewer) (hrun.trans (runs_of_rescues hround)) hrow₁
        (hdrained.clock ▸ hdue) (fun u hu => hunlocked u (hdrained.locks u e.id hu)) rfl
      exact ⟨w', hround.trans hrest, hdone⟩

/-- **No event gets stuck.** Wherever any number of relays stand, a transaction that is over has
left no lock behind, no two have locked the same event, and every pending event can still be
delivered and marked: when time has passed and the relay that had locked it has died, relays that
had not started yet claim the first events of the table, batch after batch, until it is their
turn. -/
theorem pending_deliverable [Infinite T] {limit : ℕ} (hlimit : 0 < limit) {g₀ : RelayDb T}
    (h₀ : g₀.Initial)
    (hrun : Runs (World.Step (relayServer anyDispatch)) anyStep (World.fresh g₀) w) :
    (∀ t, (∀ σ, w.session t = some σ → σ.prog.outcome ≠ none) → w.shared.locks t = []) ∧
    (∀ id t u, id ∈ w.shared.locks t → id ∈ w.shared.locks u → t = u) ∧
    ∀ id e, w.shared.event id = some e → e.status = .pending →
      ∃ clock w', w.shared.clock ≤ clock ∧
        Runs (World.Step (orderedServer anyDispatch)) (Rescues w id limit)
          { w with shared := { w.shared with clock } } w' ∧
        w'.shared.event id = some { e with status := .dispatched } ∧
        ⟨id, true⟩ ∈ w'.shared.deliveries.committed := by
  obtain ⟨hinv, hfree⟩ := locks_of_idle h₀ hrun
  refine ⟨fun t hover => hfree t (batchOf_of_over hinv hover), ?_, ?_⟩
  · intro id t u ht hu
    by_contra hne
    exact hinv.relay.locks t u hne id ht hu
  · intro id e hrow hpending
    obtain rfl : e.id = id := RelayDb.event_id hrow
    -- wait until the event is due
    let clock := max w.shared.clock e.availableAt
    let w₁ : RelayWorld T := { w with shared := { w.shared with clock } }
    have hwait : World.Step (relayServer anyDispatch) w .env w₁ :=
      .env (.inr ⟨clock, le_max_left _ _, rfl⟩)
    have hrun₁ : Runs (World.Step (relayServer anyDispatch)) anyStep (World.fresh g₀) w₁ :=
      hrun.snoc trivial hwait
    obtain ⟨hinv₁, hfree₁⟩ := locks_of_idle h₀ hrun₁
    -- the relay that has locked it dies, if there is one
    obtain ⟨w₂, hdies, hcommitted, hclock, hunlocked⟩ := exists_unlocked hinv₁ hfree₁ e.id limit
    have hrow₂ : w₂.shared.event e.id = some e := by
      unfold RelayDb.event
      rw [hcommitted]
      exact hrow
    have hdue : e.availableAt ≤ w₂.shared.clock := by
      rw [hclock]
      exact le_max_right _ _
    -- then batch after batch, until it is its turn
    obtain ⟨w', hbatches, hdone⟩ := exists_delivered h₀ (World.finite_started hrun) hlimit hpending
      (hrun₁.trans (runs_of_rescues hdies)) hrow₂ hdue hunlocked
    exact ⟨clock, w', le_max_left _ _, hdies.trans hbatches, hdone⟩

/-- A relay has claimed three events and does not go on. -/
theorem pending_deliverable_locked :
    ∃ (w w' : RelayWorld ℕ) (clock : Instant), w.shared.locks 0 = [1, 2, 3] ∧
      Runs (World.Step (orderedServer anyDispatch)) (Rescues w 3 outboxBatchSize)
        { w with shared := { w.shared with clock } } w' ∧
        ⟨3, true⟩ ∈ w'.shared.deliveries.committed := by
  let events : List OutboxEvent := [sampleEvent 1, sampleEvent 2, sampleEvent 3]
  let g : RelayDb ℕ := RelayDb.ofEvents ℕ events
  let w₁ : RelayWorld ℕ :=
    (World.fresh g).start (relayServer anyDispatch) 0 (.batch outboxBatchSize)
  -- all three events are due, and nobody has locked them
  have hclaims : g.Claims 0 outboxBatchSize events := by
    refine ⟨by decide, by decide, by decide, fun e he => ?_⟩
    have hdue : eventTable.row events e.id = some e ∧ e.status = .pending ∧ e.availableAt ≤ 0 := by
      revert e
      decide
    exact ⟨hdue.1, hdue.2.1, hdue.2.2, fun u hu => List.not_mem_nil⟩
  have hstart : World.Step (relayServer anyDispatch) (World.fresh g)
      (.start 0 (.batch outboxBatchSize)) w₁ :=
    .start _ rfl
  have hfirst : w₁.session 0 =
      some ⟨.batch outboxBatchSize, handleJob anyDispatch (.batch outboxBatchSize), []⟩ := rfl
  let claimed : Except SqlState (List OutboxEvent) := .ok events
  have hpossible : (relayServer anyDispatch).possible 0 w₁.shared
      (.claimBatch outboxBatchSize) claimed :=
    possible_of_open (g := g) rfl hclaims
  have hstarted : Runs (World.Step (relayServer anyDispatch)) anyStep (World.fresh g) w₁ :=
    .snoc .refl trivial hstart
  -- relay 0 has claimed them, and stands
  have hrun := hstarted.snoc trivial (.call claimed hfirst hpossible)
  obtain ⟨-, -, hdeliverable⟩ := pending_deliverable (show 0 < outboxBatchSize by decide)
    (RelayDb.initial_ofEvents (by decide) (by decide)) hrun
  obtain ⟨clock, w', -, hrescue, -, hdelivery⟩ := hdeliverable 3 (sampleEvent 3) rfl rfl
  exact ⟨_, w', clock, rfl, hrescue, hdelivery⟩

end BookingPlatform
