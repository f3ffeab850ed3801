import BookingPlatform.Outbox.Batch
import Mathlib.Data.List.Nodup

/-!
# What the Outbox Guarantees

Any number of batches, interleaved statement by statement, with deliveries that return or
throw and transactions that fail or die at any point. A batch works on rows it has locked,
so what it writes for an event is about the committed row of the event, and its commit
moves the marks of all its events together with what their deliveries came to.

## Main results

- `RelayInv.statement`: one statement of a batch keeps the outbox in order.
- `committed_outbox`: what holds of the outbox in every reachable world.
-/

namespace BookingPlatform

open Library

/-! ## Batches and the database -/

/-- The delivery of the event. -/
def Outcome.delivery (o : Outcome) : Delivery := ⟨o.event.id, o.ok⟩

namespace Batch

/-- The outcomes so far. -/
def done : Batch → List Outcome
  | working done _ => done
  | delivered done _ _ _ => done
  | _ => []

/-- The events that the batch has claimed and holds. -/
def events : Batch → List OutboxEvent
  | working done todo => done.map (·.event) ++ todo
  | delivered done e _ todo => done.map (·.event) ++ e :: todo
  | _ => []

/-- The deliveries so far, newest first. -/
def deliveries : Batch → List Delivery
  | working done _ => done.map (·.delivery)
  | delivered done e ok _ => ⟨e.id, ok⟩ :: done.map (·.delivery)
  | _ => []

end Batch

/-- The row written for an event is the right one for the outcome of its delivery. -/
structure Outcome.Valid (o : Outcome) : Prop where
  id : o.row.id = o.event.id
  ok : o.ok = true → o.row.status = .dispatched ∧ o.row.attempts = o.event.attempts
  failed : o.ok = false → o.row.attempts = o.event.attempts + 1 ∧
    (o.row.status = .dead ∧ outboxMaxAttempts ≤ o.event.attempts + 1 ∨
      o.row.status = .pending ∧ o.event.attempts + 1 < outboxMaxAttempts)

variable {T : Type}

/-- What a batch of transaction `t` has to do with the database. -/
structure Batch.Sound (g : RelayDb T) (t : T) (ph : Batch) : Prop where
  aborted : g.aborted t = true ↔ ph = .broken
  rows : ph ≠ .broken → g.events.pending t = ph.done.map (·.row)
  deliveries : ph ≠ .broken → g.deliveries.pending t = ph.deliveries
  locked : ∀ e ∈ ph.events, e.id ∈ g.locks t
  current : ∀ e ∈ ph.events, g.event e.id = some e ∧ e.status = .pending
  nodup : (ph.events.map (·.id)).Nodup
  valid : ∀ o ∈ ph.done, o.Valid

/-- A committed row agrees with the committed deliveries of its event. -/
structure RelayDb.Counts (g : RelayDb T) (r : OutboxEvent) : Prop where
  attempts : r.attempts = g.failures r.id
  dead : r.status = .dead → r.attempts = outboxMaxAttempts
  alive : r.status ≠ .dead → r.attempts < outboxMaxAttempts
  delivered : r.status = .dispatched → ⟨r.id, true⟩ ∈ g.deliveries.committed

/-- The outbox is in order. -/
structure RelayInv (g : RelayDb T) (phase : T → Batch) : Prop where
  sound : ∀ t, (phase t).Sound g t
  locks : ∀ t u, t ≠ u → ∀ id ∈ g.locks t, id ∉ g.locks u
  counts : ∀ id r, g.event id = some r → g.Counts r
  known : ∀ d ∈ g.deliveries.committed, (g.event d.id).isSome

variable {g g' : RelayDb T} {t u : T} {phase : T → Batch} {ph ph' : Batch}

/-- An event is stored under its own id. -/
theorem RelayDb.event_id {id : Uuid} {r : OutboxEvent} (h : g.event id = some r) : r.id = id := by
  rcases eventTable.row_eq_some h with ⟨e, -, hid, rfl⟩ | hbase
  · exact hid
  · cases hbase

/-- Whether a row agrees with the deliveries depends on the committed deliveries only. -/
theorem RelayDb.Counts.congr {r : OutboxEvent} (h : g.Counts r)
    (hdeliveries : g'.deliveries.committed = g.deliveries.committed) : g'.Counts r where
  attempts := by
    rw [RelayDb.failures, hdeliveries]
    exact h.attempts
  dead := h.dead
  alive := h.alive
  delivered := by
    rw [hdeliveries]
    exact h.delivered

/-- A batch does not depend on the transactions of others, as long as the rows it holds
stay as they are. -/
theorem Batch.Sound.frame (h : ph.Sound g u) (hevents : g'.events.pending u = g.events.pending u)
    (hdeliveries : g'.deliveries.pending u = g.deliveries.pending u)
    (haborted : g'.aborted u = g.aborted u) (hlocks : g'.locks u = g.locks u)
    (hcurrent : ∀ e ∈ ph.events, g'.event e.id = g.event e.id) : ph.Sound g' u where
  aborted := by
    rw [haborted]
    exact h.aborted
  rows := by
    rw [hevents]
    exact h.rows
  deliveries := by
    rw [hdeliveries]
    exact h.deliveries
  locked := by
    rw [hlocks]
    exact h.locked
  current e he := by
    rw [hcurrent e he]
    exact h.current e he
  nodup := h.nodup
  valid := h.valid

/-! ## Counting deliveries -/

/-- The batch has delivered no other event. -/
theorem countP_delivery_of_ne {done : List Outcome} {id : Uuid}
    (hid : ∀ o ∈ done, o.event.id ≠ id) :
    (done.map (·.delivery)).countP (fun d => d.id = id ∧ d.ok = false) = 0 := by
  rw [List.countP_eq_zero]
  intro d hd
  obtain ⟨o, ho, rfl⟩ := List.mem_map.1 hd
  have hne : o.event.id ≠ id := hid o ho
  simp [Outcome.delivery, hne]

/-- The batch has delivered each of its events once. -/
theorem countP_delivery {done : List Outcome} (hnd : (done.map (·.event.id)).Nodup) {o : Outcome}
    (ho : o ∈ done) :
    (done.map (·.delivery)).countP (fun d => d.id = o.event.id ∧ d.ok = false) =
      if o.ok then 0 else 1 := by
  induction done with
  | nil => cases ho
  | cons p done ih =>
    rw [List.map_cons, List.nodup_cons] at hnd
    rw [List.map_cons, List.countP_cons]
    rcases List.mem_cons.1 ho with rfl | hmem
    · -- the later deliveries are of other events
      have hnone : (done.map (·.delivery)).countP (fun d => d.id = o.event.id ∧ d.ok = false) = 0 :=
        countP_delivery_of_ne fun p hp heq =>
          hnd.1 (heq ▸ List.mem_map_of_mem (f := (·.event.id)) hp)
      rw [hnone]
      cases hok : o.ok <;> simp [Outcome.delivery, hok]
    · have hne : p.event.id ≠ o.event.id := fun heq =>
        hnd.1 (heq ▸ List.mem_map_of_mem (f := (·.event.id)) hmem)
      rw [ih hnd.2 hmem]
      simp [Outcome.delivery, hne]

/-! ## Steps -/

section Step

variable [DecidableEq T]

/-- Transaction `t` moves on and commits nothing. -/
theorem RelayInv.move (h : RelayInv g phase) (hsound : ph'.Sound g' t)
    (hevents : ∀ u, u ≠ t → g'.events.pending u = g.events.pending u)
    (hdeliveries : ∀ u, u ≠ t → g'.deliveries.pending u = g.deliveries.pending u)
    (haborted : ∀ u, u ≠ t → g'.aborted u = g.aborted u)
    (hlocks : ∀ u, u ≠ t → g'.locks u = g.locks u)
    (hfree : ∀ u, u ≠ t → ∀ id ∈ g'.locks t, id ∉ g.locks u)
    (hcommitted : g'.events.committed = g.events.committed)
    (hdelivered : g'.deliveries.committed = g.deliveries.committed) :
    RelayInv g' (Function.update phase t ph') where
  sound u := by
    -- the other transactions are where they were
    by_cases hut : u = t
    · subst hut
      rw [Function.update_self]
      exact hsound
    · rw [Function.update_of_ne hut]
      refine (h.sound u).frame (hevents u hut) (hdeliveries u hut) (haborted u hut)
        (hlocks u hut) ?_
      intro e _
      rw [RelayDb.event, RelayDb.event, hcommitted]
  locks u v huv id hu hv := by
    by_cases hut : u = t
    · subst hut
      rw [hlocks v huv.symm] at hv
      exact hfree v huv.symm id hu hv
    · rw [hlocks u hut] at hu
      by_cases hvt : v = t
      · subst hvt
        exact hfree u hut id hv hu
      · rw [hlocks v hvt] at hv
        exact h.locks u v huv id hu hv
  counts id r hr := by
    rw [RelayDb.event, hcommitted] at hr
    exact (h.counts id r hr).congr hdelivered
  known d hd := by
    rw [hdelivered] at hd
    rw [RelayDb.event, hcommitted]
    exact h.known d hd

omit [DecidableEq T] in
theorem sound_idle (haborted : g.aborted t = false) (hevents : g.events.pending t = [])
    (hdeliveries : g.deliveries.pending t = []) : Batch.idle.Sound g t where
  aborted := by simp [haborted]
  rows _ := hevents
  deliveries _ := hdeliveries
  locked _ he := absurd he List.not_mem_nil
  current _ he := absurd he List.not_mem_nil
  nodup := List.nodup_nil
  valid _ ho := absurd ho List.not_mem_nil

omit [DecidableEq T] in
theorem sound_broken (haborted : g.aborted t = true) : Batch.broken.Sound g t where
  aborted := by simp [haborted]
  rows hne := absurd rfl hne
  deliveries hne := absurd rfl hne
  locked _ he := absurd he List.not_mem_nil
  current _ he := absurd he List.not_mem_nil
  nodup := List.nodup_nil
  valid _ ho := absurd ho List.not_mem_nil

/-- A transaction is rolled back. -/
theorem RelayInv.rollback (h : RelayInv g phase) (t : T) :
    RelayInv (g.rollback t) (Function.update phase t .idle) := by
  refine h.move (sound_idle ?_ ?_ ?_) ?_ ?_ ?_ ?_ ?_ rfl rfl
  · simp [RelayDb.rollback]
  · simp [RelayDb.rollback]
  · simp [RelayDb.rollback]
  · exact fun u hu => by simp [RelayDb.rollback, hu]
  · exact fun u hu => by simp [RelayDb.rollback, hu]
  · exact fun u hu => by simp [RelayDb.rollback, hu]
  · exact fun u hu => by simp [RelayDb.rollback, hu]
  · exact fun u _ id hid => by simp [RelayDb.rollback] at hid

/-- A statement fails. -/
theorem RelayInv.abort (h : RelayInv g phase) (t : T) :
    RelayInv { g with aborted := Function.update g.aborted t true }
      (Function.update phase t .broken) := by
  refine h.move (sound_broken (by simp)) (fun _ _ => rfl) (fun _ _ => rfl) ?_ (fun _ _ => rfl) ?_
    rfl rfl
  · exact fun u hu => by simp [hu]
  · exact fun u hu id => h.locks t u hu.symm id

/-- Only the queues change, or the deliveries of a transaction that has failed. -/
theorem RelayInv.aside (h : RelayInv g phase) (hph : ph' = phase t)
    (hdeliveries : phase t = .broken ∨ g'.deliveries.pending t = g.deliveries.pending t)
    (hne : ∀ u, u ≠ t → g'.deliveries.pending u = g.deliveries.pending u)
    (hcommitted : g'.deliveries.committed = g.deliveries.committed)
    (hevents : g'.events = g.events) (hlocks : g'.locks = g.locks)
    (haborted : g'.aborted = g.aborted) : RelayInv g' (Function.update phase t ph') := by
  subst hph
  refine h.move ?_ (fun _ _ => by rw [hevents]) hne (fun _ _ => by rw [haborted])
    (fun _ _ => by rw [hlocks]) (fun u hu id hid => ?_) (by rw [hevents]) hcommitted
  · rcases hdeliveries with hbroken | hsame
    · rw [hbroken]
      refine sound_broken ?_
      rw [haborted]
      exact (h.sound t).aborted.2 hbroken
    · exact (h.sound t).frame (by rw [hevents]) hsame (by rw [haborted]) (by rw [hlocks])
        fun e _ => by rw [RelayDb.event, RelayDb.event, hevents]
  · rw [hlocks] at hid
    exact h.locks t u hu.symm id hid

/-- A batch has claimed its events. -/
theorem RelayInv.claim (h : RelayInv g phase) (hph : phase t = .claiming) {limit : ℕ}
    {v : List OutboxEvent} (hv : g.Claims t limit v) :
    RelayInv { g with locks := Function.update g.locks t (v.map (·.id) ++ g.locks t) }
      (Function.update phase t (.working [] v)) := by
  have hsound := h.sound t
  rw [hph] at hsound
  have haborted : g.aborted t ≠ true := fun habort => nomatch hsound.aborted.1 habort
  obtain ⟨-, hnodup, -, hrows⟩ := hv
  have hmine : Batch.Sound
    { g with locks := Function.update g.locks t (v.map (·.id) ++ g.locks t) } t
      (.working [] v) := by
    refine ⟨iff_of_false haborted nofun, fun _ => hsound.rows nofun, fun _ =>
      hsound.deliveries nofun,
      fun e he => ?_, fun e he => ?_, hnodup, fun _ ho => absurd ho List.not_mem_nil⟩
    · have hlock : e.id ∈ v.map (·.id) ++ g.locks t :=
        List.mem_append_left _ (List.mem_map_of_mem he)
      simpa using hlock
    · -- the batch has written nothing yet, so what it sees is what is committed
      obtain ⟨hrow, hpending, -⟩ := hrows e he
      have hnone : g.events.pending t = [] := hsound.rows nofun
      rw [LogStore.visible, hnone] at hrow
      exact ⟨hrow, hpending⟩
  refine h.move hmine (fun _ _ => rfl) (fun _ _ => rfl) (fun _ _ => rfl) ?_ ?_ rfl rfl
  · exact fun u hu => by simp [hu]
  · intro u hu id hid
    have hid' : id ∈ v.map (·.id) ++ g.locks t := by simpa using hid
    rcases List.mem_append.1 hid' with hnew | hold
    · obtain ⟨e, he, rfl⟩ := List.mem_map.1 hnew
      exact (hrows e he).2.2.2 u hu
    · exact h.locks t u hu.symm id hold

/-- A batch has delivered an event. -/
theorem RelayInv.deliver (h : RelayInv g phase) {done : List Outcome} {e : OutboxEvent}
    {todo : List OutboxEvent} (hph : phase t = .working done (e :: todo)) (ok : Bool) :
    RelayInv { g with deliveries := g.deliveries.pushAll t [⟨e.id, ok⟩] }
      (Function.update phase t (.delivered done e ok todo)) := by
  have hsound := h.sound t
  rw [hph] at hsound
  have haborted : g.aborted t ≠ true := fun habort => nomatch hsound.aborted.1 habort
  have hdeliveries : g.deliveries.pending t = done.map (·.delivery) := hsound.deliveries nofun
  have hmine : Batch.Sound { g with deliveries := g.deliveries.pushAll t [⟨e.id, ok⟩] } t
      (.delivered done e ok todo) := by
    refine ⟨iff_of_false haborted nofun, fun _ => hsound.rows nofun, fun _ => ?_, hsound.locked,
      hsound.current, hsound.nodup, hsound.valid⟩
    simp [Batch.deliveries, hdeliveries]
  refine h.move hmine (fun _ _ => rfl) ?_ (fun _ _ => rfl) (fun _ _ => rfl) ?_ rfl rfl
  · exact fun u hu => LogStore.pushAll_pending_ne _ hu _
  · exact fun u hu => h.locks t u hu.symm

/-- A batch has marked the event that it has delivered. -/
theorem RelayInv.mark (h : RelayInv g phase) {done : List Outcome} {e : OutboxEvent} {ok : Bool}
    {todo : List OutboxEvent} (hph : phase t = .delivered done e ok todo)
    {set : OutboxEvent → OutboxEvent} (hvalid : Outcome.Valid ⟨e, ok, set e⟩) :
    RelayInv (g.write t e.id set)
      (Function.update phase t (.working (⟨e, ok, set e⟩ :: done) todo)) := by
  have hsound := h.sound t
  rw [hph] at hsound
  have hopen : Batch.delivered done e ok todo ≠ .broken := fun hbroken => by cases hbroken
  have haborted : g.aborted t ≠ true := fun habort => hopen (hsound.aborted.1 habort)
  have hrows : g.events.pending t = done.map (·.row) := hsound.rows hopen
  have hevents : (Batch.delivered done e ok todo).events = done.map (·.event) ++ e :: todo := rfl
  have hmem : e ∈ (Batch.delivered done e ok todo).events := by simp [hevents]
  have hperm : (Batch.working (⟨e, ok, set e⟩ :: done) todo).events.Perm
      (Batch.delivered done e ok todo).events := List.perm_middle.symm
  -- the rows that the batch has written are of other events
  have hother : ∀ r ∈ done.map (·.row), eventTable.key r ≠ e.id := by
    intro r hr heq
    obtain ⟨o, ho, rfl⟩ := List.mem_map.1 hr
    have hid : o.event.id = e.id := (hsound.valid o ho).id.symm.trans heq
    have hnd := hsound.nodup
    rw [hevents, List.map_append, List.nodup_append] at hnd
    refine hnd.2.2 o.event.id ?_ e.id ?_ hid
    · exact List.mem_map_of_mem (List.mem_map_of_mem ho)
    · exact List.mem_map_of_mem List.mem_cons_self
  have hrow : eventTable.row (g.events.visible t) e.id = some e := by
    rw [LogStore.visible, hrows, eventTable.row_append_of_ne hother]
    exact (hsound.current e hmem).1
  have hlock : e.id ∈ g.locks t := hsound.locked e hmem
  have hmine : Batch.Sound (g.write t e.id set) t (.working (⟨e, ok, set e⟩ :: done) todo) := by
    refine ⟨iff_of_false haborted fun hbroken => (by cases hbroken), fun _ => ?_,
      fun _ => hsound.deliveries hopen, fun f hf => ?_, fun f hf => ?_, ?_, ?_⟩
    · simp [RelayDb.write, hrow, hrows, Batch.done]
    · have hin : f.id ∈ g.locks t := hsound.locked f (hperm.subset hf)
      simp [RelayDb.write, hin]
    · exact hsound.current f (hperm.subset hf)
    · exact (hperm.map _).nodup_iff.2 hsound.nodup
    · exact List.forall_mem_cons.2 ⟨hvalid, hsound.valid⟩
  refine h.move hmine ?_ (fun _ _ => rfl) (fun _ _ => rfl) ?_ ?_ rfl rfl
  · exact fun u hu => LogStore.pushAll_pending_ne _ hu _
  · exact fun u hu => by simp [RelayDb.write, hu]
  · intro u hu id hid
    simp only [RelayDb.write, Function.update_self, List.mem_cons] at hid
    rcases hid with rfl | hid
    · exact h.locks t u hu.symm _ hlock
    · exact h.locks t u hu.symm id hid

/-- What a batch with outcomes `done` commits. -/
structure Commits (g g' : RelayDb T) (done : List Outcome) : Prop where
  events : g'.events.committed = done.map (·.row) ++ g.events.committed
  deliveries : g'.deliveries.committed = done.map (·.delivery) ++ g.deliveries.committed

/-- The events of the outcomes are distinct, pending and committed, and the rows are right. -/
structure Fresh (g : RelayDb T) (done : List Outcome) : Prop where
  nodup : (done.map (·.event.id)).Nodup
  current : ∀ o ∈ done, g.event o.event.id = some o.event ∧ o.event.status = .pending
  valid : ∀ o ∈ done, o.Valid

section Commits

variable {done : List Outcome}

omit [DecidableEq T] in
/-- An event without an outcome stays as it was. -/
theorem Commits.event_of_ne (hc : Commits g g' done) (hf : Fresh g done) {id : Uuid}
    (hid : ∀ o ∈ done, o.event.id ≠ id) : g'.event id = g.event id := by
  rw [RelayDb.event, hc.events, eventTable.row_append_of_ne]
  · rfl
  · intro r hr
    obtain ⟨o, ho, rfl⟩ := List.mem_map.1 hr
    rw [eventTable_key, (hf.valid o ho).id]
    exact hid o ho

omit [DecidableEq T] in
/-- An event with an outcome gets the row of that outcome. -/
theorem Commits.event_of_mem (hc : Commits g g' done) (hf : Fresh g done) {o : Outcome}
    (ho : o ∈ done) : g'.event o.event.id = some o.row := by
  have hkeys : (done.map (·.row)).map eventTable.key = done.map (·.event.id) := by
    rw [List.map_map]
    exact List.map_congr_left fun o ho => (hf.valid o ho).id
  have hnd : ((done.map (·.row)).map eventTable.key).Nodup := hkeys ▸ hf.nodup
  have hrow := eventTable.row_of_mem_nodup hnd (List.mem_map_of_mem ho) g.events.committed
  rw [eventTable_key, (hf.valid o ho).id] at hrow
  rw [RelayDb.event, hc.events]
  exact hrow

omit [DecidableEq T] in
/-- The committed rows go on agreeing with the committed deliveries. -/
theorem Commits.counts (hc : Commits g g' done) (hf : Fresh g done)
    (hcounts : ∀ id r, g.event id = some r → g.Counts r) {id : Uuid} {r : OutboxEvent}
    (hr : g'.event id = some r) : g'.Counts r := by
  have hrid : r.id = id := RelayDb.event_id hr
  -- the commit adds the deliveries of the batch to those before it
  have hfailures : ∀ id, g'.failures id =
      (done.map (·.delivery)).countP (fun d => d.id = id ∧ d.ok = false) + g.failures id := by
    intro id
    rw [RelayDb.failures, hc.deliveries, List.countP_append]
    rfl
  -- an event of the batch has one outcome, which counts once
  by_cases hid : ∃ o ∈ done, o.event.id = id
  · obtain ⟨o, ho, rfl⟩ := hid
    rw [hc.event_of_mem hf ho] at hr
    cases hr
    obtain ⟨hcurrent, hpending⟩ := hf.current o ho
    have hold := hcounts _ _ hcurrent
    have hbelow : o.event.attempts < outboxMaxAttempts := hold.alive (by simp [hpending])
    have hcount := hfailures o.event.id
    rw [countP_delivery hf.nodup ho] at hcount
    have hattempts := hold.attempts
    cases hok : o.ok with
    -- delivered: the attempts are as they were
    | true =>
      obtain ⟨hstatus, heq⟩ := (hf.valid o ho).ok hok
      simp only [hok, if_true, Nat.zero_add] at hcount
      refine ⟨?_, ?_, ?_, ?_⟩
      · rw [hrid, heq, hcount, hattempts]
      · simp [hstatus]
      · exact fun _ => heq ▸ hbelow
      · intro _
        have hmem : o.delivery ∈ done.map (·.delivery) := List.mem_map_of_mem ho
        rw [Outcome.delivery, hok] at hmem
        rw [hrid, hc.deliveries]
        exact List.mem_append_left _ hmem
    -- failed: one attempt more, and the event is dead from the limit on
    | false =>
      obtain ⟨heq, hstatus⟩ := (hf.valid o ho).failed hok
      simp only [hok] at hcount
      refine ⟨?_, ?_, ?_, ?_⟩
      · rw [hrid, heq, hcount, hattempts]
        simp [Nat.add_comm]
      · intro hdead
        rcases hstatus with ⟨-, hmax⟩ | ⟨hstatus, -⟩
        · omega
        · rw [hstatus] at hdead
          cases hdead
      · intro halive
        rcases hstatus with ⟨hstatus, -⟩ | ⟨-, hmax⟩
        · exact absurd hstatus halive
        · omega
      · intro hdispatched
        rcases hstatus with ⟨hstatus, -⟩ | ⟨hstatus, -⟩ <;> simp [hstatus] at hdispatched
  · -- an event of no outcome counts as before
    have hne : ∀ o ∈ done, o.event.id ≠ id := fun o ho heq => hid ⟨o, ho, heq⟩
    rw [hc.event_of_ne hf hne] at hr
    have hold := hcounts id r hr
    have hnone := countP_delivery_of_ne (hrid.symm ▸ hne : ∀ o ∈ done, o.event.id ≠ r.id)
    refine ⟨?_, hold.dead, hold.alive, fun hd => ?_⟩
    · rw [hfailures, hnone, Nat.zero_add]
      exact hold.attempts
    · rw [hc.deliveries]
      exact List.mem_append_right _ (hold.delivered hd)

omit [DecidableEq T] in
/-- No event disappears. -/
theorem Commits.event_isSome (hc : Commits g g' done) (hf : Fresh g done) {id : Uuid}
    (h : (g.event id).isSome) : (g'.event id).isSome := by
  by_cases hid : ∃ o ∈ done, o.event.id = id
  · obtain ⟨o, ho, rfl⟩ := hid
    rw [hc.event_of_mem hf ho]
    rfl
  · rw [hc.event_of_ne hf fun o ho heq => hid ⟨o, ho, heq⟩]
    exact h

end Commits

/-- A batch that has marked all its events commits. -/
theorem RelayInv.commit (h : RelayInv g phase) {done : List Outcome}
    (hph : phase t = .working done []) :
    Fresh g done ∧ Commits g (g.commit t) done ∧
      RelayInv (g.commit t) (Function.update phase t .idle) := by
  have hsound := h.sound t
  rw [hph] at hsound
  have haborted : g.aborted t = false := by
    rw [Bool.eq_false_iff]
    exact fun habort => nomatch hsound.aborted.1 habort
  have hrows : g.events.pending t = done.map (·.row) := hsound.rows nofun
  have hdeliveries : g.deliveries.pending t = done.map (·.delivery) := hsound.deliveries nofun
  have hheld : ∀ o ∈ done, o.event ∈ (Batch.working done []).events := fun o ho =>
    List.mem_append_left _ (List.mem_map_of_mem ho)
  have hfresh : Fresh g done := by
    refine ⟨?_, fun o ho => hsound.current _ (hheld o ho), hsound.valid⟩
    have hnd := hsound.nodup
    simpa [Batch.events, Function.comp_def] using hnd
  have heq : g.commit t =
      { g with events := g.events.commit t, deliveries := g.deliveries.commit t,
               locks := Function.update g.locks t [] } := by
    rw [RelayDb.commit, if_neg (by simp [haborted])]
  have hcommits : Commits g (g.commit t) done := by
    rw [heq]
    exact ⟨by rw [LogStore.commit_committed, hrows], by rw [LogStore.commit_committed, hdeliveries]⟩
  refine ⟨hfresh, hcommits, ?_, ?_, ?_, ?_⟩
  · intro u
    by_cases hut : u = t
    · subst hut
      rw [Function.update_self, heq]
      exact sound_idle haborted (LogStore.commit_pending_self _ _)
        (LogStore.commit_pending_self _ _)
    · rw [Function.update_of_ne hut]
      refine (h.sound u).frame ?_ ?_ ?_ ?_ fun e he => ?_
      · rw [heq]
        exact LogStore.commit_pending_ne _ hut
      · rw [heq]
        exact LogStore.commit_pending_ne _ hut
      · rw [heq]
      · simp [heq, hut]
      · -- `u` has locked the events it holds, so they are not among those of `t`
        refine hcommits.event_of_ne hfresh fun o ho hid => ?_
        have hlocked : e.id ∈ g.locks u := (h.sound u).locked e he
        have hlocked' : o.event.id ∈ g.locks t := hsound.locked _ (hheld o ho)
        exact h.locks t u (Ne.symm hut) _ hlocked' (hid ▸ hlocked)
  · intro u v huv id hu hv
    have hkeep : ∀ w, id ∈ (g.commit t).locks w → id ∈ g.locks w := by
      intro w hw
      by_cases hwt : w = t
      · subst hwt
        simp [heq] at hw
      · simpa [heq, hwt] using hw
    exact h.locks u v huv id (hkeep u hu) (hkeep v hv)
  · exact fun id r => hcommits.counts hfresh h.counts
  · intro d hd
    rw [hcommits.deliveries, List.mem_append] at hd
    rcases hd with hnew | hold
    · obtain ⟨o, ho, rfl⟩ := List.mem_map.1 hnew
      change ((g.commit t).event o.event.id).isSome
      rw [hcommits.event_of_mem hfresh ho]
      rfl
    · exact hcommits.event_isSome hfresh (h.known d hold)

/-- A statement that fails ends the transaction, or leaves it broken. -/
theorem RelayInv.fails (h : RelayInv g phase) {s : RelayStatement}
    (hallow : batch.allows (phase t) s) (hon : RelayDb.onConnection s = true) (code : SqlState) :
    RelayInv (g.abort t s) (Function.update phase t (batch.next (phase t) s (.error code))) := by
  -- a failed `COMMIT` ends the transaction as a `ROLLBACK` does
  by_cases hends : s = .commit ∨ s = .rollback
  · have hnext : batch.next (phase t) s (.error code) = .idle := by
      rcases hends with rfl | rfl <;> cases phase t <;> rfl
    have heffect : g.abort t s = g.rollback t := by rcases hends with rfl | rfl <;> rfl
    rw [hnext, heffect]
    exact h.rollback t
  · have hnext : batch.next (phase t) s (.error code) = .broken := by
      cases hph : phase t <;> rw [hph] at hallow <;> cases s <;> first
        | rfl
        | exact hallow.elim
        | exact absurd hon Bool.false_ne_true
        | exact absurd (by simp) hends
    -- any other failure leaves the transaction aborted
    have heffect : g.abort t s = { g with aborted := Function.update g.aborted t true } := by
      cases s <;> first
        | rfl
        | exact absurd (by simp) hends
    rw [hnext, heffect]
    exact h.abort t

/-- One statement of a batch keeps the outbox in order. -/
theorem RelayInv.statement (h : RelayInv g phase) {s : RelayStatement}
    {x : Except SqlState s.Result} (hallow : batch.allows (phase t) s) (hx : g.possible t s x) :
    RelayInv (g.effect t s x) (Function.update phase t (batch.next (phase t) s x)) := by
  rcases x with code | v
  · exact h.fails hallow hx code
  obtain ⟨halive, hv⟩ := hx
  have hsame : ∀ {ph}, ph = phase t → RelayInv g (Function.update phase t ph) := by
    rintro _ rfl
    rw [Function.update_eq_self]
    exact h
  cases hph : phase t with
  | idle =>
    rw [hph] at hallow
    cases s with
    | process job => exact h.aside hph.symm (.inr rfl) (fun _ _ => rfl) rfl rfl rfl rfl
    | rollback => exact h.rollback t
    | _ => exact hallow.elim
  | claiming =>
    rw [hph] at hallow
    cases s with
    | claimBatch limit => exact h.claim hph hv
    | _ => exact hallow.elim
  | working done todo =>
    rw [hph] at hallow
    cases todo with
    | nil =>
      cases s with
      | commit => exact (h.commit hph).2.2
      | _ => exact hallow.elim
    | cons e todo =>
      cases s with
      | deliver e' =>
        obtain rfl : e' = e := hallow
        exact h.deliver hph v.isOk
      | _ => exact hallow.elim
  | delivered done e ok todo =>
    rw [hph] at hallow
    cases ok with
    | true =>
      cases s with
      | setDispatched id =>
        obtain rfl : id = e.id := hallow
        exact h.mark hph ⟨rfl, fun _ => ⟨rfl, rfl⟩, nofun⟩
      | _ => exact hallow.elim
    | false =>
      cases s with
      | now => exact hsame hph.symm
      | setDead id attempts =>
        obtain ⟨rfl, rfl, hmax⟩ := hallow
        let set : OutboxEvent → OutboxEvent := fun e' =>
          { e' with attempts := e.attempts + 1, status := .dead }
        have hvalid : Outcome.Valid ⟨e, false, set e⟩ :=
          ⟨rfl, nofun, fun _ => ⟨rfl, .inl ⟨rfl, hmax⟩⟩⟩
        exact h.mark hph hvalid
      | setRetry id attempts availableAt =>
        obtain ⟨rfl, rfl, hmax⟩ := hallow
        have hheld : e ∈ (phase t).events := by simp [hph, Batch.events]
        have hpending : e.status = .pending := ((h.sound t).current e hheld).2
        let set : OutboxEvent → OutboxEvent := fun e' =>
          { e' with attempts := e.attempts + 1, availableAt }
        have hvalid : Outcome.Valid ⟨e, false, set e⟩ :=
          ⟨rfl, nofun, fun _ => ⟨rfl, .inr ⟨hpending, hmax⟩⟩⟩
        exact h.mark hph hvalid
      | _ => exact hallow.elim
  | broken =>
    -- the transaction is aborted, so no statement on its table succeeds any more
    have haborted : g.aborted t = true := (h.sound t).aborted.2 hph
    have hruns := halive haborted
    cases s with
    | claimBatch | setDispatched | setDead | setRetry => cases hruns
    | commit =>
      have heffect : g.commit t = g.rollback t := by rw [RelayDb.commit, if_pos haborted]
      change RelayInv (g.commit t) _
      rw [heffect]
      exact h.rollback t
    | rollback => exact h.rollback t
    | deliver e =>
      exact h.aside hph.symm (.inl hph)
        (fun u hu => LogStore.pushAll_pending_ne _ hu _) rfl rfl rfl rfl
    | add job =>
      have hqueues : ∀ qs, RelayInv { g with queues := qs } (Function.update phase t .broken) :=
        fun qs => h.aside hph.symm (.inr rfl) (fun _ _ => rfl) rfl rfl rfl rfl
      rcases v with _ | stored
      · exact hqueues _
      · cases stored
        · exact hqueues g.queues
        · exact hqueues _
    | process job => exact h.aside hph.symm (.inr rfl) (fun _ _ => rfl) rfl rfl rfl rfl
    | now => exact hsame hph.symm

omit [DecidableEq T] in
/-- Time passes, or another transaction commits a new event. -/
theorem RelayInv.env (h : RelayInv g phase) (henv : g.Env g') : RelayInv g' phase := by
  rcases henv with ⟨e, hnew, hpending, hattempts, rfl⟩ | ⟨clock, -, rfl⟩
  · -- nothing is known of the new event yet
    have hnone : g.event e.id = none := eventTable.row_of_ne hnew
    have hold : ∀ id r, g.event id = some r →
        eventTable.row (e :: g.events.committed) id = some r := by
      intro id r hr
      have hne : e.id ≠ id := by
        rintro rfl
        rw [hnone] at hr
        cases hr
      rw [eventTable.row_cons_ne hne]
      exact hr
    refine ⟨fun t => ?_, h.locks, fun id r hr => ?_, fun d hd => ?_⟩
    · refine (h.sound t).frame rfl rfl rfl rfl fun f hf => ?_
      have hcurrent := ((h.sound t).current f hf).1
      rw [hcurrent]
      exact hold _ _ hcurrent
    · change eventTable.row (e :: g.events.committed) id = some r at hr
      rw [Table.row_cons] at hr
      split at hr
      · obtain rfl : e = r := Option.some.inj hr
        have hzero : g.failures e.id = 0 := by
          rw [RelayDb.failures, List.countP_eq_zero]
          intro d hd hfailed
          have hknown := h.known d hd
          rw [(of_decide_eq_true hfailed).1, hnone] at hknown
          cases hknown
        refine ⟨?_, ?_, ?_, ?_⟩
        · exact hattempts.trans hzero.symm
        · simp [hpending]
        · simp [hattempts, outboxMaxAttempts]
        · simp [hpending]
      · exact (h.counts id r hr).congr rfl
    · obtain ⟨r, hr⟩ := Option.isSome_iff_exists.1 (h.known d hd)
      exact Option.isSome_iff_exists.2 ⟨r, hold _ _ hr⟩
  · exact ⟨fun t => (h.sound t).frame rfl rfl rfl rfl fun _ _ => rfl, h.locks,
      fun id r hr => (h.counts id r hr).congr rfl, h.known⟩

/-- A relay or a worker starts. -/
theorem RelayInv.start (h : RelayInv g phase) (hph : phase t = .idle) (q : RelayJob) :
    RelayInv g (Function.update phase t (Batch.start q)) := by
  have hsound := h.sound t
  rw [hph] at hsound
  have haborted : g.aborted t ≠ true := fun habort => nomatch hsound.aborted.1 habort
  have hmine : (Batch.start q).Sound g t := by
    cases q with
    | work job => exact hsound
    | batch batchSize =>
      exact ⟨iff_of_false haborted nofun, fun _ => hsound.rows nofun,
        fun _ => hsound.deliveries nofun, fun _ he => absurd he List.not_mem_nil,
        fun _ he => absurd he List.not_mem_nil, List.nodup_nil, fun _ ho =>
          absurd ho List.not_mem_nil⟩
  exact h.move hmine (fun _ _ => rfl) (fun _ _ => rfl) (fun _ _ => rfl) (fun _ _ => rfl)
    (fun u hu => h.locks t u hu.symm) rfl rfl

omit [DecidableEq T] in
/-- Recorded events are in order before any relay has started. -/
theorem RelayDb.Initial.relayInv (h : g.Initial) : RelayInv g fun _ => .idle where
  sound t := by
    refine sound_idle (h.aborted t) (h.pending t) ?_
    rw [h.deliveries]
    rfl
  locks t _ _ _ hid := by
    rw [h.locks] at hid
    cases hid
  counts id r hr := by
    have hmem : r ∈ g.events.committed := by
      rcases eventTable.row_eq_some hr with ⟨e, he, -, rfl⟩ | hbase
      · exact he
      · cases hbase
    obtain ⟨hpending, hattempts⟩ := h.recorded r hmem
    -- nothing has been delivered, and no attempt has been counted
    have hzero : g.failures r.id = 0 := by
      rw [RelayDb.failures, h.deliveries]
      rfl
    refine ⟨hattempts.trans hzero.symm, ?_, ?_, ?_⟩
    · simp [hpending]
    · simp [hattempts, outboxMaxAttempts]
    · simp [hpending]
  known d hd := by
    rw [h.deliveries] at hd
    cases hd

/-- What one statement does to the committed events: a batch commits its outcomes, and no
other statement changes them. -/
theorem RelayInv.committed (h : RelayInv g phase) {s : RelayStatement}
    {x : Except SqlState s.Result} (hallow : batch.allows (phase t) s) :
    (∃ done, (⟨s, x⟩ : (s : RelayStatement) × Except SqlState s.Result) = ⟨.commit, .ok ()⟩ ∧
      phase t = .working done [] ∧ Fresh g done ∧ Commits g (g.effect t s x) done) ∨
    (g.effect t s x).events.committed = g.events.committed := by
  rcases x with code | v
  · right
    cases s <;> rfl
  · cases s with
    | commit =>
      cases hph : phase t with
      -- a batch commits when no event is left to do
      | working done todo =>
        rw [hph] at hallow
        cases todo with
        | nil =>
          obtain ⟨hfresh, hcommits, -⟩ := h.commit hph
          exact .inl ⟨done, rfl, rfl, hfresh, hcommits⟩
        | cons e todo => exact hallow.elim
      -- the `COMMIT` of an aborted transaction commits nothing
      | broken =>
        right
        have haborted : g.aborted t = true := (h.sound t).aborted.2 hph
        change (g.commit t).events.committed = g.events.committed
        rw [RelayDb.commit, if_pos haborted]
        rfl
      | delivered done e ok todo =>
        rw [hph] at hallow
        cases ok <;> exact hallow.elim
      | idle | claiming =>
        rw [hph] at hallow
        exact hallow.elim
    | add job =>
      right
      rcases v with _ | stored
      · rfl
      · cases stored <;> rfl
    | _ =>
      right
      rfl

end Step

end BookingPlatform
