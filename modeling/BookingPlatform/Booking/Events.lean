import BookingPlatform.Booking.Replay
import BookingPlatform.Booking.Specs
import BookingPlatform.Booking.Writes
import Mathlib.Data.List.Forall2

/-!
# Every Change Has Its Event

Each write of a booking row is followed, in the same transaction, by one outbox event
that describes it. A transaction commits only when its uncommitted writes and its
uncommitted events match one to one, and a savepoint rollback undoes both.

## Main results

- `follows_emits`: every request keeps to this discipline.
- `committed_events`: in every committed state the events of a booking are its changes,
  one for each version.
-/

namespace BookingPlatform

open Library TenantM

/-- The event type that names a change. -/
def ChangeKind.eventType : ChangeKind → String
  | created => "booking.created"
  | status target => "booking." ++ target.value
  | rescheduled => "booking.rescheduled"

/-- Event `e` describes change `c`: it is about that booking, names the change, and its
payload is that of the row right after it. -/
structure Describes (e : OutboxEvent) (c : BookingChange) : Prop where
  aggregateType : e.aggregateType = "booking"
  aggregateId : e.aggregateId = c.row.id
  eventType : e.eventType = c.kind.eventType
  payload : e.payload = BookingService.payload c.row

theorem describes_of_input {e : OutboxEvent} {c : BookingChange} {eventType : String}
    (h : e.toRecordEventInput =
      { aggregateType := "booking", aggregateId := c.row.id, eventType,
        payload := BookingService.payload c.row })
    (htype : eventType = c.kind.eventType) : Describes e c where
  aggregateType := by rw [h]
  aggregateId := by rw [h]
  eventType := by rw [h, htype]
  payload := by rw [h]

/-! ## The discipline -/

/-- The uncommitted booking writes and events of a transaction, newest first, and its
savepoints: index, number of writes, number of events. -/
structure Pending where
  changes : List BookingChange
  events : List OutboxEvent
  marks : List (ℕ × ℕ × ℕ)

namespace Pending

def empty : Pending := ⟨[], [], []⟩

/-- Every uncommitted write has its event. -/
def Matched (ph : Pending) : Prop := List.Forall₂ Describes ph.events ph.changes

/-- The transaction writes `cs`, in this order. -/
def write (ph : Pending) (cs : List BookingChange) : Pending :=
  { ph with changes := cs.reverse ++ ph.changes }

/-- Set savepoint `i`. -/
def mark (ph : Pending) (i : ℕ) : Pending :=
  { ph with marks := (i, ph.changes.length, ph.events.length) :: ph.marks }

/-- Return to savepoint `i`. -/
def rollbackTo (ph : Pending) (i : ℕ) : Pending :=
  match ph.marks.dropWhile (·.1 ≠ i) with
  | [] => ph
  | m :: ms =>
    { changes := ph.changes.drop (ph.changes.length - m.2.1)
      events := ph.events.drop (ph.events.length - m.2.2)
      marks := m :: ms }

/-- `ph'` has all the writes and events of `ph`, and possibly newer ones. -/
structure Extends (ph ph' : Pending) : Prop where
  changes : ph.changes <:+ ph'.changes
  events : ph.events <:+ ph'.events
  marks : ph'.marks = ph.marks

theorem Extends.refl (ph : Pending) : ph.Extends ph := ⟨List.suffix_rfl, List.suffix_rfl, rfl⟩

theorem Extends.write {ph ph' : Pending} (h : ph.Extends ph') (cs : List BookingChange) :
    ph.Extends (ph'.write cs) :=
  ⟨h.changes.trans (List.suffix_append _ _), h.events, h.marks⟩

theorem Extends.event {ph ph' : Pending} (h : ph.Extends ph') (e : OutboxEvent) :
    ph.Extends { ph' with events := e :: ph'.events } :=
  ⟨h.changes, h.events.trans (List.suffix_cons _ _), h.marks⟩

/-- Returning to a savepoint set in `ph` restores the writes and events of `ph`. -/
theorem Extends.rollbackTo {ph ph' : Pending} {i : ℕ} (h : (ph.mark i).Extends ph') :
    (ph'.rollbackTo i).changes = ph.changes ∧ (ph'.rollbackTo i).events = ph.events := by
  obtain ⟨⟨l, hl⟩, ⟨m, hm⟩, hmarks⟩ := h
  simp only [mark] at hl hm hmarks
  simp [Pending.rollbackTo, hmarks, ← hl, ← hm]

end Pending

/-- The discipline of committing only matched writes and events. What a program may count
on: it sees its own newest write of a booking, an update writes only the booking it names,
a series cancellation writes no booking twice, and an event is recorded as given. -/
def emits : Protocol Sql Pending where
  allows ph s := match s with
    | .commit => ph.Matched
    | _ => True
  answers ph s r := match s, r with
    | .findBooking _ id, .ok (some b) =>
      ∀ c, ph.changes.find? (·.row.id = id) = some c → b = c.row
    | .updateStatus _ id _ _, .ok rows => ∀ r ∈ rows, rows = [r] ∧ r.id = id
    | .updateTimes _ id _ _ _, .ok rows => ∀ r ∈ rows, rows = [r] ∧ r.id = id
    | .cancelSeries _ _ _, .ok rows => (rows.map (·.id)).Nodup
    | .insertEvent _ input, .ok e => e.toRecordEventInput = input
    | _, _ => True
  next ph s r := match s, r with
    | .insertBooking _, .ok v => ph.write [⟨.created, v⟩]
    | .updateStatus _ _ _ status, .ok rows => ph.write (rows.map (⟨.status status, ·⟩))
    | .updateTimes _ _ _ _ _, .ok rows => ph.write (rows.map (⟨.rescheduled, ·⟩))
    | .cancelSeries _ _ _, .ok rows => ph.write (rows.map (⟨.status .cancelled, ·⟩))
    | .insertEvent _ _, .ok e => { ph with events := e :: ph.events }
    | .savepoint i, .ok _ => ph.mark i
    | .releaseSavepoint i, .ok _ => { ph with marks := (ph.marks.dropWhile (·.1 ≠ i)).tail }
    | .rollbackToSavepoint i, .ok _ => ph.rollbackTo i
    | .commit, _ => .empty
    | .rollback, _ => .empty
    | _, _ => ph

/-- A program that returns leaves no write without its event. -/
def returnsMatched {α : Type} : Pending → Except Thrown α → Prop
  | ph, .ok _ => Pending.Matched ph
  | _, .error _ => True

variable {α β : Type} {ph : Pending}

theorem returnsMatched_bind {p : TenantM α} {f : α → TenantM β}
    (hp : p.Follows emits returnsMatched ph)
    (hf : ∀ a (ph : Pending), ph.Matched → (f a).Follows emits returnsMatched ph) :
    (p >>= f).Follows emits returnsMatched ph :=
  Prog.follows_bind.2 <| hp.mono fun ph' r h => match r, h with
    | .ok a, h => hf a ph' h
    | .error _, _ => trivial

/-- A statement that writes no booking and no event. -/
theorem returnsMatched_read {s : Statement} (h : ∀ ph r, emits.next ph s r = ph)
    (hallow : emits.allows ph s) (hph : ph.Matched) :
    (exec s).Follows emits returnsMatched ph :=
  follows_exec.2 ⟨hallow, fun r _ => by
    rw [h]
    rcases r with c | v
    · trivial
    · exact hph⟩

/-! ## Lookups -/

theorem getService_emits (tenantId id : Uuid) (hph : ph.Matched) :
    (getService tenantId id).Follows emits returnsMatched ph := by
  rw [follows_getService]
  exact ⟨trivial, fun r _ => by rcases r with c | _ | v <;> trivial⟩

theorem canPerform_emits (tenantId staffId serviceId : Uuid) (hph : ph.Matched) :
    (canPerform tenantId staffId serviceId).Follows emits returnsMatched ph := by
  rw [follows_canPerform]
  exact ⟨trivial, fun r _ => by rcases r with c | v <;> trivial⟩

theorem getCustomer_emits (tenantId id : Uuid) (hph : ph.Matched) :
    (getCustomer tenantId id).Follows emits returnsMatched ph := by
  rw [follows_getCustomer]
  exact ⟨trivial, fun r _ => by rcases r with c | _ | v <;> trivial⟩

theorem getTenant_emits (id : Uuid) (hph : ph.Matched) :
    (getTenant id).Follows emits returnsMatched ph := by
  rw [follows_getTenant]
  exact ⟨trivial, fun r _ => by rcases r with c | _ | v <;> trivial⟩

theorem getOrThrow_emits (tenantId id : Uuid) (hph : ph.Matched) :
    (BookingService.getOrThrow tenantId id).Follows emits returnsMatched ph := by
  rw [follows_getOrThrow]
  exact ⟨trivial, fun r _ => by rcases r with c | _ | v <;> trivial⟩

/-! ## Changes of one booking -/

/-- Reading back the booking just changed and emitting its event leaves no write without
its event. -/
theorem emit_updated {tenantId : Uuid} {eventType : String} {c : BookingChange}
    (htype : eventType = c.kind.eventType) (hph : ph.Matched) :
    (do
      let updated ← BookingService.getOrThrow tenantId c.row.id
      let _ ← BookingService.emit tenantId updated eventType
      return updated : TenantM Booking).Follows emits returnsMatched (ph.write [c]) := by
  simp only [Prog.follows_bind, follows_getOrThrow]
  refine ⟨trivial, fun r hr => ?_⟩
  rcases r with code | _ | b
  · trivial
  · trivial
  · -- the booking read is the row just written
    obtain rfl : b = c.row := hr c (by simp [Pending.write])
    simp only [follows_emit]
    refine ⟨trivial, fun r hr => ?_⟩
    rcases r with code | e
    · trivial
    · exact List.Forall₂.cons (describes_of_input hr htype) hph

theorem transition_emits (tenantId id : Uuid) (version : ℤ) (target : BookingStatus)
    (hph : ph.Matched) :
    (BookingService.transition tenantId id version target).Follows emits returnsMatched ph := by
  unfold BookingService.transition
  refine returnsMatched_bind (getOrThrow_emits _ _ hph) fun booking ph hph => ?_
  split
  · trivial
  · simp only [Prog.follows_bind, follows_applyStatus]
    refine ⟨trivial, fun r hr => ?_⟩
    rcases r with code | - | ⟨r, rows⟩
    · trivial
    · trivial
    · obtain ⟨hone, rfl⟩ := hr r List.mem_cons_self
      rw [hone]
      exact emit_updated (c := ⟨.status target, r⟩) rfl hph

theorem reschedule_emits (rt : Runtime) (tenantId id : Uuid) (dto : RescheduleBookingDto)
    (ifMatch : Option ℤ) (hph : ph.Matched) :
    (BookingService.reschedule rt tenantId id dto ifMatch).Follows emits returnsMatched ph := by
  unfold BookingService.reschedule
  split
  · trivial
  · refine returnsMatched_bind (getOrThrow_emits _ _ hph) fun booking ph hph => ?_
    split
    · trivial
    · refine returnsMatched_bind (getService_emits _ _ hph) fun service ph hph => ?_
      simp only [Prog.follows_bind, follows_applyReschedule]
      refine ⟨trivial, fun r hr => ?_⟩
      rcases r with code | - | ⟨r, rows⟩
      · trivial
      · trivial
      · -- one row was met, and its event is recorded with the row as it became
        obtain ⟨hone, rfl⟩ := hr r List.mem_cons_self
        rw [hone]
        exact emit_updated (c := ⟨.rescheduled, r⟩) rfl hph

/-! ## Inserts -/

/-- Where an insert with its event can end from `ph`: on return one write and its event
are added, and on an error nothing of `ph` is lost. -/
def inserted {α : Type} (ph : Pending) (ph' : Pending) : Except Thrown α → Prop
  | .ok _ => ph.Extends ph' ∧ (ph.Matched → ph'.Matched)
  | .error _ => ph.Extends ph'

theorem createThenEmit {data : BookingData} {tenantId : Uuid} :
    (do
      let booking ← BookingRepository.create data
      let _ ← BookingService.emit tenantId booking "booking.created"
      return booking : TenantM Booking).Follows emits (inserted ph) ph := by
  simp only [Prog.follows_bind, follows_bookingCreate]
  refine ⟨trivial, fun r _ => ?_⟩
  rcases r with code | b
  · exact .refl ph
  · simp only [follows_emit]
    refine ⟨trivial, fun r hr => ?_⟩
    rcases r with code | e
    · exact (Pending.Extends.refl ph).write [⟨.created, b⟩]
    · refine ⟨((Pending.Extends.refl ph).write [⟨.created, b⟩]).event e, fun hph => ?_⟩
      exact List.Forall₂.cons (describes_of_input (c := ⟨.created, b⟩) hr rfl) hph

theorem createOccurrence_emits (ph : Pending) (tenantId : Uuid) (spec : OccurrenceSpec)
    (recurrenceId : Uuid) :
    (BookingService.createOccurrence tenantId spec recurrenceId).Follows emits (inserted ph) ph :=
  createThenEmit

theorem doCreate_emits (rt : Runtime) (tenantId : Uuid) (dto : CreateBookingDto)
    (hph : ph.Matched) :
    (BookingService.doCreate rt tenantId dto).Follows emits returnsMatched ph := by
  unfold BookingService.doCreate
  refine returnsMatched_bind (getService_emits _ _ hph) fun service ph hph => ?_
  refine returnsMatched_bind (canPerform_emits _ _ _ hph) fun can ph hph => ?_
  split
  · trivial
  · refine returnsMatched_bind (getCustomer_emits _ _ hph) fun customer ph hph => ?_
    refine createThenEmit.mono fun ph' r h => ?_
    rcases r with e | b
    · trivial
    · exact h.2 hph

theorem create_emits (rt : Runtime) (tenantId : Uuid) (dto : CreateBookingDto)
    (key : Option String) (hph : ph.Matched) :
    (BookingService.create rt tenantId dto key).Follows emits returnsMatched ph := by
  unfold BookingService.create IdempotencyService.run
  split
  · exact returnsMatched_bind (doCreate_emits rt tenantId dto hph) fun _ _ hph => hph
  · refine returnsMatched_bind (returnsMatched_read (fun ph r => by cases r <;> rfl) trivial hph)
      fun claimed ph hph => ?_
    -- a key that is taken is looked up, and nothing is written
    rcases claimed with - | claimed
    · refine returnsMatched_bind
        (returnsMatched_read (fun ph r => by cases r <;> rfl) trivial hph)
        fun existing ph hph => ?_
      rcases existing with - | existing
      · trivial
      · dsimp only
        split
        · trivial
        · split
          · trivial
          · exact hph
    · -- a key that is free: the booking with its event, and the answer is stored
      refine returnsMatched_bind (doCreate_emits rt tenantId dto hph) fun result ph hph => ?_
      exact returnsMatched_bind
        (returnsMatched_read (fun ph r => by cases r <;> rfl) trivial hph) fun _ _ hph => hph

/-! ## Series -/

theorem allOrNothing_emits (tenantId : Uuid) (spec : Instant → OccurrenceSpec)
    (recurrenceId : Uuid) (occurrences created : List Instant) (hph : ph.Matched) :
    (RecurrenceService.allOrNothing tenantId spec recurrenceId occurrences created).Follows
      emits returnsMatched ph := by
  induction occurrences generalizing created ph with
  | nil => exact hph
  | cons startsAt occurrences ih =>
    refine returnsMatched_bind ?_ fun _ _ hph => ih _ hph
    refine (createOccurrence_emits ph tenantId (spec startsAt) recurrenceId).mono fun ph' r h => ?_
    rcases r with e | b
    · trivial
    · exact h.2 hph

/-- An occurrence that conflicts leaves the writes and events as they were at its
savepoint. -/
theorem tryOccurrence_emits (tenantId : Uuid) (spec : OccurrenceSpec) (recurrenceId : Uuid)
    (i : ℕ) (hph : ph.Matched) :
    (RecurrenceService.tryOccurrence tenantId spec recurrenceId i).Follows
      emits returnsMatched ph := by
  -- an error after the savepoint is answered by returning to it
  have hback : ∀ (error : Thrown) (ph' : Pending), (ph.mark i).Extends ph' →
      (do
        exec (.rollbackToSavepoint i)
        if !BookingService.isSlotTaken error then .raise error else return false :
          TenantM Bool).Follows emits returnsMatched ph' := by
    intro error ph' hext
    refine Prog.follows_bind.2 (follows_exec.2 ⟨trivial, fun r _ => ?_⟩)
    rcases r with code | _
    · trivial
    · dsimp only
      split
      · trivial
      · have hundo := hext.rollbackTo
        show List.Forall₂ Describes (ph'.rollbackTo i).events (ph'.rollbackTo i).changes
        rw [hundo.1, hundo.2]
        exact hph
  refine Prog.follows_bind.2 (follows_exec.2 ⟨trivial, fun r _ => ?_⟩)
  rcases r with code | _
  · trivial
  · refine Prog.follows_tryCatch.2 (Prog.follows_bind.2 ?_)
    refine (createOccurrence_emits (ph.mark i) tenantId spec recurrenceId).mono
      fun ph' r h => ?_
    rcases r with e | b
    · exact hback e ph' h
    · refine Prog.follows_bind.2 (follows_exec.2 ⟨trivial, fun r _ => ?_⟩)
      rcases r with code | _
      · exact hback _ ph' h.1
      · exact h.2 hph

theorem skipConflicts_emits (tenantId : Uuid) (spec : Instant → OccurrenceSpec)
    (recurrenceId : Uuid) (i : ℕ) (occurrences created skipped : List Instant)
    (hph : ph.Matched) :
    (RecurrenceService.skipConflicts tenantId spec recurrenceId i occurrences created
      skipped).Follows emits returnsMatched ph := by
  induction occurrences generalizing i created skipped ph with
  | nil => exact hph
  | cons startsAt occurrences ih =>
    refine returnsMatched_bind (tryOccurrence_emits tenantId _ recurrenceId i hph)
      fun done ph hph => ?_
    split
    · exact ih _ _ _ hph
    · exact ih _ _ _ hph

theorem recurrenceCreate_emits (rt : Runtime) (tenantId : Uuid) (dto : CreateRecurrenceDto)
    (hph : ph.Matched) :
    (RecurrenceService.create rt tenantId dto).Follows emits returnsMatched ph := by
  unfold RecurrenceService.create
  -- both policies write a booking and its event together
  split
  · trivial
  · refine returnsMatched_bind (getService_emits _ _ hph) fun service ph hph => ?_
    refine returnsMatched_bind (canPerform_emits _ _ _ hph) fun can ph hph => ?_
    split
    · trivial
    · refine returnsMatched_bind (getCustomer_emits _ _ hph) fun customer ph hph => ?_
      refine returnsMatched_bind (getTenant_emits _ hph) fun tenant ph hph => ?_
      dsimp only
      split
      · trivial
      · refine returnsMatched_bind
          (returnsMatched_read (fun ph r => by cases r <;> rfl) trivial hph)
          fun recurrence ph hph => ?_
        split
        · exact returnsMatched_bind (allOrNothing_emits tenantId _ _ _ _ hph)
            fun _ _ hph => hph
        · exact returnsMatched_bind (skipConflicts_emits tenantId _ _ _ _ _ _ hph)
            fun _ _ hph => hph

/-- Among the writes of a series cancellation, the newest write of a booking is its own. -/
theorem find_cancelled {rows : List Booking} (hnd : (rows.map (·.id)).Nodup) {r : Booking}
    (hr : r ∈ rows) (older : List BookingChange) :
    ((rows.map (BookingChange.mk (.status .cancelled))).reverse ++ older).find?
      (·.row.id = r.id) = some ⟨.status .cancelled, r⟩ := by
  rw [List.find?_append]
  suffices h : ((rows.map (BookingChange.mk (.status .cancelled))).reverse).find?
      (·.row.id = r.id) = some ⟨.status .cancelled, r⟩ by rw [h, Option.some_or]
  have hmem : (⟨.status .cancelled, r⟩ : BookingChange) ∈
      (rows.map (BookingChange.mk (.status .cancelled))).reverse := by
    simpa using hr
  -- some write of the cancellation has the id, and the ids are distinct
  obtain ⟨c, hc⟩ := Option.isSome_iff_exists.1
    (List.find?_isSome (p := fun c : BookingChange => decide (c.row.id = r.id)) |>.2
      ⟨_, hmem, by simp⟩)
  have hid : c.row.id = r.id := by simpa using List.find?_some hc
  have hcmem := List.mem_of_find?_eq_some hc
  rw [List.mem_reverse, List.mem_map] at hcmem
  obtain ⟨r', hr', rfl⟩ := hcmem
  rw [hc, List.inj_on_of_nodup_map hnd hr' hr hid]

/-- The loop over a cancelled series: `done` is what has its event already, `todo` what
has not. -/
theorem emitCancelled_emits (tenantId : Uuid) {rows : List Booking}
    (hnd : (rows.map (·.id)).Nodup) {older : Pending} (holder : older.Matched)
    (done todo : List Booking) (hrows : rows = done ++ todo)
    (hchanges : ph.changes =
      (rows.map (BookingChange.mk (.status .cancelled))).reverse ++ older.changes)
    (es : List OutboxEvent) (hevents : ph.events = es ++ older.events)
    (hes : List.Forall₂ Describes es (done.map (BookingChange.mk (.status .cancelled))).reverse) :
    (BookingService.emitCancelled tenantId (todo.map (·.id))).Follows
      emits returnsMatched ph := by
  induction todo generalizing done es ph with
  | nil =>
    show List.Forall₂ Describes ph.events ph.changes
    rw [List.append_nil] at hrows
    rw [hevents, hchanges, hrows]
    exact List.rel_append hes holder
  | cons r todo ih =>
    have hr : r ∈ rows := by simp [hrows]
    refine Prog.follows_bind.2 ((follows_getOrThrow).2 ⟨trivial, fun a ha => ?_⟩)
    rcases a with code | _ | b
    · trivial
    · trivial
    · -- the booking read is the row this loop is at
      obtain rfl : b = r := ha ⟨.status .cancelled, r⟩ (by
        rw [hchanges]
        exact find_cancelled hnd hr _)
      refine Prog.follows_bind.2 (follows_emit.2 ⟨trivial, fun a ha => ?_⟩)
      rcases a with code | e
      · trivial
      · refine ih (done ++ [b]) (by simp [hrows]) hchanges (e :: es) ?_ ?_
        · show e :: ph.events = _
          rw [hevents, List.cons_append]
        · rw [List.map_append, List.reverse_append]
          exact List.Forall₂.cons (describes_of_input ha rfl) hes

theorem cancelSeries_emits (tenantId recurrenceId : Uuid) (hph : ph.Matched) :
    (RecurrenceService.cancelSeries tenantId recurrenceId).Follows emits returnsMatched ph := by
  refine returnsMatched_bind (returnsMatched_read (fun ph r => by cases r <;> rfl) trivial hph)
    fun now ph hph => ?_
  refine Prog.follows_bind.2 (follows_cancelFutureSeries.2 ⟨trivial, fun r hr => ?_⟩)
  rcases r with code | rows
  · trivial
  · refine returnsMatched_bind ?_ fun _ _ hph => hph
    exact emitCancelled_emits tenantId hr hph [] rows rfl rfl [] rfl .nil

/-! ## Requests -/

/-- Every request commits only if each of its writes has its event. -/
theorem follows_emits (rt : Runtime) (q : Request) :
    (handle rt q).Follows emits anyEnd .empty := by
  have hph : Pending.empty.Matched := List.Forall₂.nil
  -- what is returned has been matched, and `COMMIT` comes after a return only
  have hroute : (route rt q).Follows emits returnsMatched .empty := by
    unfold route
    cases q.operation with
    | create dto key => exact returnsMatched_bind (create_emits rt _ dto key hph) fun _ _ h => h
    | createRecurrence dto =>
      exact returnsMatched_bind (recurrenceCreate_emits rt _ dto hph) fun _ _ h => h
    | confirm id version => exact returnsMatched_bind (transition_emits _ _ _ _ hph) fun _ _ h => h
    | complete id version => exact returnsMatched_bind (transition_emits _ _ _ _ hph) fun _ _ h => h
    | cancel id version => exact returnsMatched_bind (transition_emits _ _ _ _ hph) fun _ _ h => h
    | noShow id version => exact returnsMatched_bind (transition_emits _ _ _ _ hph) fun _ _ h => h
    | reschedule id dto ifMatch =>
      exact returnsMatched_bind (reschedule_emits rt _ _ dto ifMatch hph) fun _ _ h => h
    | cancelSeries id => exact returnsMatched_bind (cancelSeries_emits _ _ hph) fun _ _ h => h
  refine follows_inTransaction.2 (hroute.mono fun ph r h => ?_)
  rcases r with error | value
  · exact ⟨trivial, fun _ _ => trivial⟩
  · exact ⟨h, fun r _ => by rcases r with c | v <;> trivial⟩

/-! ## The discipline over the database -/

section World

variable {T : Type} [DecidableEq T]

/-- The uncommitted writes and events of transaction `t`. -/
def Db.pending (g : Db T) (t : T) : Pending where
  changes := g.bookings.pending t
  events := g.events.pending t
  marks := (g.savepoints t).map fun sp => (sp.index, sp.bookings, sp.events)

variable {initial : List Booking} {g : Db T} {t : T} {s : Statement}
  {r : Except SqlState s.Result}

theorem Db.pending_rollback : (g.rollback t).pending t = .empty := by
  simp [Db.pending, Db.rollback, Pending.empty]

theorem Db.pending_commit : (g.commit t).pending t = .empty := by
  unfold Db.commit
  split
  · exact Db.pending_rollback
  · simp [Db.pending, Pending.empty]

theorem Db.pending_rollbackToSavepoint (i : ℕ) :
    (g.rollbackToSavepoint t i).pending t = (g.pending t).rollbackTo i := by
  have hmap : ((g.savepoints t).map fun sp => (sp.index, sp.bookings, sp.events)).dropWhile
      (·.1 ≠ i) = ((g.savepoints t).dropWhile (·.index ≠ i)).map
        fun sp => (sp.index, sp.bookings, sp.events) := List.dropWhile_map
  have hmarks : ((g.pending t).marks).dropWhile (·.1 ≠ i) =
      ((g.savepoints t).dropWhile (·.index ≠ i)).map fun sp =>
        (sp.index, sp.bookings, sp.events) := hmap
  rw [Pending.rollbackTo, hmarks, Db.rollbackToSavepoint]
  cases (g.savepoints t).dropWhile (·.index ≠ i) with
  | nil => rfl
  | cons sp rest => simp [Db.pending]

/-- A statement changes the uncommitted writes and events of its transaction as the
discipline says. -/
theorem Db.pending_effect (h : g.possible initial t s r) :
    (g.effect t s r).pending t = emits.next (g.pending t) s r := by
  -- a failure changes nothing by itself, except at the end of a transaction
  rcases r with code | v
  · cases s with
    | commit => exact Db.pending_rollback
    | rollback => exact Db.pending_rollback
    | _ => rfl
  · cases s with
    | commit => exact Db.pending_commit
    | rollback => exact Db.pending_rollback
    | rollbackToSavepoint i => exact Db.pending_rollbackToSavepoint i
    | releaseSavepoint i =>
      simp only [Db.effect, Db.apply, Db.releaseSavepoint, Db.pending, emits,
        Function.update_self, List.dropWhile_map, List.map_tail]
      rfl
    | savepoint i => simp [Db.effect, Db.apply, Db.savepoint, Db.pending, emits, Pending.mark]
    | insertBooking data => simp [Db.effect, Db.apply, Db.pending, emits, Pending.write]
    | updateStatus => simp [Db.effect, Db.apply, Db.pending, emits, Pending.write]
    | updateTimes => simp [Db.effect, Db.apply, Db.pending, emits, Pending.write]
    | cancelSeries => simp [Db.effect, Db.apply, Db.pending, emits, Pending.write]
    | insertEvent => simp [Db.effect, Db.apply, Db.pending, emits]
    | _ => rfl

theorem Db.pending_rollback_ne {u : T} (hu : u ≠ t) : (g.rollback t).pending u = g.pending u := by
  simp [Db.pending, Db.rollback, hu]

/-- A statement leaves the uncommitted writes and events of other transactions alone. -/
theorem Db.pending_effect_ne {u : T} (hu : u ≠ t) :
    (g.effect t s r).pending u = g.pending u := by
  rcases r with code | v
  · cases s with
    -- a commit empties the lists of its own transaction
    | commit => exact Db.pending_rollback_ne hu
    | rollback => exact Db.pending_rollback_ne hu
    | _ => rfl
  · cases s with
    | commit =>
      show (g.commit t).pending u = _
      unfold Db.commit
      split
      · exact Db.pending_rollback_ne hu
      · simp [Db.pending, hu]
    | rollback => exact Db.pending_rollback_ne hu
    | rollbackToSavepoint i =>
      show (g.rollbackToSavepoint t i).pending u = _
      unfold Db.rollbackToSavepoint
      split
      · rfl
      · simp [Db.pending, hu]
    | releaseSavepoint i => simp [Db.effect, Db.apply, Db.releaseSavepoint, Db.pending, hu]
    | savepoint i => simp [Db.effect, Db.apply, Db.savepoint, Db.pending, hu]
    | _ => simp [Db.effect, Db.apply, Db.pending, hu]

omit [DecidableEq T] in
/-- What the discipline lets a program count on holds of every answer. -/
theorem Db.answers_emits (h : g.possible initial t s r) : emits.answers (g.pending t) s r := by
  rcases r with code | v
  · cases s <;> trivial
  · cases s with
    -- the row that is read is the newest write of the booking
    | findBooking tenantId id =>
      rcases v with - | b
      · trivial
      · intro c hc
        have hb := (Db.tenantBooking_eq_some.1 h.2.symm).1
        have hrow := (bookingTable initial).row_of_find hc g.bookings.committed
        exact Option.some.inj (hb.symm.trans hrow)
    -- a conditional update meets one row at most
    | updateStatus tenantId id version status =>
      intro r hr
      obtain ⟨hone, -, b, hb, -, -, rfl⟩ := Db.Updates.mem h.2 hr
      exact ⟨hone, (Db.booking_id hb : b.id = id)⟩
    | updateTimes tenantId id version startsAt endsAt =>
      obtain ⟨-, s, e, -, -, hup⟩ := h
      intro r hr
      obtain ⟨hone, -, b, hb, -, -, rfl⟩ := Db.Updates.mem hup hr
      exact ⟨hone, (Db.booking_id hb : b.id = id)⟩
    | cancelSeries tenantId recurrenceId now => exact h.2.1
    | insertEvent tenantId input => exact h.2.1
    | _ => trivial

variable {rt : Runtime} {w w' : World Sql T (Db T) Request Thrown Response}

/-- The discipline tracked by the uncommitted writes in the database. -/
def emitsTracker (rt : Runtime) (initial : List Booking) :
    Tracker (bookingServer (T := T) rt initial) emits .empty (fun _ => .empty) where
  phase w t := w.shared.pending t
  start_eq _ _ _ _ h := h
  start_frame _ _ _ _ _ := rfl
  call_answers _ _ _ _ _ _ _ _ _ hr := Db.answers_emits hr
  call_eq _ _ _ _ _ _ _ _ hr := Db.pending_effect hr
  call_frame _ _ _ _ _ _ _ _ hu := Db.pending_effect_ne hu
  crash_eq _ _ := Db.pending_rollback
  crash_frame _ _ _ hu := Db.pending_rollback_ne hu
  env_frame w g u hg := by
    obtain ⟨catalog, rfl⟩ := hg
    rfl

/-- What a statement of transaction `t` makes of the committed writes and events: both get
the uncommitted ones of the transaction at a commit, and neither changes otherwise. -/
theorem Db.committed_effect :
    ((g.effect t s r).events.committed = g.events.committed ∧
        (g.effect t s r).bookings.committed = g.bookings.committed) ∨
      (s = .commit ∧ (g.effect t s r).events.committed = g.events.visible t ∧
        (g.effect t s r).bookings.committed = g.bookings.visible t) := by
  rcases r with code | v
  · cases s <;> exact .inl ⟨rfl, rfl⟩
  · cases s with
    -- a transaction that has failed is rolled back by its `COMMIT`
    | commit =>
      show ((g.commit t).events.committed = _ ∧ _) ∨ _
      unfold Db.effect Db.apply Db.commit
      split
      · exact .inl ⟨rfl, rfl⟩
      · exact .inr ⟨rfl, rfl, rfl⟩
    | rollbackToSavepoint i =>
      show ((g.rollbackToSavepoint t i).events.committed = _ ∧
        (g.rollbackToSavepoint t i).bookings.committed = _) ∨ _
      unfold Db.rollbackToSavepoint
      split <;> exact .inl ⟨rfl, rfl⟩
    | _ => exact .inl ⟨rfl, rfl⟩

/-- What the match of events and changes rests on. -/
structure EventsInv (rt : Runtime) (initial : List Booking)
    (w : World Sql T (Db T) Request Thrown Response) : Prop where
  emits : (emitsTracker rt initial).Conforms anyEnd w
  serial : w.shared.bookings.Serial (bookingTable initial) Versioned
  matched : List.Forall₂ Describes w.shared.events.committed w.shared.bookings.committed

/-- One step keeps the committed events and changes matched. -/
theorem EventsInv.step (h : EventsInv rt initial w) {l : Label Sql T Request}
    (hs : World.Step (bookingServer rt initial) w l w') : EventsInv rt initial w' := by
  have hemits := h.emits.step (follows_emits rt) hs
  cases hs with
  | start q hidle => exact ⟨hemits, h.serial, h.matched⟩
  | @call t q tr s k r hat hr =>
    refine ⟨hemits, (Db.effect_bookings hr).serial h.serial fun _ _ hw _ => hw.versioned, ?_⟩
    show List.Forall₂ Describes (w.shared.effect t s r).events.committed
      (w.shared.effect t s r).bookings.committed
    rcases w.shared.committed_effect (t := t) (s := s) (r := r) with ⟨he, hb⟩ | ⟨rfl, he, hb⟩
    · rw [he, hb]
      exact h.matched
    · rw [he, hb]
      -- the discipline allows a commit only when the uncommitted ones match
      exact List.rel_append (h.emits.allows hat) h.matched
  | @crash t σ hat hrun => exact ⟨hemits, h.serial.rollback t, h.matched⟩
  | @env g hg =>
    obtain ⟨catalog, rfl⟩ := hg
    exact ⟨hemits, h.serial, h.matched⟩

end World

/-! ## Committed states -/

section Committed

variable {T : Type} [DecidableEq T]

/-- The committed events of booking `id`, newest first. -/
def Db.eventsOf (g : Db T) (id : Uuid) : List OutboxEvent :=
  g.events.committed.filter (·.aggregateId = id)

/-- The committed writes of booking `id`, newest first. -/
def Db.changesOf (g : Db T) (id : Uuid) : List BookingChange :=
  g.bookings.committed.filter (·.row.id = id)

/-- The committed row of booking `id`. -/
def Db.committedBooking (g : Db T) (id : Uuid) : Option Booking :=
  (bookingTable []).row g.bookings.committed id

/-- The outbox tells the committed history of every booking: its events describe its
changes one to one, there are as many as its version, the oldest is its creation and the
only one, and no event is about a booking that does not exist. -/
structure Db.EventsMatch (g : Db T) : Prop where
  describe : ∀ id, List.Forall₂ Describes (g.eventsOf id) (g.changesOf id)
  version : ∀ id b, g.committedBooking id = some b → ((g.eventsOf id).length : ℤ) = b.version
  created : ∀ id b, g.committedBooking id = some b → ∃ later first,
    g.changesOf id = later ++ [first] ∧ first.kind = .created ∧ ∀ c ∈ later, c.kind ≠ .created
  exists_booking : ∀ e ∈ g.events.committed, ∃ b, g.committedBooking e.aggregateId = some b

/-- A booking of a versioned history has as many writes as its version, the oldest of them
its insert and no other. -/
theorem versioned_history {log : List BookingChange}
    (h : (bookingTable []).Linked Versioned log) (id : Uuid) :
    ((bookingTable []).row log id = none → log.filter (·.row.id = id) = []) ∧
      ∀ b, (bookingTable []).row log id = some b →
        ((log.filter (·.row.id = id)).length : ℤ) = b.version ∧
        ∃ later first, log.filter (·.row.id = id) = later ++ [first] ∧
          first.kind = .created ∧ ∀ c ∈ later, c.kind ≠ .created := by
  induction log with
  | nil => exact ⟨fun _ => rfl, fun b hb => by simp at hb⟩
  | cons c log ih =>
    obtain ⟨hversioned, hlog⟩ := h
    obtain ⟨ihnone, ihsome⟩ := ih hlog
    by_cases hc : c.row.id = id
    · have hkey : (bookingTable []).key c = id := hc
      rw [hkey] at hversioned
      have hfilter : (c :: log).filter (·.row.id = id) = c :: log.filter (·.row.id = id) := by
        simp [hc]
      rw [hfilter, Table.row_cons, if_pos hkey]
      refine ⟨fun hnone => (by cases hnone), fun b hb => ?_⟩
      cases hb
      show _ = c.row.version ∧ _
      cases hrow : (bookingTable []).row log id with
      | none =>
        -- the insert of a new row
        rw [hrow] at hversioned
        rw [ihnone hrow, hversioned.2]
        exact ⟨rfl, [], c, rfl, hversioned.1, by simp⟩
      | some b =>
        -- a later write of a row that is there
        rw [hrow] at hversioned
        obtain ⟨hlen, later, first, heq, hfirst, hlater⟩ := ihsome b hrow
        refine ⟨by rw [List.length_cons, Int.natCast_succ, hlen, hversioned.2.1], c :: later, first,
          by rw [heq, List.cons_append], hfirst, ?_⟩
        intro c' hc'
        rcases List.mem_cons.1 hc' with rfl | hmem
        · exact hversioned.1
        · exact hlater c' hmem
    · have hfilter : (c :: log).filter (·.row.id = id) = log.filter (·.row.id = id) := by
        simp [hc]
      rw [hfilter, Table.row_cons_ne _ hc]
      exact ⟨ihnone, ihsome⟩

omit [DecidableEq T] in
theorem eventsMatch_of_matched {g : Db T}
    (hmatched : List.Forall₂ Describes g.events.committed g.bookings.committed)
    (hlinked : (bookingTable []).Linked Versioned g.bookings.committed) : g.EventsMatch := by
  have hdescribe : ∀ id, List.Forall₂ Describes (g.eventsOf id) (g.changesOf id) := fun id =>
    List.rel_filter (fun e c h => by simp [h.aggregateId]) hmatched
  refine ⟨hdescribe, fun id b hb => ?_, fun id b hb => ?_, fun e he => ?_⟩
  · rw [(hdescribe id).length_eq]
    exact ((versioned_history hlinked id).2 b hb).1
  · exact ((versioned_history hlinked id).2 b hb).2
  · -- its booking has as many changes as events, so at least one
    have hpos : 0 < (g.changesOf e.aggregateId).length := by
      rw [← (hdescribe e.aggregateId).length_eq]
      exact List.length_pos_of_mem (List.mem_filter.2 ⟨he, by simp⟩)
    obtain ⟨c, hc⟩ := List.exists_mem_of_length_pos hpos
    obtain ⟨hmem, hid⟩ := List.mem_filter.1 hc
    rw [← of_decide_eq_true hid]
    exact Option.isSome_iff_exists.1 ((bookingTable []).row_isSome_of_mem hmem)

theorem EventsInv.fresh (rt : Runtime) {g₀ : Db T} (h₀ : g₀.Initial) :
    EventsInv rt [] (World.fresh g₀) where
  emits t := by
    show g₀.pending t = .empty
    simp [Db.pending, Pending.empty, h₀.bookings, h₀.events, h₀.savepoints]
  serial := by
    rw [World.fresh_shared, h₀.bookings]
    exact .empty
  matched := by
    rw [World.fresh_shared, h₀.bookings, h₀.events]
    exact .nil

/-- In every committed state that booking requests reach, the outbox tells the history of
every booking. -/
theorem committed_events (rt : Runtime) {g₀ : Db T} (h₀ : g₀.Initial)
    {w : World Sql T (Db T) Request Thrown Response}
    (hrun : Runs (World.Step (bookingServer rt [])) anyStep (World.fresh g₀) w) :
    w.shared.EventsMatch := by
  have hinv := hrun.invariant (I := EventsInv rt [])
    (fun _ _ _ h _ hs => h.step hs) (.fresh rt h₀)
  exact eventsMatch_of_matched hinv.matched hinv.serial.committed

/-- A booking is created and then confirmed. -/
def createThenConfirm : List (Move Bool Request Choice) :=
  [.start true ⟨1, .create ⟨1, 1, 1, "2026-01-01T10:00:00Z"⟩ none⟩, .go true (.succeed 0),
    .go true (.succeed 0), .go true (.succeed 0), .go true (.succeed 7), .go true (.succeed 1),
    .go true (.succeed 0), .start false ⟨1, .confirm 7 1⟩, .go false (.succeed 0),
    .go false (.succeed 0), .go false (.succeed 0), .go false (.succeed 2),
    .go false (.succeed 0)]

theorem committed_events_createThenConfirm :
    ∃ w : World Sql Bool (Db Bool) Request Thrown Response,
      ((w.shared.eventsOf 7).map (·.eventType)) = ["booking.confirmed", "booking.created"] ∧
      w.shared.EventsMatch := by
  obtain ⟨w, hrun, hw⟩ := (bookingResponder sampleRuntime []).exists_anyRun
    (World.fresh sampleDb) createThenConfirm
    (fun w => ((w.shared.eventsOf 7).map (·.eventType)) =
      ["booking.confirmed", "booking.created"]) (by decide)
  exact ⟨w, of_decide_eq_true hw, committed_events sampleRuntime sampleDb_initial hrun⟩

end Committed

end BookingPlatform
