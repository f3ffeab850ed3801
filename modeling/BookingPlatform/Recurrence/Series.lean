import BookingPlatform.Booking.Sessions

/-!
# Creating a Series

`RecurrenceService.create` in its request transaction, while no other transaction runs and any
statement may fail. Under either policy the loop goes through the occurrences in order; an
occurrence is refused by the EXCLUDE constraint, or it becomes a booking with its event.

## Main definitions

- `Partitions`: the greedy division of the occurrences into created and skipped ones.
- `withSeries`: the rows of the database with those of a series.
- `CreatesSeries`: what a request does, whatever it answers.

## Main results

- `createRecurrence_atomic`: every request does this.
-/

namespace BookingPlatform

open Library BaseTenantRepository

/-! ## The series -/

/-- The rows that an occurrence makes: its booking and the event. -/
structure OccurrenceRows where
  booking : StoredBooking
  event : OutboxEvent
  deriving DecidableEq

/-- The occurrences that are created and those that are skipped, in order: an occurrence is created
exactly if it is free beside the ones created earlier. -/
inductive Partitions (free : (created : List Instant) → Instant → Prop) :
    (earlier occurrences created skipped : List Instant) → Prop where
  | nil {earlier} : Partitions free earlier [] [] []
  | create {earlier o occurrences created skipped} (hfree : free earlier o)
      (htail : Partitions free (earlier ++ [o]) occurrences created skipped) :
      Partitions free earlier (o :: occurrences) (o :: created) skipped
  | skip {earlier o occurrences created skipped} (htaken : ¬free earlier o)
      (htail : Partitions free earlier occurrences created skipped) :
      Partitions free earlier (o :: occurrences) created (o :: skipped)

/-- If nothing is skipped, everything is created. -/
theorem Partitions.all_created {free : List Instant → Instant → Prop}
    {earlier occurrences created : List Instant}
    (h : Partitions free earlier occurrences created []) : created = occurrences := by
  induction occurrences generalizing earlier created with
  | nil =>
    cases h
    rfl
  | cons o occurrences ih =>
    cases h with
    | create _ htail => rw [ih htail]

section Series

variable (tenantId : Uuid) (dto : CreateRecurrenceDto) (service : ServiceRow) (timezone : String)

def lengthMs : ℤ := service.durationMin * minuteMs

/-- The interval of the occurrence that starts at `o`. -/
def occurrenceInterval (o : Instant) : MsInterval := ⟨o, o + lengthMs service⟩

/-- The occurrence overlaps no active booking of the staff member that was there before, and none
that was created earlier. -/
def Free (db : Store platformSchema) (created : List Instant) (o : Instant) : Prop :=
  (∀ b ∈ db .bookings, ¬Occupies tenantId dto.staffId (occurrenceInterval service o) b) ∧
    ∀ o' ∈ created, ¬max o' o < min (o' + lengthMs service) (o + lengthMs service)

/-- The rule that is expanded. -/
def ruleOf : RecurrenceRule :=
  { freq := dto.freq, interval := dto.interval, weekdays := dto.weekdays,
    startDate := dto.startDate,
    startMinutes := dto.startMinutes, count := dto.count, untilDate := dto.untilDate, timezone }

/-- The row of the series, without its id. -/
def seriesData : RecurrenceData :=
  { tenantId, serviceId := dto.serviceId, staffId := dto.staffId, customerId := dto.customerId,
    freq := dto.freq, interval := dto.interval, weekdays := dto.weekdays, startDate :=
      dto.startDate,
    startMinutes := dto.startMinutes, count := dto.count, untilDate := dto.untilDate, timezone }

/-- What the service passes on for each occurrence. -/
def occurrenceSpec (startsAt : Instant) : OccurrenceSpec :=
  { staffId := dto.staffId, serviceId := dto.serviceId, customerId := dto.customerId,
    startsAt := some startsAt, endsAt := newDate (startsAt + service.durationMin * minuteMs),
    priceAmount := service.priceAmount, priceCurrency := service.priceCurrency }

/-- The booking row of an occurrence. -/
def occurrenceRow (recurrenceId : Uuid) (o : Instant) (id : Uuid) : StoredBooking where
  id
  tenantId
  staffId := dto.staffId
  serviceId := dto.serviceId
  customerId := dto.customerId
  startsAt := o
  endsAt := o + lengthMs service
  status := .pending
  priceAmount := service.priceAmount
  priceCurrency := service.priceCurrency
  recurrenceId := some recurrenceId
  version := 1
  deletedAt := none

/-- The rows of an occurrence, with the ids and the time that the database has drawn. -/
def MadeBy (recurrenceId : Uuid) (o : Instant) (rows : OccurrenceRows) : Prop :=
  rows.booking = occurrenceRow tenantId dto service recurrenceId o rows.booking.id ∧
    rows.event = eventRow tenantId (createdInput rows.booking.toBooking)
      (rows.event.id, rows.event.createdAt)

/-- The rows of the database, with a series after them. -/
def withSeries (db : Store platformSchema) (recurrence : Recurrence) (made : List OccurrenceRows) :
    Store platformSchema
  | .recurrences => db .recurrences ++ [recurrence]
  | .bookings => db .bookings ++ made.map (·.booking)
  | .outboxEvents => db .outboxEvents ++ made.map (·.event)
  | τ => db τ

end Series

/-! ## One occurrence -/

section Occurrence

variable {db : Store platformSchema} {env : Environment platformSchema} {tenantId : Uuid}
  {dto : CreateRecurrenceDto} {service : ServiceRow} {recurrence : Recurrence}

variable (db tenantId dto service recurrence) in
/-- The transaction runs, and sees the rows of the database with those of the series so far. -/
structure InSeries (tx : Tx platformSchema) (created : List Instant) (made : List OccurrenceRows) :
    Prop where
  running : tx.aborted = false
  view : tx.view db = withSeries db recurrence made
  made : List.Forall₂ (MadeBy tenantId dto service recurrence.id) created made

variable {tx : Tx platformSchema} {created : List Instant} {made : List OccurrenceRows}
  {o : Instant}

/-- An occurrence that is already created occupies an interval if the two overlap. -/
theorem MadeBy.occupies_iff {o' : Instant} {rows : OccurrenceRows}
    (h : MadeBy tenantId dto service recurrence.id o' rows) :
    Occupies tenantId dto.staffId (occurrenceInterval service o) rows.booking ↔
      max o' o < min (o' + lengthMs service) (o + lengthMs service) := by
  have hactive : BookingStatus.pending ∈ activeBookingStatuses := by decide
  rw [h.1]
  exact ⟨fun hoccupies => hoccupies.2.2.2.2, fun hoverlap => ⟨rfl, rfl, hactive, rfl, hoverlap⟩⟩

/-- The occurrence is not free if one of the bookings that the transaction sees occupies its
interval. -/
theorem InSeries.taken_iff (h : InSeries db tenantId dto service recurrence tx created made) :
    (∃ b ∈ tx.view db .bookings, Occupies tenantId dto.staffId (occurrenceInterval service o) b) ↔
      ¬Free tenantId dto service db created o := by
  -- the transaction sees the bookings from before and those of the series
  have hview : tx.view db .bookings = db .bookings ++ made.map (·.booking) := by rw [h.view]; rfl
  -- a booking of the series occupies its own interval
  have hmade : (∃ b ∈ made.map (·.booking),
        Occupies tenantId dto.staffId (occurrenceInterval service o) b) ↔
      ∃ o' ∈ created, max o' o < min (o' + lengthMs service) (o + lengthMs service) := by
    have hrows := h.made
    clear hview h
    induction hrows with
    | nil => simp
    | cons hhead _ ih => simp only [List.map_cons, List.exists_mem_cons_iff, ih, hhead.occupies_iff]
  unfold Free
  rw [hview, not_and_or]
  push Not
  rw [← hmade]
  constructor
  · rintro ⟨b, hb, hoccupies⟩
    rcases List.mem_append.1 hb with hmem | hmem
    · exact .inl ⟨b, hmem, hoccupies⟩
    · exact .inr ⟨b, hmem, hoccupies⟩
  · rintro (⟨b, hmem, hoccupies⟩ | ⟨b, hmem, hoccupies⟩)
    · exact ⟨b, List.mem_append_left _ hmem, hoccupies⟩
    · exact ⟨b, List.mem_append_right _ hmem, hoccupies⟩

/-- The series with one more occurrence. -/
theorem withSeries_append (recurrence : Recurrence) (made : List OccurrenceRows)
    (rows : OccurrenceRows)
    (hbooking : ∀ b ∈ withSeries db recurrence made .bookings, rowId .bookings b ≠ rows.booking.id)
    (hevent : ∀ e ∈ withSeries db recurrence made .outboxEvents,
      rowId .outboxEvents e ≠ rows.event.id) :
    ((withSeries db recurrence made).apply (.put .bookings rows.booking)).apply
        (.put .outboxEvents rows.event) = withSeries db recurrence (made ++ [rows]) := by
  funext τ
  by_cases hτ : τ = .outboxEvents
  · subst hτ
    rw [Store.apply_put_self, Store.apply_put_of_ne _ _ (by decide), upsert_of_fresh hevent]
    simp [withSeries]
  · rw [Store.apply_put_of_ne _ _ hτ]
    by_cases hτ' : τ = .bookings
    · subst hτ'
      rw [Store.apply_put_self, upsert_of_fresh hbooking]
      simp [withSeries]
    · rw [Store.apply_put_of_ne _ _ hτ']
      cases τ <;> first | rfl | exact absurd rfl hτ | exact absurd rfl hτ'

/-- The values that are inserted for an occurrence. -/
def occurrenceData (tenantId : Uuid) (spec : OccurrenceSpec) (recurrenceId : Uuid) : BookingData :=
  { tenantId, staffId := spec.staffId, serviceId := spec.serviceId,
    customerId := spec.customerId, startsAt := spec.startsAt, endsAt := spec.endsAt,
    status := .pending, priceAmount := spec.priceAmount,
    priceCurrency := spec.priceCurrency, recurrenceId := some recurrenceId }

theorem lengthMs_pos (service : ServiceRow) : 0 < lengthMs service :=
  Int.mul_pos service.duration_pos (by decide)

/-- The insert stores the interval of the occurrence, if its end is a valid date. -/
theorem stores_occurrence_iff {slot : MsInterval} :
    (occurrenceData tenantId (occurrenceSpec dto service o) recurrence.id).Stores slot ↔
      newDate (o + lengthMs service) ≠ none ∧ slot = occurrenceInterval service o := by
  have hle : o ≤ o + lengthMs service :=
    Int.le_add_of_nonneg_right (Int.le_of_lt (lengthMs_pos service))
  -- a valid end is the end that was computed
  have hdate : ∀ t, newDate (o + lengthMs service) = some t → t = o + lengthMs service := by
    intro t ht
    unfold newDate at ht
    split at ht
    · exact (Option.some.inj ht).symm
    · cases ht
  constructor
  · rintro ⟨hstart, hstop, -⟩
    have hstop : newDate (o + lengthMs service) = some slot.stop := hstop
    have hstart : some o = some slot.start := hstart
    refine ⟨by rw [hstop]; simp, ?_⟩
    have hstart : slot.start = o := (Option.some.inj hstart).symm
    have hstop : slot.stop = o + lengthMs service := hdate slot.stop hstop
    obtain ⟨start, stop⟩ := slot
    dsimp only at hstart hstop
    rw [hstart, hstop]
    rfl
  · rintro ⟨hvalid, rfl⟩
    obtain ⟨t, ht⟩ := Option.ne_none_iff_exists'.1 hvalid
    refine ⟨rfl, ?_, hle⟩
    exact ht.trans (congrArg some (hdate t ht))

/-- The insert of an occurrence: a new row if it is free, the conflict if it is not, or another
error, which in calm conditions says that the end is not a valid date. -/
theorem follows_insertOccurrence (h : InSeries db tenantId dto service recurrence tx created made)
    (hfails : ¬env.fails exclusionViolation)
    {post : Tx platformSchema → Except Thrown Booking → Prop}
    (hok : ∀ row, row = occurrenceRow tenantId dto service recurrence.id o row.id →
      (∀ b ∈ tx.view db .bookings, rowId .bookings b ≠ row.id) →
      Free tenantId dto service db created o →
      newDate (o + lengthMs service) ≠ none →
      post (tx.write (.put .bookings row)) (.ok row.toBooking))
    (htaken : ¬Free tenantId dto service db created o → newDate (o + lengthMs service) ≠ none →
      post tx.abort (.error (.app slotTaken)))
    (herror : ∀ e, BookingService.isSlotTaken e = false →
      (env.Calm → newDate (o + lengthMs service) = none) → post tx.abort (.error e)) :
    ((BookingRepository.create
        (occurrenceData tenantId (occurrenceSpec dto service o) recurrence.id)).translate
          bookingCommands).Follows (session db env) post tx := by
  have hactive : BookingStatus.pending ∈ activeBookingStatuses := by decide
  refine follows_insertBooking _ h.running hactive hfails ?_ ?_ ?_
  · -- the constraint finds no conflict: the occurrence was free
    intro slot row hstores hrow hnew hfree
    obtain ⟨hdate, rfl⟩ := stores_occurrence_iff.1 hstores
    refine hok row hrow hnew ?_ hdate
    by_contra hnot
    obtain ⟨b, hb, hoccupies⟩ := h.taken_iff.2 hnot
    exact hfree b hb hoccupies
  · intro slot hstores htakenBy
    obtain ⟨hdate, rfl⟩ := stores_occurrence_iff.1 hstores
    exact htaken (h.taken_iff.1 htakenBy) hdate
  · -- in calm conditions, only an end that is no valid date is refused
    intro e he hcalm
    refine herror e he fun hc => ?_
    by_contra hdate
    exact hcalm hc _ (stores_occurrence_iff.2 ⟨hdate, rfl⟩)

/-- One occurrence of the loop: its two rows are added to the series, or it is in conflict, or
another error is thrown. After an error, the savepoints and what had been written before are as they
were. -/
theorem follows_createOccurrence (h : InSeries db tenantId dto service recurrence tx created made)
    (hfails : ¬env.fails exclusionViolation)
    {post : Tx platformSchema → Except Thrown Booking → Prop}
    (hok : ∀ tx' rows b,
      InSeries db tenantId dto service recurrence tx' (created ++ [o]) (made ++ [rows]) →
      tx'.savepoints = tx.savepoints → Free tenantId dto service db created o →
      newDate (o + lengthMs service) ≠ none → post tx' (.ok b))
    (htaken : ∀ tx', tx'.savepoints = tx.savepoints →
      tx'.pending.take tx.pending.length = tx.pending →
      ¬Free tenantId dto service db created o → newDate (o + lengthMs service) ≠ none →
      post tx' (.error (.app slotTaken)))
    (herror : ∀ tx' e, tx'.savepoints = tx.savepoints →
      tx'.pending.take tx.pending.length = tx.pending → BookingService.isSlotTaken e = false →
      (env.Calm → newDate (o + lengthMs service) = none) → post tx' (.error e)) :
    ((BookingService.createOccurrence tenantId
      (occurrenceSpec dto service o) recurrence.id).translate
      bookingCommands).Follows (session db env) post tx := by
  unfold BookingService.createOccurrence
  refine follows_translate_bind.2 (follows_insertOccurrence h hfails ?_ ?_ ?_)
  · -- the booking is in, and its event follows
    intro row hrow hnewRow hfree hdate
    have hrunning : (tx.write (.put .bookings row)).aborted = false := h.running
    refine follows_translate_bind.2 (session_emit hrunning ?_ ?_)
    · intro event hevent hnewEvent
      have hother : (tx.write (.put .bookings row)).view db .outboxEvents =
          tx.view db .outboxEvents := by
        rw [Tx.view_write, Store.apply_put_of_ne _ _ (by decide)]
      -- both rows are the next of the series
      refine hok _ ⟨row, event⟩ row.toBooking ⟨h.running, ?_, ?_⟩ rfl hfree hdate
      · rw [Tx.view_write, Tx.view_write, h.view]
        refine withSeries_append recurrence made ⟨row, event⟩ ?_ ?_
        · rw [← h.view]
          exact hnewRow
        · rw [← h.view, ← hother]
          exact hnewEvent
      · exact List.rel_append h.made (.cons ⟨hrow, hevent⟩ .nil)
    · -- the event could not be recorded
      intro code hcalm
      exact herror _ _ rfl (by simp [Tx.write, Tx.abort]) rfl fun hc => absurd hc hcalm
  · intro hnotFree hdate
    exact htaken _ rfl (by simp [Tx.abort]) hnotFree hdate
  · intro e he hcalm
    exact herror _ e rfl (by simp [Tx.abort]) he hcalm

/-- The savepoint of an occurrence is the last one. -/
theorem from_mark {tx' : Tx platformSchema} {i : ℕ} (h : tx'.savepoints = (tx.mark i).savepoints) :
    tx'.from? i = (i, tx.pending.length) :: tx.savepoints := by
  unfold Tx.from?
  rw [h]
  simp [Tx.mark]

/-- One occurrence under the policy that skips conflicts: it is created, or skipped with the series
as it was, or an error is thrown, which in calm conditions says that the end is not a valid date. -/
theorem follows_tryOccurrence (h : InSeries db tenantId dto service recurrence tx created made)
    (hfails : ¬env.fails exclusionViolation) (i : ℕ)
    {post : Tx platformSchema → Except Thrown Bool → Prop}
    (hcreated : ∀ tx' rows,
      InSeries db tenantId dto service recurrence tx' (created ++ [o]) (made ++ [rows]) →
      Free tenantId dto service db created o → newDate (o + lengthMs service) ≠ none →
      post tx' (.ok true))
    (hskipped : ∀ tx', InSeries db tenantId dto service recurrence tx' created made →
      ¬Free tenantId dto service db created o → newDate (o + lengthMs service) ≠ none →
      post tx' (.ok false))
    (herror : ∀ tx' e, (env.Calm → newDate (o + lengthMs service) = none) → post tx' (.error e)) :
    ((RecurrenceService.tryOccurrence tenantId
      (occurrenceSpec dto service o) recurrence.id i).translate
      bookingCommands).Follows (session db env) post tx := by
  have hquery : ∀ tx' code, env.fails code → post tx' (.error (.query code)) :=
      fun tx' code hcode =>
    herror tx' _ fun hcalm => absurd hcode (hcalm.1 code)
  have hmark : InSeries db tenantId dto service recurrence (tx.mark i) created made :=
    ⟨h.running, h.view, h.made⟩
  unfold RecurrenceService.tryOccurrence
  refine follows_translate_bind.2 (session_exec.2 (issues_savepoint h.running ?_ (hquery _)))
  refine follows_translate_tryCatch.2
    (follows_translate_bind.2 (follows_createOccurrence hmark hfails ?_ ?_ ?_))
  · -- both rows are written
    intro tx' rows b hin hsavepoints hfree hdate
    have hfrom := from_mark hsavepoints
    refine follows_translate_bind.2 (session_exec.2 (issues_release hin.running hfrom ?_ ?_))
    · exact hcreated _ rows ⟨hin.running, hin.view, hin.made⟩ hfree hdate
    · -- the release fails, and its error is thrown on
      intro code hcode
      have hfrom' : tx'.abort.from? i = (i, tx.pending.length) :: tx.savepoints := hfrom
      exact follows_translate_bind.2
        (session_exec.2 (issues_rollbackTo hfrom' (hquery _ code hcode) (hquery _)))
  · -- a conflict: what the occurrence has written is rolled back
    intro tx' hsavepoints hpending hnotFree hdate
    refine follows_translate_bind.2
      (session_exec.2 (issues_rollbackTo (from_mark hsavepoints) ?_ (hquery _)))
    refine hskipped _ ⟨rfl, ?_, h.made⟩ hnotFree hdate
    have htake : tx'.pending.take tx.pending.length = tx.pending := hpending
    have hview : (⟨tx'.pending.take tx.pending.length,
      (i, tx.pending.length) :: tx.savepoints, false⟩ :
        Tx platformSchema).view db = tx.view db := by
      rw [htake]
      rfl
    exact hview.trans h.view
  · -- another error: it is thrown on
    intro tx' e hsavepoints _ he hcalm
    refine follows_translate_bind.2
      (session_exec.2 (issues_rollbackTo (from_mark hsavepoints) ?_ (hquery _)))
    have hthrow : (!BookingService.isSlotTaken e) = true := by rw [he]; rfl
    change ((if (!BookingService.isSlotTaken e) = true then Prog.raise e else pure false :
      TenantM Bool).translate bookingCommands).Follows (session db env) post _
    rw [if_pos hthrow]
    exact herror _ e hcalm

/-! ## The loops -/

/-- The loop that skips conflicts. The induction is on the occurrences that are left; the series so
far is what the transaction sees. -/
theorem follows_skipConflicts (hfails : ¬env.fails exclusionViolation)
    (occurrences : List Instant) :
    ∀ {tx : Tx platformSchema} {created skipped : List Instant} {made : List OccurrenceRows} (i : ℕ)
      {post : Tx platformSchema → Except Thrown (List Instant × List Instant) → Prop},
      InSeries db tenantId dto service recurrence tx created made →
      (∀ tx' created' skipped' made',
        InSeries db tenantId dto service recurrence tx' (created ++ created') made' →
        Partitions (Free tenantId dto service db) created occurrences created' skipped' →
        (∀ o ∈ occurrences, newDate (o + lengthMs service) ≠ none) →
        post tx' (.ok (created ++ created', skipped ++ skipped'))) →
      (∀ tx' e, (env.Calm → ∃ o ∈ occurrences, newDate (o + lengthMs service) = none) →
        post tx' (.error e)) →
      ((RecurrenceService.skipConflicts tenantId
        (occurrenceSpec dto service) recurrence.id i occurrences
        created skipped).translate bookingCommands).Follows (session db env) post tx := by
  induction occurrences with
  | nil =>
    intro tx created skipped made i post h hok _
    have hdone := hok tx [] [] made (by rwa [List.append_nil]) .nil
      (fun _ ho => absurd ho List.not_mem_nil)
    rwa [List.append_nil, List.append_nil] at hdone
  | cons o occurrences ih =>
    intro tx created skipped made i post h hok herror
    unfold RecurrenceService.skipConflicts
    refine follows_translate_bind.2 (follows_tryOccurrence h hfails i ?_ ?_ ?_)
    · -- the occurrence is created
      intro tx' rows hin hfree hdate
      refine ih (i + 1) hin ?_ ?_
      · intro tx'' created' skipped' made' hin' hpart hdates
        have hassoc : created ++ [o] ++ created' = created ++ (o :: created') := by simp
        rw [hassoc] at hin' ⊢
        exact hok tx'' (o :: created') skipped' made' hin' (.create hfree hpart)
          (List.forall_mem_cons.2 ⟨hdate, hdates⟩)
      · intro tx'' e hcalm
        exact herror tx'' e fun hc => (hcalm hc).imp fun _ h => ⟨List.mem_cons_of_mem o h.1, h.2⟩
    · -- it is in conflict: back to the savepoint, and it is skipped
      intro tx' hin hnotFree hdate
      refine ih (i + 1) hin ?_ ?_
      · intro tx'' created' skipped' made' hin' hpart hdates
        have hassoc : skipped ++ [o] ++ skipped' = skipped ++ (o :: skipped') := by simp
        rw [hassoc]
        exact hok tx'' created' (o :: skipped') made' hin' (.skip hnotFree hpart)
          (List.forall_mem_cons.2 ⟨hdate, hdates⟩)
      · intro tx'' e hcalm
        exact herror tx'' e fun hc => (hcalm hc).imp fun _ h => ⟨List.mem_cons_of_mem o h.1, h.2⟩
    · -- another error ends the loop
      intro tx' e hcalm
      exact herror tx' e fun hc => ⟨o, List.mem_cons_self, hcalm hc⟩

/-- The loop that stops at the first conflict. -/
theorem follows_allOrNothing (hfails : ¬env.fails exclusionViolation) (occurrences : List Instant) :
    ∀ {tx : Tx platformSchema} {created : List Instant} {made : List OccurrenceRows}
      {post : Tx platformSchema → Except Thrown (List Instant × List Instant) → Prop},
      InSeries db tenantId dto service recurrence tx created made →
      (∀ tx' made', InSeries db tenantId dto service recurrence tx' (created ++ occurrences) made' →
        Partitions (Free tenantId dto service db) created occurrences occurrences [] →
        (∀ o ∈ occurrences, newDate (o + lengthMs service) ≠ none) →
        post tx' (.ok (created ++ occurrences, []))) →
      (∀ tx' e, (env.Calm → (∃ o ∈ occurrences, newDate (o + lengthMs service) = none) ∨
          ¬Partitions (Free tenantId dto service db) created occurrences occurrences []) →
        post tx' (.error e)) →
      ((RecurrenceService.allOrNothing tenantId
        (occurrenceSpec dto service) recurrence.id occurrences
        created).translate bookingCommands).Follows (session db env) post tx := by
  induction occurrences with
  | nil =>
    intro tx created made post h hok _
    have hdone := hok tx made (by rwa [List.append_nil]) .nil
      (fun _ ho => absurd ho List.not_mem_nil)
    rwa [List.append_nil] at hdone
  | cons o occurrences ih =>
    intro tx created made post h hok herror
    unfold RecurrenceService.allOrNothing
    refine follows_translate_bind.2 (follows_createOccurrence h hfails ?_ ?_ ?_)
    · -- the occurrence is created, and the loop goes on
      intro tx' rows b hin _ hfree hdate
      have hassoc : created ++ [o] ++ occurrences = created ++ (o :: occurrences) := by simp
      refine ih hin ?_ ?_
      · intro tx'' made' hin' hpart hdates
        rw [hassoc] at hin' ⊢
        exact hok tx'' made' hin' (.create hfree hpart) (List.forall_mem_cons.2 ⟨hdate, hdates⟩)
      · intro tx'' e hcalm
        refine herror tx'' e fun hc => ?_
        rcases hcalm hc with ⟨o', ho', hdate'⟩ | hnot
        · exact .inl ⟨o', List.mem_cons_of_mem o ho', hdate'⟩
        · refine .inr fun hpart => ?_
          cases hpart with
          | create _ htail => exact hnot htail
    · -- the first conflict is thrown: not every occurrence is free
      intro tx' _ _ hnotFree _
      refine herror tx' _ fun _ => .inr fun hpart => ?_
      cases hpart with
      | create hfree _ => exact hnotFree hfree
    · intro tx' e _ _ _ hcalm
      exact herror tx' e fun hc => .inl ⟨o, List.mem_cons_self, hcalm hc⟩

end Occurrence

/-! ## The request -/

section Request

variable (rt : Runtime) (tenantId : Uuid) (db : Store platformSchema) (dto : CreateRecurrenceDto)

def policyOf : ConflictPolicy := dto.conflictPolicy.getD .skipConflicts

/-- The request passes the checks that come before the series is inserted. -/
structure Admitted (service : ServiceRow) (tenant : TenantRow) : Prop where
  weekdays : ¬(dto.freq = .daily ∧ (dto.weekdays.getD []).length > 0)
  serviceFound : (rowsOf db .services tenantId fun r => r.id = dto.serviceId).head? = some service
  linked : (rowsOf db .staffServices tenantId fun r =>
    r.staffId = dto.staffId ∧ r.serviceId = dto.serviceId) ≠ []
  customerFound : (rowsOf db .customers tenantId fun r => r.id = dto.customerId) ≠ []
  tenantFound : ((db .tenants).filter fun r => r.id = tenantId).head? = some tenant
  occurrences : rt.expandRecurrence (ruleOf dto tenant.timezone) ≠ []

/-- The request passes the checks, all ends are valid dates, and no occurrence is in conflict if
none may be. -/
def Acceptable : Prop :=
  ∃ service tenant, Admitted rt tenantId db dto service tenant ∧
    (∀ o ∈ rt.expandRecurrence (ruleOf dto tenant.timezone),
      newDate (o + lengthMs service) ≠ none) ∧
    (policyOf dto = .allOrNothing →
      Partitions (Free tenantId dto service db) []
        (rt.expandRecurrence (ruleOf dto tenant.timezone))
        (rt.expandRecurrence (ruleOf dto tenant.timezone)) [])

end Request

section Request

variable {rt : Runtime} {tenantId : Uuid} {db : Store platformSchema}
  {env : Environment platformSchema} {dto : CreateRecurrenceDto}

theorem Admitted.unique {service service' : ServiceRow} {tenant tenant' : TenantRow}
    (h : Admitted rt tenantId db dto service tenant)
    (h' : Admitted rt tenantId db dto service' tenant') :
    service = service' ∧ tenant = tenant' :=
  ⟨Option.some.inj (h.serviceFound.symm.trans h'.serviceFound),
    Option.some.inj (h.tenantFound.symm.trans h'.tenantFound)⟩

/-- The row of the series is inserted, or the statement fails, which it does not in calm
conditions. -/
theorem follows_insertRecurrence (tenantId : Uuid) (dto : CreateRecurrenceDto)
    (service : ServiceRow) {data : RecurrenceData}
    {post : Tx platformSchema → Except Thrown Recurrence → Prop}
    (hok : ∀ tx' recurrence, recurrence.toRecurrenceData = data →
      InSeries db tenantId dto service recurrence tx' [] [] → post tx' (.ok recurrence))
    (herror : ∀ tx' code, ¬env.Calm → post tx' (.error (.query code))) :
    ((TenantM.exec (.insertRecurrence data)).translate bookingCommands).Follows
      (session db env) post
      .idle := by
  refine session_exec.2 (issues_insert rfl ?_ ?_ ?_ ?_ ?_)
  · intro id time recurrence hrecurrence
    cases hrecurrence
    rfl
  · intro id time code _ hrecurrence
    cases hrecurrence
  · intro id time recurrence code hdraws hrecurrence hrefusal
    obtain rfl : recurrence = ⟨data, id⟩ := (Except.ok.inj hrecurrence).symm
    obtain ⟨r, hr, hconflict⟩ := List.exists_of_findSome?_eq_some hrefusal
    by_cases hid : rowId .recurrences r = rowId .recurrences (⟨data, id⟩ : Recurrence)
    · exact herror _ code fun hcalm => hcalm.2 _ id hdraws .recurrences r hr hid
    · simp only [constraint, if_neg hid, reduceCtorEq] at hconflict
  · intro id time recurrence _ hrecurrence hrefusal
    obtain rfl : recurrence = ⟨data, id⟩ := (Except.ok.inj hrecurrence).symm
    refine hok _ _ rfl ⟨rfl, ?_, .nil⟩
    -- the database with the row of the series, and nothing else
    rw [Tx.view_write]
    funext τ
    by_cases hτ : τ = .recurrences
    · subst hτ
      rw [Store.apply_put_self, upsert_of_fresh (fresh_of_refusal hrefusal)]
      rfl
    · rw [Store.apply_put_of_ne _ _ hτ]
      cases τ <;> first | exact absurd rfl hτ | exact (List.append_nil _).symm | rfl
  · intro code hcode
    exact herror _ code fun hcalm => hcalm.1 code hcode

/-- The loop of the policy, after the row of the series. -/
theorem follows_outcome (hfails : ¬env.fails exclusionViolation) {tx : Tx platformSchema}
    {service : ServiceRow} {tenant : TenantRow} {recurrence : Recurrence}
    {post : Tx platformSchema → Except Thrown RecurrenceResult → Prop}
    (hadmitted : Admitted rt tenantId db dto service tenant)
    (hrecurrence : recurrence.toRecurrenceData = seriesData tenantId dto tenant.timezone)
    (hin : InSeries db tenantId dto service recurrence tx [] [])
    (hok : ∀ tx' service tenant recurrence created skipped made,
      Admitted rt tenantId db dto service tenant →
      recurrence.toRecurrenceData = seriesData tenantId dto tenant.timezone →
      InSeries db tenantId dto service recurrence tx' created made →
      Partitions (Free tenantId dto service db) []
        (rt.expandRecurrence (ruleOf dto tenant.timezone)) created skipped →
        (∀ o ∈ rt.expandRecurrence (ruleOf dto tenant.timezone),
          newDate (o + lengthMs service) ≠ none) →
      (policyOf dto = .allOrNothing → skipped = []) →
      post tx' (.ok ⟨recurrence.id, created, skipped⟩))
    (herror : ∀ tx' e, (env.Calm → ¬Acceptable rt tenantId db dto) → post tx' (.error e)) :
    ((do
      let outcome ← match dto.conflictPolicy.getD .skipConflicts with
        | .allOrNothing =>
          RecurrenceService.allOrNothing tenantId (occurrenceSpec dto service) recurrence.id
            (rt.expandRecurrence (ruleOf dto tenant.timezone)) []
        | .skipConflicts =>
          RecurrenceService.skipConflicts tenantId (occurrenceSpec dto service) recurrence.id 0
            (rt.expandRecurrence (ruleOf dto tenant.timezone)) [] []
      return ⟨recurrence.id, outcome.1, outcome.2⟩ : TenantM RecurrenceResult).translate
        bookingCommands).Follows (session db env) post tx := by
  -- an acceptable request has the same service and the same tenant
  have hdates : Acceptable rt tenantId db dto →
      (∀ o ∈ rt.expandRecurrence (ruleOf dto tenant.timezone),
        newDate (o + lengthMs service) ≠ none) ∧
      (policyOf dto = .allOrNothing →
        Partitions (Free tenantId dto service db) []
          (rt.expandRecurrence (ruleOf dto tenant.timezone))
          (rt.expandRecurrence (ruleOf dto tenant.timezone)) []) := by
    rintro ⟨service', tenant', hadmitted', hdates, hpart⟩
    obtain ⟨rfl, rfl⟩ := hadmitted.unique hadmitted'
    exact ⟨hdates, hpart⟩
  cases hpolicy : dto.conflictPolicy.getD .skipConflicts with
  | allOrNothing =>
    refine follows_translate_bind.2 (follows_allOrNothing hfails _ hin ?_ ?_)
    · intro tx' made hin' hpart hvalid
      exact hok tx' service tenant recurrence _ [] made hadmitted hrecurrence hin' hpart
        hvalid fun _ => rfl
    · intro tx' e hcalm
      refine herror tx' e fun hc hacceptable => ?_
      rcases hcalm hc with ⟨o, ho, hdate⟩ | hnot
      · exact (hdates hacceptable).1 o ho hdate
      · exact hnot ((hdates hacceptable).2 hpolicy)
  | skipConflicts =>
    refine follows_translate_bind.2 (follows_skipConflicts hfails _ 0 hin ?_ ?_)
    · intro tx' created skipped made hin' hpart hvalid
      have hskips : policyOf dto = .allOrNothing → skipped = [] := fun h =>
        nomatch hpolicy.symm.trans h
      exact hok tx' service tenant recurrence created skipped made hadmitted hrecurrence
        hin' hpart hvalid
        hskips
    · intro tx' e hcalm
      refine herror tx' e fun hc hacceptable => ?_
      obtain ⟨o, ho, hdate⟩ := hcalm hc
      exact (hdates hacceptable).1 o ho hdate

/-- `RecurrenceService.create`: the series of the occurrences that are created, or an error, which
in calm conditions says that the request is not acceptable. -/
theorem follows_create (hfails : ¬env.fails exclusionViolation)
    {post : Tx platformSchema → Except Thrown RecurrenceResult → Prop}
    (hok : ∀ tx' service tenant recurrence created skipped made,
      Admitted rt tenantId db dto service tenant →
      recurrence.toRecurrenceData = seriesData tenantId dto tenant.timezone →
      InSeries db tenantId dto service recurrence tx' created made →
      Partitions (Free tenantId dto service db) []
        (rt.expandRecurrence (ruleOf dto tenant.timezone)) created skipped →
        (∀ o ∈ rt.expandRecurrence (ruleOf dto tenant.timezone),
          newDate (o + lengthMs service) ≠ none) →
      (policyOf dto = .allOrNothing → skipped = []) →
      post tx' (.ok ⟨recurrence.id, created, skipped⟩))
    (herror : ∀ tx' e, (env.Calm → ¬Acceptable rt tenantId db dto) → post tx' (.error e)) :
    ((RecurrenceService.create rt tenantId dto).translate bookingCommands).Follows
      (session db env) post
      .idle := by
  have hfail : ∀ tx' code, env.fails code → post tx' (.error (.query code)) := fun tx' code hcode =>
    herror tx' _ fun hcalm => absurd hcode (hcalm.1 code)
  -- a check that fails is one that an acceptable request passes
  have hrefuse : ∀ tx' e, (∀ service tenant, ¬Admitted rt tenantId db dto service tenant) →
      post tx' (.error e) := fun tx' e hnot =>
    herror tx' e fun _ hacceptable => by
      obtain ⟨service, tenant, hadmitted, -⟩ := hacceptable
      exact hnot service tenant hadmitted
  unfold RecurrenceService.create
  by_cases hweekdays : dto.freq = .daily ∧ (dto.weekdays.getD []).length > 0
  · rw [if_pos hweekdays]
    exact hrefuse _ _ fun service tenant hadmitted => hadmitted.weekdays hweekdays
  · rw [if_neg hweekdays]
    refine follows_translate_bind.2 (session_getService rfl ?_ ?_ hfail)
    · intro service hservice
      refine follows_translate_bind.2 (session_canPerform rfl ?_ ?_ hfail)
      · intro hlinked
        refine follows_translate_bind.2 (session_getCustomer rfl ?_ ?_ hfail)
        · intro customer hcustomer
          refine follows_translate_bind.2 (session_getTenant rfl ?_ ?_ hfail)
          · intro tenant htenant
            by_cases hnone : (rt.expandRecurrence (ruleOf dto tenant.timezone)).length = 0
            · change ((if (rt.expandRecurrence (ruleOf dto tenant.timezone)).length =
                0 then _ else _ :
                TenantM RecurrenceResult).translate bookingCommands).Follows (session db env) post _
              rw [if_pos hnone]
              refine hrefuse _ _ fun service' tenant' hadmitted => hadmitted.occurrences ?_
              rw [← Option.some.inj (htenant.symm.trans hadmitted.tenantFound)]
              exact List.length_eq_zero_iff.1 hnone
            · change ((if (rt.expandRecurrence (ruleOf dto tenant.timezone)).length =
                0 then _ else _ :
                TenantM RecurrenceResult).translate bookingCommands).Follows (session db env) post _
              rw [if_neg hnone]
              have hadmitted : Admitted rt tenantId db dto service tenant :=
                ⟨hweekdays, hservice, hlinked, hcustomer, htenant, fun h => hnone (by rw [h]; rfl)⟩
              refine follows_translate_bind.2 (follows_insertRecurrence tenantId dto service ?_ ?_)
              · intro tx' recurrence hrecurrence hin
                exact follows_outcome hfails hadmitted hrecurrence hin hok herror
              · intro tx' code hcalm
                exact herror tx' _ fun hc => absurd hc hcalm
          · intro e hmissing
            refine hrefuse _ _ fun service' tenant' hadmitted => ?_
            exact nomatch hmissing.symm.trans hadmitted.tenantFound
        · intro e hmissing
          exact hrefuse _ _ fun _ _ hadmitted => hadmitted.customerFound hmissing
      · intro hunlinked
        exact hrefuse _ _ fun _ _ hadmitted => hadmitted.linked hunlinked
    · intro e hmissing
      refine hrefuse _ _ fun service' tenant' hadmitted => ?_
      exact nomatch hmissing.symm.trans hadmitted.serviceFound

end Request

/-! ## Runs of the request -/

section Run

variable {supply : ℕ → Uuid × ℤ} {fault : ℕ → Option SqlState} {db : Store platformSchema}

/-- `POST /recurrences`, run alone from a state. -/
def runRecurrence (rt : Runtime) (supply : ℕ → Uuid × ℤ) (fault : ℕ → Option SqlState)
    (tenantId : Uuid) (dto : CreateRecurrenceDto) (db : Store platformSchema) (n : ℕ) :
    Except Thrown Response × Machine platformSchema :=
  ((handle rt ⟨tenantId, .createRecurrence dto⟩).translate bookingCommands).run
    (Machine.stepFaulty supply fault) ⟨db, .idle, n⟩

/-- The rows of a series with these created occurrences have been added, and nothing else. -/
def AddsSeries (rt : Runtime) (tenantId : Uuid) (dto : CreateRecurrenceDto)
    (db : Store platformSchema) (recurrenceId : Uuid) (created : List Instant)
    (after : Store platformSchema) : Prop :=
  ∃ service tenant recurrence made, Admitted rt tenantId db dto service tenant ∧
    recurrence.id = recurrenceId ∧
    recurrence.toRecurrenceData = seriesData tenantId dto tenant.timezone ∧
    List.Forall₂ (MadeBy tenantId dto service recurrence.id) created made ∧
    after = withSeries db recurrence made

/-- What a request does: an error leaves all rows as they were; otherwise the occurrences are
partitioned, nothing is skipped if the series is all or nothing, and the rows of the created ones
are added. -/
structure CreatesSeries (rt : Runtime) (tenantId : Uuid) (dto : CreateRecurrenceDto)
    (db : Store platformSchema) (r : Except Thrown Response) (after : Store platformSchema) :
    Prop where
  failed : ∀ e, r = .error e → after = db
  created : ∀ response, r = .ok response → ∃ recurrenceId created skipped,
    response = .recurrence ⟨recurrenceId, created, skipped⟩ ∧
    (∃ service tenant, Admitted rt tenantId db dto service tenant ∧
      Partitions (Free tenantId dto service db) []
        (rt.expandRecurrence (ruleOf dto tenant.timezone))
        created skipped) ∧
    (policyOf dto = .allOrNothing → skipped = []) ∧
    AddsSeries rt tenantId dto db recurrenceId created after

/-- What the body of the request does in an environment. -/
theorem follows_route {rt : Runtime} {tenantId : Uuid} {dto : CreateRecurrenceDto}
    {env : Environment platformSchema} (hfails : ¬env.fails exclusionViolation) :
    ((route rt ⟨tenantId, .createRecurrence dto⟩).translate bookingCommands).Follows
      (session db env) (fun tx r =>
        (∀ response, r = .ok response → tx.aborted = false ∧ Acceptable rt tenantId db dto ∧
          CreatesSeries rt tenantId dto db r (tx.view db)) ∧
        ∀ e, r = .error e → env.Calm → ¬Acceptable rt tenantId db dto) .idle := by
  refine follows_translate_bind.2 (follows_create hfails ?_ ?_)
  · intro tx service tenant recurrence created skipped made hadmitted hrecurrence hin hpart
      hdates hskips
    refine ⟨fun response hresponse => ⟨hin.running, ?_, ?_⟩, fun e he => (nomatch he)⟩
    · -- under `all_or_nothing` nothing is skipped, so that all are created
      refine ⟨service, tenant, hadmitted, hdates, fun hpolicy => ?_⟩
      have hnone := hskips hpolicy
      subst hnone
      have hcreated := hpart.all_created
      rwa [hcreated] at hpart
    · refine ⟨fun e he => (nomatch hresponse.symm.trans he), fun response' hresponse' => ?_⟩
      exact ⟨recurrence.id, created, skipped, (Except.ok.inj hresponse').symm,
        ⟨service, tenant, hadmitted, hpart⟩, hskips, service, tenant, recurrence, made,
        hadmitted, rfl, hrecurrence, hin.made, hin.view⟩
  · intro tx e hcalm
    exact ⟨fun response h => (nomatch h), fun e' _ => hcalm⟩

variable {rt : Runtime} {tenantId : Uuid} {dto : CreateRecurrenceDto} {n : ℕ}

/-- The request in any environment whose conflicts are those of the constraint. -/
theorem runRecurrence_creates (hfault : ∀ k, fault k ≠ some exclusionViolation) :
    CreatesSeries rt tenantId dto db (runRecurrence rt supply fault tenantId dto db n).1
      (runRecurrence rt supply fault tenantId dto db n).2.store := by
  -- faults of any kind, but for the code of the constraint
  let env : Environment platformSchema := anyDraws platformSchema (· ≠ exclusionViolation)
  have hsupplies : Supplies db env supply fault fun _ _ => True :=
    any_supplies db supply fun k code hcode heq => hfault k (heq ▸ hcode)
  have hfollows := @follows_route db rt tenantId dto env fun h => h rfl
  unfold runRecurrence handle
  rcases run_request (n := n) hsupplies hfollows trivial with
    ⟨e, m, hrun, hstore, -⟩ | ⟨response, tx, m, hrun, hstore, hpost⟩
  · rw [hrun]
    exact ⟨fun _ _ => hstore, fun response h => (nomatch h)⟩
  · obtain ⟨hrunning, -, hcreates⟩ := hpost.1 response rfl
    rw [hrunning] at hstore
    rw [hrun]
    change CreatesSeries rt tenantId dto db (.ok response) m.store
    rw [hstore]
    exact hcreates

/-- In calm conditions, a request succeeds exactly if it is acceptable. -/
theorem runRecurrence_ok_iff (hunused : Unused db supply n .idle)
    (hdistinct : Function.Injective fun n => (supply n).1) :
    (∃ response, (runRecurrence rt supply (fun _ => none) tenantId dto db n).1 = .ok response) ↔
      Acceptable rt tenantId db dto := by
  have hfollows := @follows_route db rt tenantId dto (calm platformSchema) fun h => h
  unfold runRecurrence handle
  rcases run_request (fresh_supplies db hdistinct) hfollows hunused with
    ⟨e, m, hrun, -, he⟩ | ⟨response, tx, m, hrun, -, hpost⟩
  · rw [hrun]
    constructor
    · rintro ⟨response, h⟩
      cases h
    · intro hacceptable
      -- the body has thrown, for no statement fails here
      rcases he with ⟨tx, e', hpost⟩ | ⟨k, code, hcode⟩
      · exact absurd hacceptable (hpost.2 e' rfl calm_calm)
      · cases hcode
  · rw [hrun]
    exact ⟨fun _ => (hpost.1 response rfl).2.1, fun _ => ⟨response, rfl⟩⟩

/-! ## The two policies -/

/-- The request with another policy. -/
def withPolicy (dto : CreateRecurrenceDto) (policy : ConflictPolicy) : CreateRecurrenceDto :=
  { dto with conflictPolicy := some policy }

/-- No occurrence of the request is in conflict, with a booking or with another occurrence. -/
def NoConflict (rt : Runtime) (tenantId : Uuid) (dto : CreateRecurrenceDto)
    (db : Store platformSchema) :
    Prop :=
  ∀ service tenant, Admitted rt tenantId db dto service tenant →
    Partitions (Free tenantId dto service db) [] (rt.expandRecurrence (ruleOf dto tenant.timezone))
      (rt.expandRecurrence (ruleOf dto tenant.timezone)) []

/-- Under both policies the request fails and changes nothing, or it creates the same occurrences
and adds the same series, with ids of its own. -/
def PoliciesAgree (rt : Runtime) (supply : ℕ → Uuid × ℤ) (tenantId : Uuid)
    (dto : CreateRecurrenceDto) (db : Store platformSchema) (n : ℕ) : Prop :=
  (∀ policy, ∃ e, (runRecurrence rt supply
    (fun _ => none) tenantId (withPolicy dto policy) db n).1 = .error e ∧
    (runRecurrence rt supply (fun _ => none) tenantId (withPolicy dto policy) db n).2.store = db) ∨
  ∃ created, ∀ policy, ∃ recurrenceId,
    (runRecurrence rt supply (fun _ => none) tenantId (withPolicy dto policy) db n).1 =
      .ok (.recurrence ⟨recurrenceId, created, []⟩) ∧
    AddsSeries rt tenantId dto db recurrenceId created
      (runRecurrence rt supply (fun _ => none) tenantId (withPolicy dto policy) db n).2.store

theorem admitted_withPolicy {policy : ConflictPolicy} {service : ServiceRow} {tenant : TenantRow} :
    Admitted rt tenantId db (withPolicy dto policy) service tenant ↔
      Admitted rt tenantId db dto service tenant := by
  constructor
  · rintro ⟨hweekdays, hservice, hlinked, hcustomer, htenant, hoccurrences⟩
    exact ⟨hweekdays, hservice, hlinked, hcustomer, htenant, hoccurrences⟩
  · rintro ⟨hweekdays, hservice, hlinked, hcustomer, htenant, hoccurrences⟩
    exact ⟨hweekdays, hservice, hlinked, hcustomer, htenant, hoccurrences⟩

/-- The division into created and skipped occurrences is determined. -/
theorem Partitions.unique {free : List Instant → Instant → Prop}
    {earlier occurrences created skipped created' skipped' : List Instant}
    (h : Partitions free earlier occurrences created skipped)
    (h' : Partitions free earlier occurrences created' skipped') :
    created = created' ∧ skipped = skipped' := by
  -- whether an occurrence is free decides where it goes
  induction h generalizing created' skipped' with
  | nil =>
    cases h'
    exact ⟨rfl, rfl⟩
  | create hfree _ ih =>
    cases h' with
    | create _ htail =>
      obtain ⟨rfl, rfl⟩ := ih htail
      exact ⟨rfl, rfl⟩
    | skip htaken _ => exact absurd hfree htaken
  | skip htaken _ ih =>
    cases h' with
    | create hfree _ => exact absurd hfree htaken
    | skip _ htail =>
      obtain ⟨rfl, rfl⟩ := ih htail
      exact ⟨rfl, rfl⟩

theorem policies_agree (hunused : Unused db supply n .idle)
    (hdistinct : Function.Injective fun n => (supply n).1)
    (hnoConflict : NoConflict rt tenantId dto db) :
    PoliciesAgree rt supply tenantId dto db n := by
  -- without a conflict, the policy does not matter for the request to be acceptable
  have hacceptable : ∀ policy, Acceptable rt tenantId db (withPolicy dto policy) ↔
      ∃ service tenant, Admitted rt tenantId db dto service tenant ∧
        ∀ o ∈ rt.expandRecurrence (ruleOf dto tenant.timezone),
          newDate (o + lengthMs service) ≠ none := by
    intro policy
    constructor
    · rintro ⟨service, tenant, hadmitted, hdates, -⟩
      exact ⟨service, tenant, admitted_withPolicy.1 hadmitted, hdates⟩
    · rintro ⟨service, tenant, hadmitted, hdates⟩
      exact ⟨service, tenant, admitted_withPolicy.2 hadmitted, hdates,
        fun _ => hnoConflict service tenant hadmitted⟩
  have hnoFault : ∀ k : ℕ, (fun _ => none : ℕ → Option SqlState) k ≠ some exclusionViolation :=
    fun _ h => nomatch h
  by_cases hvalid : ∃ service tenant, Admitted rt tenantId db dto service tenant ∧
      ∀ o ∈ rt.expandRecurrence (ruleOf dto tenant.timezone), newDate (o + lengthMs service) ≠ none
  · obtain ⟨service, tenant, hadmitted, -⟩ := id hvalid
    refine .inr ⟨rt.expandRecurrence (ruleOf dto tenant.timezone), fun policy => ?_⟩
    obtain ⟨response, hresponse⟩ :=
      (runRecurrence_ok_iff hunused hdistinct).2 ((hacceptable policy).2 hvalid)
    obtain ⟨recurrenceId, created, skipped, rfl,
        ⟨service', tenant', hadmitted', hpart⟩, -, hadds⟩ :=
      (runRecurrence_creates hnoFault).created response hresponse
    obtain ⟨rfl, rfl⟩ := hadmitted.unique (admitted_withPolicy.1 hadmitted')
    obtain ⟨hcreated, hskipped⟩ := hpart.unique (hnoConflict service tenant hadmitted)
    subst hcreated hskipped
    refine ⟨recurrenceId, hresponse, ?_⟩
    obtain ⟨service', tenant', recurrence, made, hadmitted', hid, hdata, hmade, hafter⟩ := hadds
    exact ⟨service', tenant', recurrence, made, admitted_withPolicy.1 hadmitted', hid, hdata,
      hmade, hafter⟩
  · refine .inl fun policy => ?_
    cases hrun : (runRecurrence rt supply
        (fun _ => none) tenantId (withPolicy dto policy) db n).1 with
    | error e => exact ⟨e, rfl, (runRecurrence_creates hnoFault).failed e hrun⟩
    | ok response =>
      have hok := (runRecurrence_ok_iff hunused hdistinct).1 ⟨response, hrun⟩
      exact absurd ((hacceptable policy).1 hok) hvalid

/-- Creating a series is atomic under either policy, whatever fails. If nothing fails, a request
succeeds exactly if it is acceptable, for which a conflict matters under `all_or_nothing` only, and
without a conflict the two policies commit the same. -/
theorem createRecurrence_atomic (rt : Runtime) (supply : ℕ → Uuid × ℤ) (fault : ℕ → Option SqlState)
    (tenantId : Uuid) (dto : CreateRecurrenceDto) (db : Store platformSchema) (n : ℕ)
    (hfault : ∀ k, fault k ≠ some exclusionViolation) :
    CreatesSeries rt tenantId dto db (runRecurrence rt supply fault tenantId dto db n).1
        (runRecurrence rt supply fault tenantId dto db n).2.store ∧
      (Unused db supply n .idle → (Function.Injective fun n => (supply n).1) →
        ((∃ response, (runRecurrence rt supply (fun _ => none) tenantId dto db n).1 =
          .ok response) ↔
          Acceptable rt tenantId db dto) ∧
        (NoConflict rt tenantId dto db → PoliciesAgree rt supply tenantId dto db n)) := by
  refine ⟨runRecurrence_creates hfault, fun hunused hdistinct => ⟨?_, ?_⟩⟩
  · exact runRecurrence_ok_iff hunused hdistinct
  · exact policies_agree hunused hdistinct

end Run

/-! ## A sample series -/

/-- Two occurrences, at midnight of two days. -/
def sampleExpansion : Runtime :=
  ⟨fun _ => none, fun dto => dto.startsAt, fun _ => "booking", fun _ => [0, 86400000]⟩

def sampleSeries : CreateRecurrenceDto where
  staffId := 10
  serviceId := 20
  customerId := 30
  freq := .daily
  interval := 1
  weekdays := none
  startDate := "1970-01-01"
  startMinutes := 0
  count := some 2
  untilDate := none
  conflictPolicy := none

/-- One booking, between the two occurrences. -/
def sampleSeriesDb : Store platformSchema :=
  sampleTenant "UTC" (sampleService 0) [] [sampleBookingAt 1800000 3600000]

/-- One booking, at the first occurrence. -/
def takenSeriesDb : Store platformSchema :=
  sampleTenant "UTC" (sampleService 0) [] [sampleBookingAt 900000 1800000]

theorem sampleSeries_free {bookings : List StoredBooking} {o : Instant}
    (hfree : ∀ b ∈ bookings, ¬Occupies 1 10 ⟨o, o + 1800000⟩ b) {created : List Instant}
    (hcreated : ∀ o' ∈ created, ¬max o' o < min (o' + 1800000) (o + 1800000)) :
    Free 1 sampleSeries (sampleService 0)
      (sampleTenant "UTC" (sampleService 0) [] bookings) created o :=
  ⟨hfree, hcreated⟩

theorem sampleSeries_noConflict : NoConflict sampleExpansion 1 sampleSeries sampleSeriesDb := by
  intro service tenant hadmitted
  obtain rfl : sampleService 0 = service := Option.some.inj hadmitted.serviceFound
  exact .create (sampleSeries_free (by decide) (by decide))
    (.create (sampleSeries_free (by decide) (by decide)) .nil)

/-- The first occurrence is in conflict with the booking. -/
theorem takenSeries_partition :
    Partitions (Free 1 sampleSeries (sampleService 0) takenSeriesDb) [] [0, 86400000]
    [86400000] [0] := by
  refine .skip ?_ (.create (sampleSeries_free (by decide) (by decide)) .nil)
  rintro ⟨hfree, -⟩
  exact hfree (sampleBookingAt 900000 1800000) (List.mem_singleton.2 rfl) (by decide)

theorem takenSeries_acceptable : Acceptable sampleExpansion 1 takenSeriesDb sampleSeries := by
  refine ⟨sampleService 0, ⟨⟨"UTC"⟩, 1⟩, ?_, ?_, ?_⟩
  · constructor
    case weekdays => decide
    case serviceFound => rfl
    case linked => exact List.cons_ne_nil _ _
    case customerFound => exact List.cons_ne_nil _ _
    case tenantFound => rfl
    case occurrences => exact List.cons_ne_nil _ _
  · intro o ho
    have ho : o = 0 ∨ o = 86400000 := by simpa [sampleExpansion] using ho
    rcases ho with rfl | rfl
    · decide
    · decide
  · -- the policy is `skip_conflicts`
    intro hpolicy
    cases hpolicy

/-- Without a conflict the policies agree, and a series whose first occurrence is taken is created
without it. -/
theorem createRecurrence_atomic_sample :
    PoliciesAgree sampleExpansion sampleSupply 1 sampleSeries sampleSeriesDb 0 ∧
      ∃ recurrenceId, (runRecurrence sampleExpansion sampleSupply
        (fun _ => none) 1 sampleSeries takenSeriesDb 0).1 =
        .ok (.recurrence ⟨recurrenceId, [86400000], [0]⟩) := by
  have hdistinct : Function.Injective fun n => (sampleSupply n).1 := fun _ _ h =>
    Nat.add_left_cancel h
  have hunused : ∀ {db : Store platformSchema}, FreshIds sampleSupply db →
      Unused db sampleSupply 0 .idle :=
    fun hfresh => ⟨fun k _ => hfresh k, fun _ _ _ _ h => absurd h List.not_mem_nil⟩
  have hfree : FreshIds sampleSupply sampleSeriesDb := fresh_of_lt fun τ => by cases τ <;> decide
  have htaken : FreshIds sampleSupply takenSeriesDb := fresh_of_lt fun τ => by cases τ <;> decide
  constructor
  · have hatomic := createRecurrence_atomic sampleExpansion sampleSupply
      (fun _ => none) 1 sampleSeries sampleSeriesDb 0
      fun _ h => nomatch h
    exact (hatomic.2 (hunused hfree) hdistinct).2 sampleSeries_noConflict
  · obtain ⟨hcreates, hcalm⟩ :=
      createRecurrence_atomic sampleExpansion sampleSupply (fun _ => none) 1 sampleSeries
      takenSeriesDb 0 fun _ h => nomatch h
    obtain ⟨response, hok⟩ := (hcalm (hunused htaken) hdistinct).1.2 takenSeries_acceptable
    obtain ⟨recurrenceId, created, skipped, rfl, ⟨service, tenant, hadmitted, hpart⟩, -, -⟩ :=
      hcreates.created response hok
    obtain rfl : sampleService 0 = service := Option.some.inj hadmitted.serviceFound
    -- the division is determined: the first is skipped, the second created
    obtain ⟨rfl, rfl⟩ := hpart.unique takenSeries_partition
    exact ⟨recurrenceId, hok⟩

end BookingPlatform
