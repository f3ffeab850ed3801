import BookingPlatform.Availability.Placement
import BookingPlatform.Platform.Transaction

/-!
# Booking Statements in a Session

What the lookups, the inserts and the transaction of a booking request do in one session, for all
ids that can be drawn and all statements that can fail. A result that depends on a statement not
failing says so by `Environment.Calm`.

## Main definitions

- `BookingData.Stores`: the interval that an insert stores.

## Main results

- `session_getService`, `session_canPerform`, …: one rule a lookup.
- `follows_insertBooking`: the three outcomes of an insert.
- `run_inTransaction`: what a request commits.
-/

namespace BookingPlatform

open Library BaseTenantRepository

variable {db : Store platformSchema} {env : Environment platformSchema} {tx : Tx platformSchema}
  {tenantId : Uuid} {α β : Type}

/-! ## Statements and sequences -/

section Translate

variable {Φ : Type} {P : Protocol (storeSignature platformSchema) Φ} {ph : Φ}

theorem session_exec {s : Statement} {post : Φ → Except Thrown s.Result → Prop} :
    ((TenantM.exec s).translate bookingCommands).Follows P post ph ↔
      P.Issues ph (bookingCommand s) fun ph' r => match bookingAnswer s r with
        | .ok v => post ph' (.ok v)
        | .error code => post ph' (.error (.query code)) := by
  refine Protocol.issues_congr fun ph' r => ?_
  dsimp only [bookingCommands]
  cases bookingAnswer s r with
  | ok v => exact Iff.rfl
  | error code => exact Iff.rfl

theorem follows_translate_bind {p : TenantM α} {f : α → TenantM β}
    {post : Φ → Except Thrown β → Prop} :
    ((p >>= f).translate bookingCommands).Follows P post ph ↔
      (p.translate bookingCommands).Follows P (fun ph' r => match r with
        | .ok a => ((f a).translate bookingCommands).Follows P post ph'
        | .error e => post ph' (.error e)) ph := by
  rw [Prog.translate_bind, Prog.follows_bind]
  exact Prog.follows_congr fun _ r => by cases r <;> exact Iff.rfl

theorem follows_translate_tryCatch {p : TenantM α} {handler : Thrown → TenantM α}
    {post : Φ → Except Thrown α → Prop} :
    ((p.tryCatch handler).translate bookingCommands).Follows P post ph ↔
      (p.translate bookingCommands).Follows P (fun ph' r => match r with
        | .ok a => post ph' (.ok a)
        | .error e => ((handler e).translate bookingCommands).Follows P post ph') ph := by
  rw [Prog.translate_tryCatch, Prog.follows_tryCatch]
  exact Prog.follows_congr fun _ r => by cases r <;> exact Iff.rfl

end Translate

/-! ## Lookups -/

/-- A booking request finds a service by its id. -/
theorem filter_service (db : Store platformSchema) (tenantId id : Uuid) :
    (db .services).filter (fun r => r.id = id ∧ r.tenantId = tenantId ∧ r.deletedAt = none) =
      rowsOf db .services tenantId fun r => r.id = id :=
  filter_eq_rowsOf .services fun r => by simp [rowTenant, rowLive]

theorem filter_link (db : Store platformSchema) (tenantId staffId serviceId : Uuid) :
    (db .staffServices).filter
        (fun r => r.staffId = staffId ∧ r.serviceId = serviceId ∧ r.tenantId = tenantId) =
      rowsOf db .staffServices tenantId fun r => r.staffId = staffId ∧ r.serviceId = serviceId :=
  filter_eq_rowsOf .staffServices fun r => by simp [rowTenant, rowLive, and_assoc]

theorem filter_customer (db : Store platformSchema) (tenantId id : Uuid) :
    (db .customers).filter (fun r => r.id = id ∧ r.tenantId = tenantId ∧ r.deletedAt = none) =
      rowsOf db .customers tenantId fun r => r.id = id :=
  filter_eq_rowsOf .customers fun r => by simp [rowTenant, rowLive]

section Lookups

variable (hrunning : tx.aborted = false)

include hrunning

theorem session_getService {id : Uuid} {post : Tx platformSchema → Except Thrown Service → Prop}
    (hfound : ∀ service, (rowsOf (tx.view db) .services tenantId fun r =>
      r.id = id).head? = some service →
      post tx (.ok service.toService))
    (hmissing : ∀ e, (rowsOf (tx.view db) .services tenantId fun r => r.id = id).head? = none →
      post tx (.error e))
    (hfail : ∀ tx' code, env.fails code → post tx' (.error (.query code))) :
    ((TenantM.getService tenantId id).translate bookingCommands).Follows
      (session db env) post tx := by
  unfold TenantM.getService
  refine follows_translate_bind.2 (session_exec.2 (issues_select hrunning ?_ (hfail _)))
  rw [filter_service]
  cases hlist : rowsOf (tx.view db) .services tenantId fun r => r.id = id with
  | nil => exact hmissing _ (congrArg List.head? hlist)
  | cons r rows => exact hfound r (congrArg List.head? hlist)

theorem session_canPerform {staffId serviceId : Uuid}
    {post : Tx platformSchema → Except Thrown Bool → Prop}
    (hlinked : (rowsOf (tx.view db) .staffServices tenantId fun r =>
      r.staffId = staffId ∧ r.serviceId = serviceId) ≠ [] → post tx (.ok true))
    (hunlinked : (rowsOf (tx.view db) .staffServices tenantId fun r =>
      r.staffId = staffId ∧ r.serviceId = serviceId) = [] → post tx (.ok false))
    (hfail : ∀ tx' code, env.fails code → post tx' (.error (.query code))) :
    ((TenantM.canPerform tenantId staffId serviceId).translate bookingCommands).Follows
      (session db env)
      post tx := by
  unfold TenantM.canPerform
  refine follows_translate_bind.2 (session_exec.2 (issues_select hrunning ?_ (hfail _)))
  rw [filter_link]
  cases hlist : rowsOf (tx.view db) .staffServices tenantId
      fun r => r.staffId = staffId ∧ r.serviceId = serviceId with
  | nil => exact hunlinked hlist
  | cons r rows => exact hlinked (hlist ▸ List.cons_ne_nil r rows)

theorem session_getCustomer {id : Uuid} {post : Tx platformSchema → Except Thrown Customer → Prop}
    (hfound : ∀ customer, (rowsOf (tx.view db) .customers tenantId fun r => r.id = id) ≠ [] →
      post tx (.ok customer))
    (hmissing : ∀ e, (rowsOf (tx.view db) .customers tenantId fun r => r.id = id) = [] →
      post tx (.error e))
    (hfail : ∀ tx' code, env.fails code → post tx' (.error (.query code))) :
    ((TenantM.getCustomer tenantId id).translate bookingCommands).Follows
      (session db env) post tx := by
  unfold TenantM.getCustomer
  refine follows_translate_bind.2 (session_exec.2 (issues_select hrunning ?_ (hfail _)))
  rw [filter_customer]
  cases hlist : rowsOf (tx.view db) .customers tenantId fun r => r.id = id with
  | nil => exact hmissing _ hlist
  | cons r rows => exact hfound _ (hlist ▸ List.cons_ne_nil r rows)

theorem session_getTenant {post : Tx platformSchema → Except Thrown Tenant → Prop}
    (hfound : ∀ tenant, ((tx.view db .tenants).filter fun r =>
      r.id = tenantId).head? = some tenant →
      post tx (.ok tenant.toTenant))
    (hmissing : ∀ e, ((tx.view db .tenants).filter fun r => r.id = tenantId).head? = none →
      post tx (.error e))
    (hfail : ∀ tx' code, env.fails code → post tx' (.error (.query code))) :
    ((TenantM.getTenant tenantId).translate bookingCommands).Follows (session db env) post tx := by
  unfold TenantM.getTenant
  refine follows_translate_bind.2 (session_exec.2 (issues_select hrunning ?_ (hfail _)))
  cases hlist : (tx.view db .tenants).filter fun r => r.id = tenantId with
  | nil => exact hmissing _ (congrArg List.head? hlist)
  | cons r rows => exact hfound r (congrArg List.head? hlist)

end Lookups

/-! ## Inserts -/

/-- A row that the constraints admit has a new id. -/
theorem fresh_of_refusal {τ : TableName} {rows : List (Row τ)} {r : Row τ}
    (h : refusal (D := platformSchema) rows r = none) : ∀ r' ∈ rows, rowId τ r' ≠ rowId τ r := by
  intro r' hr' hid
  have hnone := List.findSome?_eq_none_iff.1 h r' hr'
  simp only [hid, if_true, reduceCtorEq] at hnone

/-- The insert stores the interval: both dates are valid, and in order. -/
structure BookingData.Stores (data : BookingData) (slot : MsInterval) : Prop where
  start : data.startsAt = some slot.start
  stop : data.endsAt = some slot.stop
  ordered : slot.start ≤ slot.stop

/-- The row that an insert makes. -/
def BookingData.storedRow (data : BookingData) (slot : MsInterval) (id : Uuid) : StoredBooking where
  id
  tenantId := data.tenantId
  staffId := data.staffId
  serviceId := data.serviceId
  customerId := data.customerId
  startsAt := slot.start
  endsAt := slot.stop
  status := data.status
  priceAmount := data.priceAmount
  priceCurrency := data.priceCurrency
  recurrenceId := data.recurrenceId
  version := 1
  deletedAt := none

theorem BookingData.Stores.unique {data : BookingData} {slot slot' : MsInterval}
    (h : data.Stores slot) (h' : data.Stores slot') : slot = slot' := by
  have hstart := Option.some.inj (h.start.symm.trans h'.start)
  have hstop := Option.some.inj (h.stop.symm.trans h'.stop)
  cases slot
  cases slot'
  cases hstart
  cases hstop
  rfl

/-- A row is made of the interval that is stored, and there is no other reason for an error. -/
theorem BookingData.stored_cases (data : BookingData) (id : Uuid) :
    (∃ slot, data.Stores slot ∧ data.stored id = .ok (data.storedRow slot id)) ∨
      (∀ slot, ¬data.Stores slot) ∧ ∃ code, code ≠ exclusionViolation ∧
      data.stored id = .error code := by
  unfold BookingData.stored BookingData.row
  cases hstart : data.startsAt with
  | none =>
    refine .inr ⟨fun slot h => ?_, "22007", by decide, rfl⟩
    cases hstart.symm.trans h.start
  | some s =>
    cases hstop : data.endsAt with
    | none =>
      refine .inr ⟨fun slot h => ?_, "22007", by decide, rfl⟩
      cases hstop.symm.trans h.stop
    | some e =>
      -- a range must not end before it starts
      by_cases hle : s ≤ e
      · refine .inl ⟨⟨s, e⟩, ⟨hstart, hstop, hle⟩, ?_⟩
        simp [checkedRange, hle, BookingData.storedRow]
      · refine .inr ⟨fun slot h => hle ?_, "22000", by decide, ?_⟩
        · rw [Option.some.inj (hstart.symm.trans h.start),
            Option.some.inj (hstop.symm.trans h.stop)]
          exact h.ordered
        · simp [checkedRange, hle]

/-- The insert of an active booking: a new row if its interval is free, the conflict if it is not,
or another error, which in calm conditions says that there is no interval to store. -/
theorem follows_insertBooking (data : BookingData) (hrunning : tx.aborted = false)
    (hactive : data.status ∈ activeBookingStatuses) (hfails : ¬env.fails exclusionViolation)
    {post : Tx platformSchema → Except Thrown Booking → Prop}
    (hok : ∀ slot row, data.Stores slot → row = data.storedRow slot row.id →
      (∀ b ∈ tx.view db .bookings, rowId .bookings b ≠ row.id) →
      (∀ b ∈ tx.view db .bookings, ¬Occupies data.tenantId data.staffId slot b) →
      post (tx.write (.put .bookings row)) (.ok row.toBooking))
    (htaken : ∀ slot, data.Stores slot →
      (∃ b ∈ tx.view db .bookings, Occupies data.tenantId data.staffId slot b) →
      post tx.abort (.error (.app slotTaken)))
    (herror : ∀ e, BookingService.isSlotTaken e = false → (env.Calm → ∀ slot, ¬data.Stores slot) →
      post tx.abort (.error e)) :
    ((BookingRepository.create data).translate bookingCommands).Follows
      (session db env) post tx := by
  have hquery : ∀ code, code ≠ exclusionViolation → (env.Calm → ∀ slot, ¬data.Stores slot) →
      post tx.abort (.error (BookingRepository.mapSlotConflict (.query code))) := by
    intro code hcode hcalm
    rw [BookingRepository.mapSlotConflict, if_neg hcode]
    exact herror (.query code) rfl hcalm
  have hmade : ∀ id row, data.stored id = .ok row →
      ∃ slot, data.Stores slot ∧ row = data.storedRow slot id := by
    intro id row hrow
    rcases data.stored_cases id with ⟨slot, hstores, hstored⟩ | ⟨-, code, -, hstored⟩
    · exact ⟨slot, hstores, Except.ok.inj (hrow.symm.trans hstored)⟩
    · cases hrow.symm.trans hstored
  have hconflict : ∀ slot id b, platformSchema.conflict .bookings b (data.storedRow slot id) =
      if b.id = id then some uniqueViolation
      else if Occupies data.tenantId data.staffId slot b then some exclusionViolation else none :=
    fun slot id b => conflict_of_active hactive rfl b
  unfold BookingRepository.create
  refine follows_translate_tryCatch.2 (session_exec.2 (issues_insert hrunning ?_ ?_ ?_ ?_ ?_))
  · intro id _ row hrow
    obtain ⟨slot, -, rfl⟩ := hmade id row hrow
    rfl
  · intro id _ code _ hrow
    rcases data.stored_cases id with ⟨slot, -, hstored⟩ | ⟨hnone, code', hcode', hstored⟩
    · cases hrow.symm.trans hstored
    · obtain rfl : code = code' := Except.error.inj (hrow.symm.trans hstored)
      exact hquery code hcode' fun _ => hnone
  · intro id _ row code hdraws hrow hrefusal
    obtain ⟨slot, hstores, rfl⟩ := hmade id row hrow
    obtain ⟨b, hb, hcode⟩ := List.exists_of_findSome?_eq_some hrefusal
    rw [hconflict] at hcode
    by_cases hid : b.id = id
    · -- the drawn id is in use
      rw [if_pos hid, Option.some.injEq] at hcode
      subst hcode
      exact hquery _ (by decide) fun hcalm => absurd hid (hcalm.2 _ id hdraws .bookings b hb)
    · rw [if_neg hid] at hcode
      by_cases hoccupies : Occupies data.tenantId data.staffId slot b
      · rw [if_pos hoccupies, Option.some.injEq] at hcode
        subst hcode
        exact htaken slot hstores ⟨b, hb, hoccupies⟩
      · rw [if_neg hoccupies] at hcode
        cases hcode
  · intro id _ row _ hrow hrefusal
    obtain ⟨slot, hstores, rfl⟩ := hmade id row hrow
    refine hok slot _ hstores rfl (fresh_of_refusal hrefusal) fun b hb hoccupies => ?_
    have hnone := List.findSome?_eq_none_iff.1 hrefusal b hb
    have hid : b.id ≠ id := fresh_of_refusal hrefusal b hb
    rw [hconflict, if_neg hid, if_pos hoccupies] at hnone
    cases hnone
  · intro code hcode
    have hne : code ≠ exclusionViolation := fun heq => hfails (heq ▸ hcode)
    exact hquery code hne fun hcalm => absurd hcode (hcalm.1 code)

/-- What the event of a booking records. -/
def createdInput (b : Booking) : RecordEventInput :=
  { aggregateType := "booking", aggregateId := b.id, eventType := "booking.created",
    payload := BookingService.payload b }

/-- The event of a booking is inserted, or the statement fails, which it does not in calm
conditions. -/
theorem session_emit (hrunning : tx.aborted = false) {b : Booking}
    {post : Tx platformSchema → Except Thrown OutboxEvent → Prop}
    (hok : ∀ event, event = eventRow tenantId (createdInput b) (event.id, event.createdAt) →
      (∀ e ∈ tx.view db .outboxEvents, rowId .outboxEvents e ≠ event.id) →
        post (tx.write (.put .outboxEvents event)) (.ok event))
    (herror : ∀ code, ¬env.Calm → post tx.abort (.error (.query code))) :
    ((BookingService.emit tenantId b "booking.created").translate bookingCommands).Follows
      (session db env) post tx := by
  unfold BookingService.emit
  refine session_exec.2 (issues_insert hrunning ?_ ?_ ?_ ?_ ?_)
  · intro id time event hevent
    cases hevent
    rfl
  · intro id time code _ hevent
    cases hevent
  · intro id time event code hdraws hevent hrefusal
    obtain rfl : event = eventRow tenantId (createdInput b) (id, time) :=
      (Except.ok.inj hevent).symm
    obtain ⟨e, he, hconflict⟩ := List.exists_of_findSome?_eq_some hrefusal
    by_cases hid : rowId .outboxEvents e =
      rowId .outboxEvents (eventRow tenantId (createdInput b) (id, time))
    · exact herror code fun hcalm => hcalm.2 _ id hdraws .outboxEvents e he hid
    · -- events have no other constraint
      simp only [constraint, if_neg hid, reduceCtorEq] at hconflict
  · intro id time event _ hevent hrefusal
    cases hevent
    exact hok _ rfl (fresh_of_refusal hrefusal)
  · intro code hcode
    exact herror code fun hcalm => hcalm.1 code hcode

/-! ## The transaction of a request -/

/-- A booking request whose statements can fail: either it throws, and the rows are as before, or
its body has returned, and what the body has written is committed. -/
theorem run_inTransaction {supply : ℕ → Uuid × ℤ} {fault : ℕ → Option SqlState} {body : TenantM α}
    {r : Except Thrown α} {m : Machine platformSchema} {n : ℕ}
    (h : (body.translate bookingCommands).run (Machine.stepFaulty supply fault) m =
      (r, ⟨db, tx, n⟩)) :
    (∃ e, ((inTransaction body).translate bookingCommands).run (Machine.stepFaulty supply fault) m =
        (.error e, ⟨db, .idle, n + 1⟩) ∧ ((∃ e', r = .error e') ∨ ∃ code, fault n = some code)) ∨
    ∃ v, ((inTransaction body).translate bookingCommands).run (Machine.stepFaulty supply fault) m =
        (.ok v, ⟨if tx.aborted then db else tx.view db, .idle, n + 1⟩) ∧ r = .ok v := by
  rw [translate_inTransaction]
  exact run_transaction h

/-- A request whose body follows the session: it throws, after its body has thrown or a statement
has failed, or it commits what the body has written. -/
theorem run_request {supply : ℕ → Uuid × ℤ} {fault : ℕ → Option SqlState}
    {J : ℕ → Tx platformSchema → Prop} (hsupplies : Supplies db env supply fault J)
    {body : TenantM α} {post : Tx platformSchema → Except Thrown α → Prop} {n : ℕ}
    (h : (body.translate bookingCommands).Follows (session db env) post .idle) (hJ : J n .idle) :
    (∃ e m, ((inTransaction body).translate bookingCommands).run (Machine.stepFaulty supply fault)
        ⟨db, .idle, n⟩ = (.error e, m) ∧ m.store = db ∧
        ((∃ tx e', post tx (.error e')) ∨ ∃ k code, fault k = some code)) ∨
    ∃ v tx m, ((inTransaction body).translate bookingCommands).run (Machine.stepFaulty supply fault)
        ⟨db, .idle, n⟩ = (.ok v, m) ∧ m.store = (if tx.aborted then db else tx.view db) ∧
        post tx (.ok v) := by
  obtain ⟨r, tx, n', hbody, hpost, -⟩ := run_of_follows hsupplies h hJ
  rcases run_inTransaction hbody with ⟨e, hrun, he⟩ | ⟨v, hrun, rfl⟩
  · refine .inl ⟨e, _, hrun, rfl, ?_⟩
    rcases he with ⟨e', rfl⟩ | ⟨code, hcode⟩
    · exact .inl ⟨tx, e', hpost⟩
    · exact .inr ⟨n', code, hcode⟩
  · exact .inr ⟨v, tx, _, hrun, rfl, hpost⟩

end BookingPlatform
