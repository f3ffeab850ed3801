import BookingPlatform.Booking.Specs

/-!
# Which Statements a Service Issues

The kinds of statements each service uses. A discipline that is about updates, keys or
savepoints only is kept by every service that has none of these in its footprint.
-/

namespace BookingPlatform

open Library TenantM

/-- What a statement is there for. -/
inductive StatementKind where
  | read
  | insert
  | update
  | series
  | key
  | savepoint
  | finish
  deriving DecidableEq, Repr

def Statement.kind : Statement → StatementKind
  | .findService .. | .findLink .. | .findCustomer .. | .findTenant .. | .findBooking .. => .read
  | .insertBooking .. | .insertEvent .. | .insertRecurrence .. => .insert
  | .updateStatus .. | .updateTimes .. => .update
  | .cancelSeries .. | .now => .series
  | .insertKey .. | .findKey .. | .updateKey .. => .key
  | .savepoint .. | .releaseSavepoint .. | .rollbackToSavepoint .. => .savepoint
  | .commit | .rollback => .finish

/-- The program issues only statements of these kinds. -/
def UsesOnly {α : Type} (kinds : List StatementKind) (p : TenantM α) : Prop :=
  p.Uses (S := Sql) fun s => s.kind ∈ kinds

/-! ## Sets of statements -/

section Sets

variable (X : Statement → Prop) (tenantId : Uuid)

/-- The lookups of a tenant are in `X`. -/
structure HasLookups : Prop where
  service : ∀ id, X (.findService tenantId id)
  link : ∀ staffId serviceId, X (.findLink tenantId staffId serviceId)
  customer : ∀ id, X (.findCustomer tenantId id)
  tenant : X (.findTenant tenantId)
  booking : ∀ id, X (.findBooking tenantId id)

/-- So are the inserts of a new booking. -/
structure HasInserts : Prop where
  booking : ∀ data, data.tenantId = tenantId → X (.insertBooking data)
  event : ∀ input, X (.insertEvent tenantId input)

structure HasSavepoints : Prop where
  set : ∀ i, X (.savepoint i)
  release : ∀ i, X (.releaseSavepoint i)
  rollback : ∀ i, X (.rollbackToSavepoint i)

variable {X tenantId} {kinds : List StatementKind}

theorem lookups_of_kind (h : .read ∈ kinds) : HasLookups (fun s => s.kind ∈ kinds) tenantId :=
  ⟨fun _ => h, fun _ _ => h, fun _ => h, h, fun _ => h⟩

theorem inserts_of_kind (h : .insert ∈ kinds) : HasInserts (fun s => s.kind ∈ kinds) tenantId :=
  ⟨fun _ _ => h, fun _ => h⟩

theorem savepoints_of_kind (h : .savepoint ∈ kinds) : HasSavepoints fun s => s.kind ∈ kinds :=
  ⟨fun _ => h, fun _ => h, fun _ => h⟩

end Sets

/-! ## Programs -/

variable {X : Statement → Prop} {α β : Type} {tenantId : Uuid}

theorem uses_ret (a : α) : (Prog.ret a : TenantM α).Uses X := fun _ => trivial

theorem uses_raise (e : Thrown) : (Prog.raise e : TenantM α).Uses X := fun _ => trivial

theorem uses_exec {s : Statement} (h : X s) : (exec s).Uses X := fun _ =>
  ⟨h, fun r _ => by cases r <;> trivial⟩

theorem uses_getService {id : Uuid} (h : X (.findService tenantId id)) :
    (getService tenantId id).Uses X :=
  (uses_exec h).bind fun r => by cases r <;> exact fun _ => trivial

theorem uses_canPerform {staffId serviceId : Uuid} (h : X (.findLink tenantId staffId serviceId)) :
    (canPerform tenantId staffId serviceId).Uses X :=
  (uses_exec h).bind fun _ => uses_ret _

theorem uses_getCustomer {id : Uuid} (h : X (.findCustomer tenantId id)) :
    (getCustomer tenantId id).Uses X :=
  (uses_exec h).bind fun r => by cases r <;> exact fun _ => trivial

theorem uses_getTenant {id : Uuid} (h : X (.findTenant id)) : (getTenant id).Uses X :=
  (uses_exec h).bind fun r => by cases r <;> exact fun _ => trivial

theorem uses_getOrThrow {id : Uuid} (h : X (.findBooking tenantId id)) :
    (BookingService.getOrThrow tenantId id).Uses X :=
  (uses_exec h).bind fun r => by cases r <;> exact fun _ => trivial

theorem uses_bookingCreate {data : BookingData} (h : X (.insertBooking data)) :
    (BookingRepository.create data).Uses X :=
  (uses_exec h).tryCatch fun _ => uses_raise _

theorem uses_emit (h : ∀ input, X (.insertEvent tenantId input)) (booking : Booking)
    (eventType : String) :
    (BookingService.emit tenantId booking eventType).Uses X :=
  uses_exec (h _)

theorem uses_doCreate (hlookups : HasLookups X tenantId) (hinserts : HasInserts X tenantId)
    (rt : Runtime) (dto : CreateBookingDto) : (BookingService.doCreate rt tenantId dto).Uses X := by
  refine (uses_getService (hlookups.service _)).bind fun service => ?_
  refine (uses_canPerform (hlookups.link _ _)).bind fun can => ?_
  split
  · exact uses_raise _
  · refine (uses_getCustomer (hlookups.customer _)).bind fun _ => ?_
    refine (uses_bookingCreate (hinserts.booking _ rfl)).bind fun booking => ?_
    exact (uses_emit hinserts.event _ _).bind fun _ => uses_ret _

theorem uses_create (hlookups : HasLookups X tenantId) (hinserts : HasInserts X tenantId)
    (hkey : ∀ s, s.kind = .key → X s) (rt : Runtime) (dto : CreateBookingDto)
    (key : Option String) :
    (BookingService.create rt tenantId dto key).Uses X := by
  unfold BookingService.create IdempotencyService.run
  split
  · exact (uses_doCreate hlookups hinserts _ _).bind fun _ => uses_ret _
  · refine (uses_exec (hkey _ rfl)).bind fun claimed => ?_
    -- a replay reads the key only
    rcases claimed with - | claimed
    · refine (uses_exec (hkey _ rfl)).bind fun existing => ?_
      rcases existing with - | existing
      · exact uses_raise _
      · dsimp only
        split
        · exact uses_raise _
        · split
          · exact uses_raise _
          · exact uses_ret _
    · refine (uses_doCreate hlookups hinserts _ _).bind fun result => ?_
      exact (uses_exec (hkey _ rfl)).bind fun _ => uses_ret _

theorem uses_createOccurrence (hinserts : HasInserts X tenantId) (spec : OccurrenceSpec)
    (recurrenceId : Uuid) :
    (BookingService.createOccurrence tenantId spec recurrenceId).Uses X := by
  refine (uses_bookingCreate (hinserts.booking _ rfl)).bind fun booking => ?_
  exact (uses_emit hinserts.event _ _).bind fun _ => uses_ret _

theorem uses_emitCancelled (hread : ∀ id, X (.findBooking tenantId id))
    (hevent : ∀ input, X (.insertEvent tenantId input)) (ids : List Uuid) :
    (BookingService.emitCancelled tenantId ids).Uses X := by
  induction ids with
  | nil => exact uses_ret _
  | cons id ids ih =>
    refine (uses_getOrThrow (hread _)).bind fun booking => ?_
    exact (uses_emit hevent _ _).bind fun _ => ih

theorem uses_cancelSeries (hread : ∀ id, X (.findBooking tenantId id))
    (hevent : ∀ input, X (.insertEvent tenantId input)) (hnow : X .now)
    (hseries : ∀ recurrenceId now, X (.cancelSeries tenantId recurrenceId now))
    (recurrenceId : Uuid) :
    (RecurrenceService.cancelSeries tenantId recurrenceId).Uses X := by
  refine (uses_exec hnow).bind fun now => ?_
  refine ((uses_exec (hseries _ _)).bind fun rows => uses_ret _).bind fun ids => ?_
  exact (uses_emitCancelled hread hevent _).bind fun _ => uses_ret _

theorem uses_transition (hread : ∀ id, X (.findBooking tenantId id))
    (hevent : ∀ input, X (.insertEvent tenantId input))
    (hupdate : ∀ id version status, X (.updateStatus tenantId id version status)) (id : Uuid)
    (version : ℤ) (target : BookingStatus) :
    (BookingService.transition tenantId id version target).Uses X := by
  refine (uses_getOrThrow (hread _)).bind fun booking => ?_
  split
  · exact uses_raise _
  · refine ((uses_exec (hupdate _ _ _)).bind fun _ => uses_ret _).bind fun applied => ?_
    split
    · exact uses_raise _
    · refine (uses_getOrThrow (hread _)).bind fun updated => ?_
      exact (uses_emit hevent _ _).bind fun _ => uses_ret _

theorem uses_reschedule (hread : ∀ id, X (.findBooking tenantId id))
    (hservice : ∀ id, X (.findService tenantId id))
    (hevent : ∀ input, X (.insertEvent tenantId input))
    (hupdate : ∀ id version startsAt endsAt, X (.updateTimes tenantId id version startsAt endsAt))
    (rt : Runtime) (id : Uuid) (dto : RescheduleBookingDto) (ifMatch : Option ℤ) :
    (BookingService.reschedule rt tenantId id dto ifMatch).Uses X := by
  unfold BookingService.reschedule
  split
  · exact uses_raise _
  · refine (uses_getOrThrow (hread _)).bind fun booking => ?_
    split
    · exact uses_raise _
    · refine (uses_getService (hservice _)).bind fun service => ?_
      refine (((uses_exec (hupdate _ _ _ _)).bind fun _ => uses_ret _).tryCatch
        fun _ => uses_raise _).bind fun applied => ?_
      split
      · exact uses_raise _
      · refine (uses_getOrThrow (hread _)).bind fun updated => ?_
        exact (uses_emit hevent _ _).bind fun _ => uses_ret _

theorem uses_allOrNothing (hinserts : HasInserts X tenantId) (spec : Instant → OccurrenceSpec)
    (recurrenceId : Uuid) (occurrences created : List Instant) :
    (RecurrenceService.allOrNothing tenantId spec recurrenceId occurrences created).Uses X := by
  induction occurrences generalizing created with
  | nil => exact uses_ret _
  | cons startsAt occurrences ih =>
    exact (uses_createOccurrence hinserts _ _).bind fun _ => ih _

theorem uses_tryOccurrence (hinserts : HasInserts X tenantId) (hsave : HasSavepoints X)
    (spec : OccurrenceSpec) (recurrenceId : Uuid) (i : ℕ) :
    (RecurrenceService.tryOccurrence tenantId spec recurrenceId i).Uses X := by
  refine (uses_exec (hsave.set i)).bind fun _ => Prog.Uses.tryCatch ?_ fun error => ?_
  · refine (uses_createOccurrence hinserts _ _).bind fun _ => ?_
    exact (uses_exec (hsave.release i)).bind fun _ => uses_ret _
  · refine (uses_exec (hsave.rollback i)).bind fun _ => ?_
    split
    · exact uses_raise _
    · exact uses_ret _

theorem uses_skipConflicts (hinserts : HasInserts X tenantId) (hsave : HasSavepoints X)
    (spec : Instant → OccurrenceSpec) (recurrenceId : Uuid) (i : ℕ)
    (occurrences created skipped : List Instant) :
    (RecurrenceService.skipConflicts tenantId spec recurrenceId i occurrences created skipped).Uses
      X := by
  induction occurrences generalizing i created skipped with
  | nil => exact uses_ret _
  | cons startsAt occurrences ih =>
    refine (uses_tryOccurrence hinserts hsave _ _ _).bind fun done => ?_
    split
    · exact ih _ _ _
    · exact ih _ _ _

theorem uses_recurrenceCreate (hlookups : HasLookups X tenantId) (hinserts : HasInserts X tenantId)
    (hseries : ∀ data, data.tenantId = tenantId → X (.insertRecurrence data))
    (hsave : HasSavepoints X) (rt : Runtime) (dto : CreateRecurrenceDto) :
    (RecurrenceService.create rt tenantId dto).Uses X := by
  unfold RecurrenceService.create
  split
  · exact uses_raise _
  · refine (uses_getService (hlookups.service _)).bind fun service => ?_
    refine (uses_canPerform (hlookups.link _ _)).bind fun can => ?_
    split
    · exact uses_raise _
    · -- the lookups come first, and then the series and its bookings
      refine (uses_getCustomer (hlookups.customer _)).bind fun _ => ?_
      refine (uses_getTenant hlookups.tenant).bind fun tenant => ?_
      dsimp only
      split
      · exact uses_raise _
      · refine (uses_exec (hseries _ rfl)).bind fun recurrence => ?_
        split
        · exact (uses_allOrNothing hinserts _ _ _ _).bind fun _ => uses_ret _
        · exact (uses_skipConflicts hinserts hsave _ _ _ _ _ _).bind fun _ => uses_ret _

end BookingPlatform
