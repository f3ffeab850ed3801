import BookingPlatform.Booking.Service
import BookingPlatform.Library.RowLog
import BookingPlatform.Library.Server

/-!
# The Booking Database

The tables behind the booking statements under READ COMMITTED, each as a log of row
versions, and the server that runs booking requests against them. Row locks, the unique
index on `(tenant_id, key)` and the EXCLUDE constraint make a statement wait by leaving
it without a possible answer.

## Main definitions

- `Db`: the tables, with every open transaction's uncommitted writes.
- `Db.returns`, `Db.fails`: which results a statement can have.
- `Db.effect`: what a statement with a given result does.
- `bookingServer`: any number of booking requests over one database.
-/

namespace BookingPlatform

open Library

/-! ## Tables -/

/-- What a write of a booking row was: the insert, a status change, or new times. -/
inductive ChangeKind where
  | created
  | status (target : BookingStatus)
  | rescheduled
  deriving DecidableEq, Repr

/-- A write of a booking row: the row version it leaves. -/
structure BookingChange where
  kind : ChangeKind
  row : Booking
  deriving DecidableEq, Repr

/-- The rows of the tables that booking requests only read. -/
structure Catalog where
  service : Uuid → Uuid → Option Service
  link : Uuid → Uuid → Uuid → Option StaffServiceLink
  customer : Uuid → Uuid → Option Customer
  tenant : Uuid → Option Tenant

/-- How many uncommitted writes a transaction had when it set a savepoint. -/
structure Savepoint where
  index : ℕ
  bookings : ℕ
  events : ℕ
  keys : ℕ
  recurrences : ℕ
  deriving DecidableEq, Repr

/-- The database, with transactions named by `T`. `aborted` marks a transaction in which
a statement has failed. -/
structure Db (T : Type) where
  catalog : Catalog
  bookings : LogStore T BookingChange
  events : LogStore T OutboxEvent
  keys : LogStore T IdempotencyKey
  recurrences : LogStore T Recurrence
  savepoints : T → List Savepoint
  aborted : T → Bool

/-- The database before any request, with no booking, event or key in it. -/
structure Db.Initial {T : Type} (g : Db T) : Prop where
  bookings : g.bookings = .empty
  events : g.events = .empty
  keys : g.keys = .empty
  savepoints : ∀ t, g.savepoints t = []
  aborted : ∀ t, g.aborted t = false

/-- The bookings table over the rows it starts with. -/
def bookingTable (initial : List Booking) : Table BookingChange Uuid Booking where
  key c := c.row.id
  val c := c.row
  base id := initial.find? (·.id = id)

/-- The idempotency keys by id. -/
def keyTable : Table IdempotencyKey Uuid IdempotencyKey where
  key r := r.id
  val r := r
  base _ := none

@[simp] theorem bookingTable_key (initial : List Booking) (c : BookingChange) :
    (bookingTable initial).key c = c.row.id := rfl

@[simp] theorem bookingTable_val (initial : List Booking) (c : BookingChange) :
    (bookingTable initial).val c = c.row := rfl

@[simp] theorem bookingTable_base (initial : List Booking) (id : Uuid) :
    (bookingTable initial).base id = initial.find? (·.id = id) := rfl

@[simp] theorem keyTable_key (r : IdempotencyKey) : keyTable.key r = r.id := rfl

@[simp] theorem keyTable_val (r : IdempotencyKey) : keyTable.val r = r := rfl

@[simp] theorem keyTable_base (k : Uuid) : keyTable.base k = none := rfl

/-- The row an `INSERT INTO bookings` makes of its values; an invalid date fails. -/
def BookingData.row (data : BookingData) (id : Uuid) : Option Booking := do
  let startsAt ← data.startsAt
  let endsAt ← data.endsAt
  return { id, tenantId := data.tenantId, staffId := data.staffId, serviceId := data.serviceId,
           customerId := data.customerId, startsAt, endsAt, status := data.status,
           priceAmount := data.priceAmount, priceCurrency := data.priceCurrency,
           recurrenceId := data.recurrenceId, version := 1 }

/-- `SET status = …, version = version + 1`. -/
def Booking.setStatus (b : Booking) (status : BookingStatus) : Booking :=
  { b with status, version := b.version + 1 }

/-- `SET starts_at = …, ends_at = …, version = version + 1`. -/
def Booking.setTimes (b : Booking) (startsAt endsAt : Instant) : Booking :=
  { b with startsAt, endsAt, version := b.version + 1 }

/-- Two rows the EXCLUDE constraint does not let stand side by side: active bookings of
one staff member whose `[starts_at, ends_at)` ranges have an instant in common. -/
def Booking.Excludes (a b : Booking) : Prop :=
  a.tenantId = b.tenantId ∧ a.staffId = b.staffId ∧
    a.status ∈ activeBookingStatuses ∧ b.status ∈ activeBookingStatuses ∧
    max a.startsAt b.startsAt < min a.endsAt b.endsAt

instance (a b : Booking) : Decidable (a.Excludes b) :=
  inferInstanceAs (Decidable (_ ∧ _ ∧ _ ∧ _ ∧ _))

namespace Db

variable {T : Type} (initial : List Booking) (g : Db T) (t : T)

/-- The booking row that transaction `t` sees under `id`. -/
def booking (id : Uuid) : Option Booking :=
  (bookingTable initial).row (g.bookings.visible t) id

/-- The booking row of `tenantId` that transaction `t` sees under `id`. -/
def tenantBooking (tenantId id : Uuid) : Option Booking :=
  (g.booking initial t id).filter fun b => b.tenantId = tenantId

/-- No row that `t` sees, and no uncommitted row of another transaction, stands in the
way of row `b` under the EXCLUDE constraint. -/
def SlotFree (b : Booking) : Prop :=
  (∀ id b', id ≠ b.id → g.booking initial t id = some b' → ¬b'.Excludes b) ∧
    ∀ u, u ≠ t → ∀ c ∈ g.bookings.pending u, ¬c.row.Excludes b

/-- A row that `t` sees stands in the way of row `b` under the EXCLUDE constraint. -/
def SlotTaken (b : Booking) : Prop :=
  ∃ id b', id ≠ b.id ∧ g.booking initial t id = some b' ∧ b'.Excludes b

/-- Transaction `t` may write `b` as the next version of its row: no other transaction
holds the row, and the EXCLUDE constraint admits it. -/
def Writable (b : Booking) : Prop :=
  g.bookings.Free (bookingTable initial) t b.id ∧ g.SlotFree initial t b

/-- `id` has never been used for a booking. -/
def FreshBooking (id : Uuid) : Prop :=
  (∀ b ∈ initial, b.id ≠ id) ∧ (∀ c ∈ g.bookings.committed, c.row.id ≠ id) ∧
    ∀ u, ∀ c ∈ g.bookings.pending u, c.row.id ≠ id

/-- `id` has never been used for an idempotency key. -/
def FreshKey (id : Uuid) : Prop :=
  (∀ r ∈ g.keys.committed, r.id ≠ id) ∧ ∀ u, ∀ r ∈ g.keys.pending u, r.id ≠ id

/-- `id` has never been used for an outbox event. -/
def FreshEvent (id : Uuid) : Prop :=
  (∀ e ∈ g.events.committed, e.id ≠ id) ∧ ∀ u, ∀ e ∈ g.events.pending u, e.id ≠ id

/-- `id` has never been used for a recurrence. -/
def FreshRecurrence (id : Uuid) : Prop :=
  (∀ r ∈ g.recurrences.committed, r.id ≠ id) ∧ ∀ u, ∀ r ∈ g.recurrences.pending u, r.id ≠ id

/-- The rows written by an `UPDATE … WHERE id AND tenant_id AND version` that sets a row
`b` to `set b`. -/
def Updates (tenantId id : Uuid) (version : ℤ) (set : Booking → Booking)
    (rows : List Booking) : Prop :=
  match (g.tenantBooking initial t tenantId id).filter fun b => b.version = version with
  | none => rows = []
  | some b => g.Writable initial t (set b) ∧ rows = [set b]

/-- The results a statement of transaction `t` can have when it succeeds.

`UPDATE … WHERE recurrence_id` locks its rows one after the other, so it may miss a row
that came to match while it ran; it writes any duplicate-free list of matching rows. -/
def returns : (s : Statement) → s.Result → Prop
  | .findService tenantId id, v => v = g.catalog.service tenantId id
  | .findLink tenantId staffId serviceId, v => v = g.catalog.link tenantId staffId serviceId
  | .findCustomer tenantId id, v => v = g.catalog.customer tenantId id
  | .findTenant id, v => v = g.catalog.tenant id
  | .findBooking tenantId id, v => v = g.tenantBooking initial t tenantId id
  | .insertBooking data, v =>
    data.row v.id = some v ∧ g.FreshBooking initial v.id ∧ g.SlotFree initial t v
  | .updateStatus tenantId id version status, v =>
    g.Updates initial t tenantId id version (·.setStatus status) v
  | .updateTimes tenantId id version startsAt endsAt, v =>
    ∃ s e, startsAt = some s ∧ endsAt = some e ∧
      g.Updates initial t tenantId id version (·.setTimes s e) v
  | .cancelSeries tenantId recurrenceId now, v =>
    (v.map (·.id)).Nodup ∧ ∀ r ∈ v, ∃ b, g.tenantBooking initial t tenantId r.id = some b ∧
      b.recurrenceId = some recurrenceId ∧ b.status ∈ activeBookingStatuses ∧
      now < b.startsAt ∧ r = b.setStatus .cancelled ∧ g.Writable initial t r
  | .insertEvent tenantId input, v =>
    v.toRecordEventInput = input ∧ v.tenantId = tenantId ∧ v.status = .pending ∧
      v.attempts = 0 ∧ g.FreshEvent v.id
  | .insertRecurrence data, v => v.toRecurrenceData = data ∧ g.FreshRecurrence v.id
  | .insertKey tenantId key requestHash, some r =>
    r.tenantId = tenantId ∧ r.key = key ∧ r.requestHash = requestHash ∧
      r.responseBody = none ∧ g.FreshKey r.id ∧
      (∀ r' ∈ g.keys.committed, ¬(r'.tenantId = tenantId ∧ r'.key = key)) ∧
      ∀ u, ∀ r' ∈ g.keys.pending u, ¬(r'.tenantId = tenantId ∧ r'.key = key)
  | .insertKey tenantId key _, none =>
    ∃ r ∈ g.keys.visible t, r.tenantId = tenantId ∧ r.key = key
  | .findKey tenantId key, some r =>
    keyTable.row (g.keys.visible t) r.id = some r ∧ r.tenantId = tenantId ∧ r.key = key
  | .findKey tenantId key, none =>
    ∀ r ∈ g.keys.visible t, ¬(r.tenantId = tenantId ∧ r.key = key)
  | .updateKey id responseBody, v =>
    match keyTable.row (g.keys.visible t) id with
    | none => v = []
    | some r => g.keys.Free keyTable t id ∧ v = [{ r with responseBody := some responseBody }]
  | .releaseSavepoint i, _ => ∃ sp ∈ g.savepoints t, sp.index = i
  | .rollbackToSavepoint i, _ => ∃ sp ∈ g.savepoints t, sp.index = i
  | .savepoint _, _ => True
  | .now, _ => True
  | .commit, _ => True
  | .rollback, _ => True

/-- The SQLSTATEs a statement can fail with: 23P01 only where the EXCLUDE constraint is
violated, any other code at any time. -/
def fails : Statement → SqlState → Prop
  | .now, _ => False
  | .insertBooking data, code => code = exclusionViolation →
    ∃ b, data.row b.id = some b ∧ g.FreshBooking initial b.id ∧ g.SlotTaken initial t b
  | .updateStatus tenantId id version status, code => code = exclusionViolation →
    ∃ b, g.tenantBooking initial t tenantId id = some b ∧ b.version = version ∧
      g.SlotTaken initial t (b.setStatus status)
  | .updateTimes tenantId id version startsAt endsAt, code => code = exclusionViolation →
    ∃ b s e, startsAt = some s ∧ endsAt = some e ∧
      g.tenantBooking initial t tenantId id = some b ∧ b.version = version ∧
      g.SlotTaken initial t (b.setTimes s e)
  | _, code => code ≠ exclusionViolation

/-- The statements that succeed in a transaction in which a statement has failed. -/
def runsAborted : Statement → Bool
  | .rollbackToSavepoint _ | .now | .commit | .rollback => true
  | _ => false

/-- The answers a statement of transaction `t` can get. -/
def possible (s : Statement) : Except SqlState s.Result → Prop
  | .ok v => (g.aborted t = true → runsAborted s = true) ∧ g.returns initial t s v
  | .error code => g.fails initial t s code

variable [DecidableEq T]

/-- Transaction `t` ends and its writes are undone. -/
def rollback : Db T :=
  { g with
    bookings := g.bookings.rollback t
    events := g.events.rollback t
    keys := g.keys.rollback t
    recurrences := g.recurrences.rollback t
    savepoints := Function.update g.savepoints t []
    aborted := Function.update g.aborted t false }

/-- Transaction `t` ends; `COMMIT` of an aborted transaction rolls back. -/
def commit : Db T :=
  if g.aborted t then g.rollback t
  else
    { g with
      bookings := g.bookings.commit t
      events := g.events.commit t
      keys := g.keys.commit t
      recurrences := g.recurrences.commit t
      savepoints := Function.update g.savepoints t []
      aborted := Function.update g.aborted t false }

/-- `SAVEPOINT`: remember how many writes the transaction has. -/
def savepoint (i : ℕ) : Db T :=
  { g with
    savepoints := Function.update g.savepoints t
      (⟨i, (g.bookings.pending t).length, (g.events.pending t).length,
        (g.keys.pending t).length, (g.recurrences.pending t).length⟩ :: g.savepoints t) }

/-- `RELEASE SAVEPOINT`: forget it and every later one. -/
def releaseSavepoint (i : ℕ) : Db T :=
  { g with
    savepoints :=
      Function.update g.savepoints t ((g.savepoints t).dropWhile (·.index ≠ i)).tail }

/-- `ROLLBACK TO SAVEPOINT`: undo the writes since it and forget every later one. -/
def rollbackToSavepoint (i : ℕ) : Db T :=
  match (g.savepoints t).dropWhile (·.index ≠ i) with
  | [] => g
  | sp :: sps =>
    { g with
      bookings := g.bookings.truncate t sp.bookings
      events := g.events.truncate t sp.events
      keys := g.keys.truncate t sp.keys
      recurrences := g.recurrences.truncate t sp.recurrences
      savepoints := Function.update g.savepoints t (sp :: sps)
      aborted := Function.update g.aborted t false }

/-- What a statement of transaction `t` that succeeds does. -/
def apply : (s : Statement) → s.Result → Db T
  | .insertBooking _, v => { g with bookings := g.bookings.pushAll t [⟨.created, v⟩] }
  | .updateStatus _ _ _ status, v =>
    { g with bookings := g.bookings.pushAll t (v.map (⟨.status status, ·⟩)) }
  | .updateTimes .., v =>
    { g with bookings := g.bookings.pushAll t (v.map (⟨.rescheduled, ·⟩)) }
  | .cancelSeries .., v =>
    { g with bookings := g.bookings.pushAll t (v.map (⟨.status .cancelled, ·⟩)) }
  | .insertEvent .., v => { g with events := g.events.pushAll t [v] }
  | .insertRecurrence _, v => { g with recurrences := g.recurrences.pushAll t [v] }
  | .insertKey .., v => { g with keys := g.keys.pushAll t v.toList }
  | .updateKey .., v => { g with keys := g.keys.pushAll t v }
  | .savepoint i, _ => g.savepoint t i
  | .releaseSavepoint i, _ => g.releaseSavepoint t i
  | .rollbackToSavepoint i, _ => g.rollbackToSavepoint t i
  | .commit, _ => g.commit t
  | .rollback, _ => g.rollback t
  | _, _ => g

/-- A failed statement aborts its transaction; a failed `COMMIT` or `ROLLBACK` ends it. -/
def abort : Statement → Db T
  | .commit | .rollback => g.rollback t
  | _ => { g with aborted := Function.update g.aborted t true }

/-- What a statement with a given answer does. -/
def effect (s : Statement) : Except SqlState s.Result → Db T
  | .ok v => g.apply t s v
  | .error _ => g.abort t s

end Db

/-- Any number of booking requests, one per name in `T`, over one database. A request
that dies is rolled back, and the catalog may change at any time. -/
def bookingServer {T : Type} [DecidableEq T] (rt : Runtime) (initial : List Booking) :
    Server Sql T (Db T) Request Thrown Response where
  program := handle rt
  possible t g := g.possible initial t
  effect t g := g.effect t
  crash t g := g.rollback t
  env g g' := ∃ catalog, g' = { g with catalog }

end BookingPlatform
