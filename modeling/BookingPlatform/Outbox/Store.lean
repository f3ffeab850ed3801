import BookingPlatform.Library.RowLog
import BookingPlatform.Library.Schedule
import BookingPlatform.Outbox.Service

/-!
# The Outbox Table and the Job Queues

The table of outbox events with its row locks, the queues, and what each statement of a
relay or a worker does to them. The outcomes of the delivery calls of each transaction
are kept with its writes, and the jobs that were added or processed are remembered.

## Main definitions

- `RelayDb`: the outbox with every open transaction's writes and locks, and the queues.
- `relayServer`: any number of relays and workers, for any delivery function.
- `orderedServer`: the same, where every claim returns the first rows of the table.
-/

namespace BookingPlatform

open Library

/-- A call of the delivery function in some transaction, and whether it returned. -/
structure Delivery where
  id : Uuid
  ok : Bool
  deriving DecidableEq, Repr

/-- The queues: the jobs waiting, the completed ones that are kept, and as history all
jobs that were ever stored and all that were processed. -/
structure Queues where
  waiting : List QueuedJob
  kept : List QueuedJob
  added : List QueuedJob
  processed : List QueuedJob
  deriving DecidableEq

namespace Queues

/-- A job with this queue and id is still stored. -/
def Stored (qs : Queues) (queue : QueueName) (jobId : String) : Prop :=
  ∃ job ∈ qs.waiting ++ qs.kept, job.queue = queue ∧ job.jobId = some jobId

instance (qs : Queues) (queue : QueueName) (jobId : String) : Decidable (qs.Stored queue jobId) :=
  inferInstanceAs (Decidable (∃ job ∈ qs.waiting ++ qs.kept, job.queue = queue ∧
    job.jobId = some jobId))

/-- A job with an id is ignored exactly while a job with that id is stored. -/
def Ignores (qs : Queues) (job : QueuedJob) : Prop :=
  ∃ job' ∈ qs.waiting ++ qs.kept, job'.queue = job.queue ∧ job.jobId.isSome ∧ job'.jobId = job.jobId

instance (qs : Queues) (job : QueuedJob) : Decidable (qs.Ignores job) :=
  inferInstanceAs (Decidable (∃ job' ∈ qs.waiting ++ qs.kept,
    job'.queue = job.queue ∧ job.jobId.isSome ∧ job'.jobId = job.jobId))

/-- Store a job. -/
def add (qs : Queues) (job : QueuedJob) : Queues :=
  if qs.Ignores job then qs
  else { qs with waiting := qs.waiting ++ [job], added := job :: qs.added }

/-- A waiting job is processed; it is deleted if it says so. -/
def complete (qs : Queues) (job : QueuedJob) : Queues where
  waiting := qs.waiting.erase job
  kept := if job.removeOnComplete then qs.kept else job :: qs.kept
  added := qs.added
  processed := job :: qs.processed

end Queues

/-- The outbox, with transactions named by `T`: every event's row versions, the locks of
each transaction, and the deliveries made in it. `clock` is the time, and `aborted` marks
a transaction in which a statement has failed. -/
structure RelayDb (T : Type) where
  events : LogStore T OutboxEvent
  deliveries : LogStore T Delivery
  locks : T → List Uuid
  clock : Instant
  aborted : T → Bool
  queues : Queues

/-- The events by id. -/
def eventTable : Table OutboxEvent Uuid OutboxEvent where
  key e := e.id
  val e := e
  base _ := none

@[simp] theorem eventTable_key (e : OutboxEvent) : eventTable.key e = e.id := rfl

@[simp] theorem eventTable_val (e : OutboxEvent) : eventTable.val e = e := rfl

@[simp] theorem eventTable_base (id : Uuid) : eventTable.base id = none := rfl

namespace RelayDb

variable {T : Type} (g : RelayDb T) (t : T)

/-- The committed row of an event. -/
def event (id : Uuid) : Option OutboxEvent := eventTable.row g.events.committed id

/-- How many committed deliveries of an event have failed. -/
def failures (id : Uuid) : ℕ := g.deliveries.committed.countP fun d => d.id = id ∧ d.ok = false

/-- `created_at`, then `id`. -/
def Before (a b : OutboxEvent) : Prop :=
  a.createdAt < b.createdAt ∨ a.createdAt = b.createdAt ∧ a.id ≤ b.id

/-- No other transaction has locked the row. -/
def Unlocked (id : Uuid) : Prop := ∀ u, u ≠ t → id ∉ g.locks u

/-- The rows that `SELECT … FOR UPDATE SKIP LOCKED` can return while other statements run: due
pending rows that no other transaction has locked, in order. It can skip a row whose lock is
released before the query is over, so that what it returns need not be the first of them. -/
def Claims (limit : ℕ) (rows : List OutboxEvent) : Prop :=
  rows.length ≤ limit ∧ (rows.map (·.id)).Nodup ∧ rows.Pairwise Before ∧
    ∀ e ∈ rows, eventTable.row (g.events.visible t) e.id = some e ∧ e.status = .pending ∧
      e.availableAt ≤ g.clock ∧ g.Unlocked t e.id

/-- The rows that it returns while nothing else runs: the first `limit` of them. -/
def ClaimsFirst (limit : ℕ) (rows : List OutboxEvent) : Prop :=
  g.Claims t limit rows ∧
    ∀ e, eventTable.row (g.events.visible t) e.id = some e → e.status = .pending →
      e.availableAt ≤ g.clock → g.Unlocked t e.id →
      e ∈ rows ∨ rows.length = limit ∧ ∀ e' ∈ rows, Before e' e

/-- The results a statement can have when it succeeds. -/
def returns : (s : RelayStatement) → s.Result → Prop
  | .claimBatch limit, v => g.Claims t limit v
  | .setDispatched id, _ => g.Unlocked t id
  | .setDead id _, _ => g.Unlocked t id
  | .setRetry id _ _, _ => g.Unlocked t id
  | .process job, _ => job ∈ g.queues.waiting
  | .deliver _, _ => True
  | .add _, _ => True
  | .now, _ => True
  | .commit, _ => True
  | .rollback, _ => True

/-- A statement on the relay's connection. -/
def onConnection : RelayStatement → Bool
  | .claimBatch _ | .setDispatched _ | .setDead .. | .setRetry .. | .commit | .rollback => true
  | _ => false

/-- The statements that succeed in a transaction in which a statement has failed. -/
def runsAborted : RelayStatement → Bool
  | .claimBatch _ | .setDispatched _ | .setDead .. | .setRetry .. => false
  | _ => true

/-- The answers a statement can get. -/
def possible (s : RelayStatement) : Except SqlState s.Result → Prop
  | .ok v => (g.aborted t = true → runsAborted s = true) ∧ g.returns t s v
  | .error _ => onConnection s = true

variable [DecidableEq T]

/-- Transaction `t` writes the row of event `id`, if there is one. -/
def write (id : Uuid) (set : OutboxEvent → OutboxEvent) : RelayDb T :=
  { g with
    events := g.events.pushAll t ((eventTable.row (g.events.visible t) id).map set).toList
    locks := Function.update g.locks t (id :: g.locks t) }

/-- Transaction `t` ends and is undone. -/
def rollback : RelayDb T :=
  { g with
    events := g.events.rollback t
    deliveries := g.deliveries.rollback t
    locks := Function.update g.locks t []
    aborted := Function.update g.aborted t false }

/-- Transaction `t` ends; `COMMIT` of an aborted transaction rolls back. -/
def commit : RelayDb T :=
  if g.aborted t then g.rollback t
  else
    { g with
      events := g.events.commit t
      deliveries := g.deliveries.commit t
      locks := Function.update g.locks t [] }

/-- What a statement that succeeds does. -/
def apply : (s : RelayStatement) → s.Result → RelayDb T
  | .claimBatch _, v => { g with locks := Function.update g.locks t (v.map (·.id) ++ g.locks t) }
  | .setDispatched id, _ => g.write t id fun e => { e with status := .dispatched }
  | .setDead id attempts, _ => g.write t id fun e => { e with attempts, status := .dead }
  | .setRetry id attempts availableAt, _ => g.write t id fun e => { e with attempts, availableAt }
  | .deliver e, v => { g with deliveries := g.deliveries.pushAll t [⟨e.id, v.isOk⟩] }
  | .add job, .added => { g with queues := g.queues.add job }
  | .add job, .failed stored => if stored then { g with queues := g.queues.add job } else g
  | .process job, _ => { g with queues := g.queues.complete job }
  | .commit, _ => g.commit t
  | .rollback, _ => g.rollback t
  | .now, _ => g

/-- A failed statement aborts its transaction; a failed `COMMIT` or `ROLLBACK` ends it. -/
def abort : RelayStatement → RelayDb T
  | .commit | .rollback => g.rollback t
  | _ => { g with aborted := Function.update g.aborted t true }

/-- What a statement with a given answer does. -/
def effect (s : RelayStatement) : Except SqlState s.Result → RelayDb T
  | .ok v => g.apply t s v
  | .error _ => g.abort t s

/-- Another transaction commits a new event, as `OutboxRepository.record` writes it. -/
def Records (g' : RelayDb T) : Prop :=
  ∃ e : OutboxEvent, (∀ e' ∈ g.events.committed, e'.id ≠ e.id) ∧ e.status = .pending ∧
    e.attempts = 0 ∧
    g' = { g with events := { g.events with committed := e :: g.events.committed } }

/-- What happens outside the relays: events are recorded and time passes. -/
def Env (g' : RelayDb T) : Prop :=
  g.Records g' ∨ ∃ clock, g.clock ≤ clock ∧ g' = { g with clock }

end RelayDb

/-- Any number of relays and workers, for a delivery function `dispatch`. One that dies is
rolled back. -/
def relayServer {T : Type} [DecidableEq T] (dispatch : OutboxEvent → RelayM Unit) :
    Server (sqlSignature RelayStatement RelayStatement.Result) T (RelayDb T) RelayJob Thrown ℕ where
  program := handleJob dispatch
  possible t g := g.possible t
  effect t g := g.effect t
  crash t g := g.rollback t
  env g g' := g.Env g'

/-- The answers a statement can get while it runs by itself. -/
def RelayDb.possibleAlone {T : Type} (t : T) (g : RelayDb T) :
    (s : RelayStatement) → Except SqlState s.Result → Prop
  | .claimBatch limit, .ok v => g.possible t (.claimBatch limit) (.ok v) ∧ g.ClaimsFirst t limit v
  | s, x => g.possible t s x

/-- The same relays and workers, where every claim returns the first rows. -/
def orderedServer {T : Type} [DecidableEq T] (dispatch : OutboxEvent → RelayM Unit) :
    Server (sqlSignature RelayStatement RelayStatement.Result) T (RelayDb T) RelayJob Thrown ℕ :=
  { relayServer dispatch with possible := RelayDb.possibleAlone }

/-! ## Computed runs -/

instance (a b : OutboxEvent) : Decidable (RelayDb.Before a b) :=
  inferInstanceAs (Decidable (_ ∨ _))

section Possible

variable {n : ℕ} (g : RelayDb (Fin n)) (t : Fin n)

instance (id : Uuid) : Decidable (g.Unlocked t id) := inferInstanceAs (Decidable (∀ _, _))

instance (limit : ℕ) (rows : List OutboxEvent) : Decidable (g.Claims t limit rows) :=
  inferInstanceAs (Decidable (_ ∧ _))

instance (s : RelayStatement) (v : s.Result) : Decidable (g.returns t s v) :=
  match s, v with
  | .claimBatch limit, v => inferInstanceAs (Decidable (g.Claims t limit v))
  | .setDispatched id, _ => inferInstanceAs (Decidable (g.Unlocked t id))
  | .setDead id _, _ => inferInstanceAs (Decidable (g.Unlocked t id))
  | .setRetry id _ _, _ => inferInstanceAs (Decidable (g.Unlocked t id))
  | .process job, _ => inferInstanceAs (Decidable (job ∈ g.queues.waiting))
  | .deliver _, _ => .isTrue trivial
  | .add _, _ => .isTrue trivial
  | .now, _ => .isTrue trivial
  | .commit, _ => .isTrue trivial
  | .rollback, _ => .isTrue trivial

instance (s : RelayStatement) : DecidablePred (g.possible t s)
  | .ok _ => inferInstanceAs (Decidable (_ ∧ _))
  | .error _ => inferInstanceAs (Decidable (_ = _))

end Possible

/-- What the environment chooses: the rows a claim returns, how a delivery and an `add` go,
and whether the connection fails. -/
structure RelayChoice where
  rows : List OutboxEvent
  delivered : Bool
  add : AddResult
  lost : Bool

namespace RelayChoice

/-- All goes well. -/
def good : RelayChoice := ⟨[], true, .added, false⟩

/-- A claim returns these rows. -/
def claims (rows : List OutboxEvent) : RelayChoice := { good with rows }

/-- A delivery throws. -/
def throws : RelayChoice := { good with delivered := false }

/-- The answer chosen for a statement. -/
def answer (c : RelayChoice) (s : RelayStatement) : Except SqlState s.Result :=
  if c.lost then .error "08006"
  else .ok <| match s with
    | .claimBatch _ => c.rows
    | .deliver _ => if c.delivered then .ok () else .error "Connection is closed."
    | .add _ => c.add
    | .now => 0
    | .setDispatched _ | .setDead .. | .setRetry .. | .commit | .rollback | .process _ => ()

end RelayChoice

/-- The relays and workers with computed answers. -/
def relayResponder {n : ℕ} (dispatch : OutboxEvent → RelayM Unit) :
    Responder (relayServer (T := Fin n) dispatch) RelayChoice where
  answer c t g s := if g.possible t s (c.answer s) then some (c.answer s) else none
  sound c t g s r h := by
    split at h
    · rename_i hpossible
      cases h
      exact hpossible
    · cases h

/-- An outbox of recorded events before any relay has started. -/
structure RelayDb.Initial {T : Type} (g : RelayDb T) : Prop where
  pending : ∀ t, g.events.pending t = []
  ids : (g.events.committed.map (·.id)).Nodup
  recorded : ∀ e ∈ g.events.committed, e.status = .pending ∧ e.attempts = 0
  deliveries : g.deliveries = .empty
  locks : ∀ t, g.locks t = []
  aborted : ∀ t, g.aborted t = false
  queues : g.queues = ⟨[], [], [], []⟩

/-- A recorded booking event. -/
def sampleEvent (id : Uuid) : OutboxEvent where
  aggregateType := "booking"
  aggregateId := 1
  eventType := "booking.created"
  payload := ⟨1, 2, 3, 4, 0, .pending⟩
  id := id
  tenantId := 7
  status := .pending
  attempts := 0
  availableAt := 0
  createdAt := id

/-- An outbox of recorded events at time 0. -/
def RelayDb.ofEvents (T : Type) (events : List OutboxEvent) : RelayDb T :=
  ⟨⟨events, fun _ => []⟩, .empty, fun _ => [], 0, fun _ => false, ⟨[], [], [], []⟩⟩

theorem RelayDb.initial_ofEvents {T : Type} {events : List OutboxEvent}
    (hids : (events.map (·.id)).Nodup)
    (hrecorded : ∀ e ∈ events, e.status = .pending ∧ e.attempts = 0) :
    (RelayDb.ofEvents T events).Initial :=
  ⟨fun _ => rfl, hids, hrecorded, rfl, fun _ => rfl, fun _ => rfl, rfl⟩

end BookingPlatform
