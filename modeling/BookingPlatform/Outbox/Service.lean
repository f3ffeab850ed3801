import BookingPlatform.Booking.Statements
import BookingPlatform.Common.Sql
import Mathlib.Algebra.Ring.Int.Defs

/-!
# Outbox Relay

A relay claims a batch of due events in one transaction, delivers each of them and marks
what came of it. Delivery is a function that the relay is given; the one in production
adds an email job and a webhook job to their queues.

## Main definitions

- `OutboxService.processBatch`: one batch, for any delivery function.
- `dispatch`: the delivery function of the relay worker.
- `handleJob`: a batch of a relay, or a job of a worker.
-/

namespace BookingPlatform

open Library

/-! ## Jobs -/

structure BookingEmailJob where
  eventType : String
  tenantId : Uuid
  bookingId : Uuid
  customerId : Uuid
  deriving DecidableEq, Repr

structure WebhookJob where
  tenantId : Uuid
  eventType : String
  aggregateType : String
  aggregateId : Uuid
  data : BookingPayload
  deriving DecidableEq, Repr

/-- What a job carries; the email queue takes `email` jobs, the webhook queue `webhook`
jobs. -/
inductive JobData where
  | email (data : BookingEmailJob)
  | webhook (data : WebhookJob)
  deriving DecidableEq, Repr

inductive QueueName where
  | email
  | webhook
  deriving DecidableEq, Repr

/-- A job as it is added to a queue. -/
structure QueuedJob where
  queue : QueueName
  data : JobData
  jobId : Option String
  removeOnComplete : Bool
  deriving DecidableEq, Repr

/-- What `Queue.add` comes to: it succeeds, or fails before or after the job was stored. -/
inductive AddResult where
  | added
  | failed (stored : Bool)
  deriving DecidableEq, Repr

/-! ## Statements -/

/-- A statement on the relay's connection, a call of its delivery function, a call of a
queue, or a value drawn from the environment. -/
inductive RelayStatement where
  | claimBatch (limit : ℕ)
  | setDispatched (id : Uuid)
  | setDead (id : Uuid) (attempts : ℕ)
  | setRetry (id : Uuid) (attempts : ℕ) (availableAt : Instant)
  | commit
  | rollback
  | deliver (event : OutboxEvent)
  | add (job : QueuedJob)
  | process (job : QueuedJob)
  | now
  deriving DecidableEq

/-- The result of a statement; a delivery may throw. -/
abbrev RelayStatement.Result : RelayStatement → Type
  | claimBatch _ => List OutboxEvent
  | deliver _ => Except String Unit
  | add _ => AddResult
  | now => Instant
  | _ => Unit

/-- Code of a relay or a worker. -/
abbrev RelayM : Type → Type := SqlM RelayStatement RelayStatement.Result

abbrev RelayM.exec (s : RelayStatement) : RelayM s.Result := execSql s

open RelayM

/-! ## Outbox repository -/

namespace OutboxRepository

/-- Locks a batch of due pending events with `FOR UPDATE SKIP LOCKED`. -/
def claimBatch (limit : ℕ) : RelayM (List OutboxEvent) := exec (.claimBatch limit)

def markDispatched (id : Uuid) : RelayM Unit := exec (.setDispatched id)

/-- Bumps attempts; schedules a backoff retry, or marks dead past the cap. -/
def markFailed (event : OutboxEvent) : RelayM Unit := do
  let attempts := event.attempts + 1
  if attempts ≥ outboxMaxAttempts then
    exec (.setDead event.id attempts)
  else
    let now ← exec .now
    exec (.setRetry event.id attempts (now + outboxBackoffBaseMs * 2 ^ (attempts - 1)))

end OutboxRepository

/-! ## Outbox service -/

namespace OutboxService

/-- Delivers one event and marks it; true if it was delivered. -/
def processEvent (dispatch : OutboxEvent → RelayM Unit) (event : OutboxEvent) : RelayM Bool :=
  Prog.tryCatch
    (do
      dispatch event
      OutboxRepository.markDispatched event.id
      return true)
    fun _ => do
      OutboxRepository.markFailed event
      return false

/-- The loop over the claimed events. -/
def processEvents (dispatch : OutboxEvent → RelayM Unit) :
    (events : List OutboxEvent) → (dispatched : ℕ) → RelayM ℕ
  | [], dispatched => return dispatched
  | event :: events, dispatched => do
    if ← processEvent dispatch event then
      processEvents dispatch events (dispatched + 1)
    else
      processEvents dispatch events dispatched

/-- `DataSource.transaction`: commit when the body returns; on any error, also of the
commit, roll back and rethrow. -/
def transaction {α : Type} (body : RelayM α) : RelayM α :=
  Prog.tryCatch
    (do
      let value ← body
      exec .commit
      return value)
    fun error => do
      Prog.tryCatch (exec .rollback) fun _ => return ()
      .raise error

def processBatch (dispatch : OutboxEvent → RelayM Unit) (batchSize : ℕ) : RelayM ℕ :=
  transaction (do
    let events ← OutboxRepository.claimBatch batchSize
    processEvents dispatch events 0)

end OutboxService

/-! ## Queues -/

/-- `Queue.add`. -/
def Queue.add (job : QueuedJob) : RelayM Unit := do
  match ← exec (.add job) with
  | .added => return ()
  | .failed _ => .raise (.error "Connection is closed.")

/-- The `jobId` makes a redelivery a no-op while the job is stored. -/
def enqueueBookingEmail (data : BookingEmailJob) (jobId : Option String) : RelayM Unit :=
  Queue.add { queue := .email, data := .email data, jobId, removeOnComplete := true }

def enqueueWebhook (data : WebhookJob) (jobId : Option String) : RelayM Unit :=
  Queue.add { queue := .webhook, data := .webhook data, jobId, removeOnComplete := true }

/-- The job ids derived from an event id. -/
def emailJobId (id : Uuid) : String := "email-" ++ toString id

def webhookJobId (id : Uuid) : String := "webhook-" ++ toString id

/-- Maps a committed event to its side effects; the job ids are derived from the event id
so that a redelivery enqueues the same jobs. -/
def dispatch (event : OutboxEvent) : RelayM Unit := do
  if event.aggregateType ≠ "booking" then
    return ()
  else
    enqueueBookingEmail
      { eventType := event.eventType, tenantId := event.tenantId,
        bookingId := event.payload.bookingId, customerId := event.payload.customerId }
      (some (emailJobId event.id))
    enqueueWebhook
      { tenantId := event.tenantId, eventType := event.eventType,
        aggregateType := event.aggregateType, aggregateId := event.aggregateId,
        data := event.payload }
      (some (webhookJobId event.id))

/-- A delivery function of which only the outcome of each call is known. -/
def anyDispatch (event : OutboxEvent) : RelayM Unit := do
  match ← exec (.deliver event) with
  | .ok () => return ()
  | .error message => .raise (.error message)

/-! ## Relays and workers -/

/-- What a relay or a worker does next: drain one batch, or process one job. -/
inductive RelayJob where
  | batch (batchSize : ℕ)
  | work (job : QueuedJob)
  deriving DecidableEq, Repr

/-- A batch returns how many events it delivered, a job nothing. -/
def handleJob (dispatch : OutboxEvent → RelayM Unit) : RelayJob → RelayM ℕ
  | .batch batchSize => OutboxService.processBatch dispatch batchSize
  | .work job => do
    exec (.process job)
    return 0

end BookingPlatform
