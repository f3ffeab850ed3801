import BookingPlatform.Library.Runs
import BookingPlatform.Platform.Tables

/-!
# Requests under the Tenant Context

A request with a tenant token holds one connection with one transaction, from the middleware that
opens it to the interceptor that commits it, or to the listener that rolls it back when the response
has ended or its client is gone. The listener does not wait for the handler, whose statements queue
up behind the `ROLLBACK`.

## Main definitions

- `RequestState`: the request, its query runner and its connection.
- `RequestState.next`: one event of the request, the connection, the client or another session.
- `RequestState.Over`: nothing is left to be done.
-/

namespace BookingPlatform

open Library

/-! ## Statements of a handler -/

/-- The tables with a `tenant_isolation` policy. -/
def hasRls : TableName → Bool
  | .services | .customers | .staff | .staffServices | .workingHours | .timeOff | .bookings
  | .recurrences | .idempotencyKeys | .webhookEndpoints | .subscriptions => true
  | .tenants | .memberships | .plans | .outboxEvents | .webhookReceipts => false

/-- The tables whose repositories use the pool, and not the manager of the request. -/
def pooled : TableName → Bool
  | .tenants | .memberships | .plans => true
  | _ => false

/-- Who answers a statement: the process itself, another connection of the pool, or the connection
of the request. A handler neither ends the transaction itself nor writes to a table of the pool
beside it. -/
inductive Recipient where
  | process
  | pool
  | runner
  | nobody
  deriving DecidableEq

def recipient : Command → Recipient
  | .now | .draw => .process
  | .select τ _ => if pooled τ then .pool else .runner
  | .insert τ _ | .insertIgnore τ _ | .update τ _ _ | .delete τ _ =>
    if pooled τ then .nobody else .runner
  | .malformed _ | .savepoint _ | .release _ | .rollbackTo _ => .runner
  | .config _ | .commit | .rollback => .nobody

/-- The statement writes to a table without a policy, which accepts it when no tenant is set. -/
def writesUnguarded : Command → Bool
  | .insert τ _ | .insertIgnore τ _ | .update τ _ _ | .delete τ _ => !hasRls τ
  | _ => false

/-- A statement that fails outside a transaction, with no tenant set. -/
def confined : Command → Bool
  | .select τ _ | .insert τ _ | .insertIgnore τ _ | .update τ _ _ | .delete τ _ => hasRls τ
  | .savepoint _ | .release _ | .rollbackTo _ => true
  | _ => false

/-- The answer in autocommit: `code` is the error of a policy, or of a savepoint without a
transaction. -/
def autocommitAnswer (db : Store platformSchema) (id : Uuid) (time : ℤ) (code : SqlState)
    (s : Command) :
    Except SqlState s.Result :=
  if confined s then .error code else (Tx.idle : Tx platformSchema).answer db id time s

/-- What the statement commits. -/
def autocommitWrites (db : Store platformSchema) (s : Command) :
    Except SqlState s.Result → List (Change platformSchema)
  | .ok v => db.writes s v
  | .error _ => []

/-! ## States -/

/-- A controller method, with the statements of its services. -/
abbrev HandlerProg (α : Type) : Type := Prog (storeSignature platformSchema) Thrown α

/-- Where the request is: in an `await` of the middleware, in its early exits, in the handler, in
the interceptor, or at its response. -/
inductive Stage (α : Type) where
  | connecting
  | starting
  | configuring
  | lookingUp
  | refusing
  | releasing
  | handling (p : HandlerProg α)
  | awaiting (s : Command) (k : Except SqlState s.Result → HandlerProg α)
  | committing
  | settling
  | responding
  | responded

/-- The response has been sent, or dropped. -/
def Stage.isResponded {α : Type} : Stage α → Bool
  | .responded => true
  | _ => false

/-- The call of `rollback` that gets past the flag. -/
inductive Listener where
  | idle
  | rollingBack
  | releasing
  | done
  deriving DecidableEq

/-- The response; `heard` says whether the listeners were attached when its connection was lost. -/
inductive Reply where
  | pending
  | finished
  | closed
  | lost (heard : Bool)
  deriving DecidableEq

/-- What waits on the connection, first in first out. -/
inductive Queued where
  | statement
  | commit
  | rollback
  deriving DecidableEq

/-- What has happened to the transaction and the query runner. -/
inductive RunnerEvent where
  | begun
  | committed
  | rolledBack
  | released
  deriving DecidableEq

/-- A request. `settled` is `req.tenantTxSettled` and `active` the transaction flag of the query
runner; `work` collects all that the handler has written, and `committed` what has been committed of
it. -/
structure RequestState (α : Type) where
  stage : Stage α
  reply : Reply
  listening : Bool
  settled : Bool
  listener : Listener
  active : Bool
  queue : List Queued
  tx : Option (Tx platformSchema)
  store : Store platformSchema
  log : List RunnerEvent
  returned : Bool
  work : List (Change platformSchema)
  committed : List (Change platformSchema)

/-- The verdict on the tenant, if its lookup succeeds. -/
inductive Verdict where
  | failed
  | missing
  | suspended
  | found
  deriving DecidableEq

/-- The events: outcomes of the awaits, steps of the handler and of the connection, and what happens
to the client. Executing a statement, the database draws an id and a time, and may refuse with a
code. -/
inductive RequestEvent where
  | connected (ok : Bool)
  | started (ok active : Bool)
  | configured (ok : Bool)
  | lookedUp (verdict : Verdict)
  | rolledBack
  | released
  | clock (id : Uuid) (time : ℤ)
  | issued
  | executed (id : Uuid) (time : ℤ) (refused : Bool) (code : SqlState)
  | ended
  | runnerReleased
  | responded
  | disconnected
  | responseClosed
  | otherCommit (db : Store platformSchema)

namespace RequestState

variable {α : Type} (handler : HandlerProg α)

/-- A request whose middleware is about to connect. -/
def initial (db : Store platformSchema) : RequestState α where
  stage := .connecting
  reply := .pending
  listening := false
  settled := false
  listener := .idle
  active := false
  queue := []
  tx := none
  store := db
  log := []
  returned := false
  work := []
  committed := []

variable (r : RequestState α)

/-- `rollback` of the middleware, if a listener is attached; the flag lets one call past. -/
def hear : RequestState α :=
  if r.listening && !r.settled then
    { r with settled := true, listener := .rollingBack, queue := r.queue ++ [.rollback] }
  else r

/-- The end of the transaction, if it was started. -/
def finishTx (e : RunnerEvent) : RequestState α :=
  { r with active := false, tx := none, log := if r.tx.isSome then r.log ++ [e] else r.log }

variable {r} in
theorem finishTx_log_of_isSome (h : r.tx.isSome) (e : RunnerEvent) :
    (r.finishTx e).log = r.log ++ [e] := if_pos h

variable {r} in
theorem finishTx_log_of_none (h : r.tx = none) (e : RunnerEvent) : (r.finishTx e).log = r.log := by
  unfold finishTx
  rw [h]
  rfl

def release : RequestState α := { r with log := r.log ++ [.released] }

/-- The runner has been released. -/
def Released : Prop := RunnerEvent.released ∈ r.log

instance : Decidable r.Released := inferInstanceAs (Decidable (_ ∈ _))

/-- The statement of the handler runs in the transaction, or after its `ROLLBACK` in autocommit. -/
def execute (id : Uuid) (time : ℤ) (refused : Bool) (code : SqlState) (s : Command)
    (k : Except SqlState s.Result → HandlerProg α) : RequestState α :=
  match r.tx with
  | some tx =>
    let answer := tx.answer r.store id time s
    let tx' := tx.after r.store s answer
    { r with stage := .handling (k answer), tx := some tx', work := tx'.pending }
  | none =>
    if refused then { r with stage := .handling (k (.error code)) }
    else
      let answer := autocommitAnswer r.store id time code s
      let changes := autocommitWrites r.store s answer
      { r with stage := .handling (k answer), store := r.store.applyAll changes,
               work := r.work ++ changes, committed := r.committed ++ changes }

/-- What the `COMMIT` of the interceptor writes: nothing of an aborted transaction. -/
def commitWrites : List (Change platformSchema) :=
  match r.tx with
  | some tx => if tx.aborted then [] else tx.pending
  | none => []

/-- The connection takes the next statement from its queue. -/
def dequeue (id : Uuid) (time : ℤ) (refused : Bool) (code : SqlState) : Option (RequestState α) :=
  match r.queue, r.stage with
  | .statement :: queue, .awaiting s k => some ({ r with queue }.execute id time refused code s k)
  | .commit :: queue, .committing =>
    some { ({ r with queue }.finishTx .committed) with
      stage := .settling, store := r.store.applyAll r.commitWrites, committed :=
        r.committed ++ r.commitWrites }
  | .rollback :: queue, _ =>
    some { ({ r with queue }.finishTx .rolledBack) with listener := .releasing }
  | _, _ => none

/-- The next thing the handler does. -/
def issue : Option (RequestState α) :=
  match r.stage with
  | .handling (.call s k) =>
    match recipient s with
    | .runner =>
      -- a released runner refuses
      if r.Released then some { r with stage := .handling (k (.error "08003")) }
      else some { r with stage := .awaiting s k, queue := r.queue ++ [.statement] }
    | .pool => some { r with
      stage := .handling (k ((Tx.idle : Tx platformSchema).answer r.store 0 0 s)) }
    | _ => none
  | _ => none

/-- The handler has returned, and the interceptor commits unless the flag is set; or it has
thrown. -/
def finishHandler : Option (RequestState α) :=
  match r.stage with
  | .handling (.ret _) =>
    if r.settled then some { r with stage := .responding, returned := true }
    else some { r with
      stage := .committing, returned := true, settled := true, queue := r.queue ++ [.commit] }
  | .handling (.raise _) => some { r with stage := .responding }
  | _ => none

/-- The state after an event, if it can happen. -/
def next (e : RequestEvent) : Option (RequestState α) :=
  match e, r.stage with
  | .connected ok, .connecting => some { r with stage := if ok then .starting else .refusing }
  | .started ok active, .starting =>
    -- the flag is set before `START TRANSACTION` is sent, and may stay set if that fails
    if ok then some { r with stage := .configuring, active := true, tx := some .idle,
                             log := r.log ++ [.begun] }
    else some { r with stage := .refusing, active := active }
  | .configured ok, .configuring => some { r with stage := if ok then .lookingUp else .refusing }
  | .lookedUp .found, .lookingUp => some { r with stage := .handling handler, listening := true }
  | .lookedUp _, .lookingUp => some { r with stage := .refusing }
  | .rolledBack, .refusing =>
    some { (if r.active then r.finishTx .rolledBack else r) with stage := .releasing }
  | .released, .releasing => some { r.release with stage := .responding }
  | .clock id time, .handling (.call s k) =>
    if recipient s = .process then
      some { r with stage := .handling (k
        ((Tx.idle : Tx platformSchema).answer r.store id time s)) }
    else none
  | .issued, _ => r.issue
  | .executed id time refused code, _ => r.dequeue id time refused code
  | .ended, _ => r.finishHandler
  | .runnerReleased, stage =>
    if r.listener = .releasing then some { r.release with listener := .done }
    else match stage with
      | .settling => some { r.release with stage := .responding }
      | _ => none
  | .responded, .responding =>
    match r.reply with
    | .pending => some { r with stage := .responded, reply := .finished }.hear
    | _ => some { r with stage := .responded }
  | .disconnected, _ =>
    if r.reply = .pending then some { r with reply := .lost r.listening }.hear else none
  | .responseClosed, _ => if r.reply =
    .finished then some { r with reply := .closed }.hear else none
  | .otherCommit db, _ => some { r with store := db }
  | _, _ => none

/-- The steps of a request. -/
def Step (r : RequestState α) (e : RequestEvent) (r' : RequestState α) : Prop :=
  r.next handler e = some r'

/-- What an event can do, branch by branch. -/
inductive Moves : RequestEvent → RequestState α → Prop where
  | connected (ok : Bool) (hstage : r.stage = .connecting) :
    Moves (.connected ok) { r with stage := if ok then .starting else .refusing }
  | started (active : Bool) (hstage : r.stage = .starting) :
    Moves (.started true active)
      { r with stage := .configuring, active := true, tx := some .idle, log := r.log ++ [.begun] }
  | startFailed (active : Bool) (hstage : r.stage = .starting) :
    Moves (.started false active) { r with stage := .refusing, active }
  | configured (ok : Bool) (hstage : r.stage = .configuring) :
    Moves (.configured ok) { r with stage := if ok then .lookingUp else .refusing }
  | found (hstage : r.stage = .lookingUp) :
    Moves (.lookedUp .found) { r with stage := .handling handler, listening := true }
  | notFound (verdict : Verdict) (hstage : r.stage = .lookingUp) :
    Moves (.lookedUp verdict) { r with stage := .refusing }
  | rolledBack (hstage : r.stage = .refusing) :
    Moves .rolledBack { (if r.active then r.finishTx .rolledBack else r) with stage := .releasing }
  | released (hstage : r.stage = .releasing) :
    Moves .released { r.release with stage := .responding }
  | clock {s : Command} {k : Except SqlState s.Result → HandlerProg α} (id : Uuid) (time : ℤ)
    (answer : Except SqlState s.Result) (hstage : r.stage = .handling (.call s k)) :
    Moves (.clock id time) { r with stage := .handling (k answer) }
  | answered {s : Command} {k : Except SqlState s.Result → HandlerProg α}
    (answer : Except SqlState s.Result) (hstage : r.stage = .handling (.call s k)) :
    Moves .issued { r with stage := .handling (k answer) }
  | sent {s : Command} {k : Except SqlState s.Result → HandlerProg α}
    (hstage : r.stage = .handling (.call s k)) (hrecipient : recipient s = .runner)
      (hheld : ¬r.Released) :
    Moves .issued { r with stage := .awaiting s k, queue := r.queue ++ [.statement] }
  | statement {s : Command} {k : Except SqlState s.Result → HandlerProg α} {queue : List Queued}
    (id : Uuid) (time : ℤ) (refused : Bool) (code : SqlState)
    (hqueue : r.queue = .statement :: queue) (hstage : r.stage = .awaiting s k) :
    Moves (.executed id time refused code) ({ r with queue }.execute id time refused code s k)
  | commit {queue : List Queued} (id : Uuid) (time : ℤ) (refused : Bool) (code : SqlState)
    (hqueue : r.queue = .commit :: queue) (hstage : r.stage = .committing) :
    Moves (.executed id time refused code) { ({ r with queue }.finishTx .committed) with
      stage := .settling
      store := r.store.applyAll r.commitWrites
      committed := r.committed ++ r.commitWrites }
  | rollback {queue : List Queued} (id : Uuid) (time : ℤ) (refused : Bool) (code : SqlState)
    (hqueue : r.queue = .rollback :: queue) :
    Moves (.executed id time refused code)
      { ({ r with queue }.finishTx .rolledBack) with listener := .releasing }
  | returnedSettled {a : α} (hstage : r.stage = .handling (.ret a)) (hsettled : r.settled = true) :
    Moves .ended { r with stage := .responding, returned := true }
  | returned {a : α} (hstage : r.stage = .handling (.ret a)) (hsettled : r.settled = false) :
    Moves .ended { r with
      stage := .committing, returned := true, settled := true, queue := r.queue ++ [.commit] }
  | threw {e : Thrown} (hstage : r.stage = .handling (.raise e)) :
    Moves .ended { r with stage := .responding }
  | listenerReleased (hlistener : r.listener = .releasing) :
    Moves .runnerReleased { r.release with listener := .done }
  | interceptorReleased (hstage : r.stage = .settling) :
    Moves .runnerReleased { r.release with stage := .responding }
  | answer (hstage : r.stage = .responding) (hreply : r.reply = .pending) :
    Moves .responded ({ r with stage := .responded, reply := .finished } : RequestState α).hear
  | dropped (hstage : r.stage = .responding) (hreply : r.reply ≠ .pending) :
    Moves .responded { r with stage := .responded }
  | disconnected (hreply : r.reply = .pending) :
    Moves .disconnected ({ r with reply := .lost r.listening } : RequestState α).hear
  | responseClosed (hreply : r.reply = .finished) :
    Moves .responseClosed ({ r with reply := .closed } : RequestState α).hear
  | otherCommit (db : Store platformSchema) : Moves (.otherCommit db) { r with store := db }

/-- A step is one of the moves. -/
theorem Step.moves {r r' : RequestState α} {e : RequestEvent} (h : Step handler r e r') :
    Moves handler r e r' := by
  unfold Step next at h
  split at h
  case h_1 ok hstage => cases h; exact .connected ok hstage
  case h_2 ok active hstage =>
    cases ok with
    | true => cases h; exact .started active hstage
    | false => cases h; exact .startFailed active hstage
  case h_3 ok hstage => cases h; exact .configured ok hstage
  case h_4 hstage => cases h; exact .found hstage
  case h_5 verdict _ hstage => cases h; exact .notFound verdict hstage
  case h_6 hstage => cases h; exact .rolledBack hstage
  case h_7 hstage => cases h; exact .released hstage
  case h_8 id time s k hstage =>
    split at h
    · cases h; exact .clock id time _ hstage
    · cases h
  -- the handler issues a statement, to its runner or to the pool
  case h_9 =>
    unfold issue at h
    split at h
    case h_2 => cases h
    case h_1 s k hstage =>
      split at h
      case h_1 hrecipient =>
        split at h
        case isTrue => cases h; exact .answered _ hstage
        case isFalse hheld => cases h; exact .sent hstage hrecipient hheld
      case h_2 => cases h; exact .answered _ hstage
      case h_3 => cases h
  case h_10 _ id time refused code =>
    unfold dequeue at h
    split at h
    case h_1 hqueue hstage => cases h; exact .statement id time refused code hqueue hstage
    case h_2 hqueue hstage => cases h; exact .commit id time refused code hqueue hstage
    case h_3 hqueue => cases h; exact .rollback id time refused code hqueue
    case h_4 => cases h
  case h_11 =>
    unfold finishHandler at h
    split at h
    case h_1 hstage =>
      split at h
      case isTrue hsettled => cases h; exact .returnedSettled hstage hsettled
      case isFalse hsettled => cases h; exact .returned hstage (Bool.eq_false_iff.2 hsettled)
    case h_2 hstage => cases h; exact .threw hstage
    case h_3 => cases h
  -- whoever has settled releases the connection
  case h_12 =>
    split at h
    case isTrue hlistener => cases h; exact .listenerReleased hlistener
    case isFalse =>
      split at h
      case h_1 hstage => cases h; exact .interceptorReleased hstage
      case h_2 => cases h
  case h_13 hstage =>
    split at h
    case h_1 hreply => cases h; exact .answer hstage hreply
    case h_2 hreply => cases h; exact .dropped hstage hreply
  case h_14 =>
    split at h
    case isTrue hreply => cases h; exact .disconnected hreply
    case isFalse => cases h
  case h_15 =>
    split at h
    case isTrue hreply => cases h; exact .responseClosed hreply
    case isFalse => cases h
  case h_16 _ db => cases h; exact .otherCommit db
  case h_17 => cases h

end RequestState

end BookingPlatform
