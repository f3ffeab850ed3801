import BookingPlatform.Staff.Eligibility
import BookingPlatform.Tenant.Release

/-!
# Atomicity of a Request

What a handler writes is committed as a whole or not at all, as long as it writes to no table
without a policy between the `ROLLBACK` of a listener and the release of the runner. Such a write is
accepted in autocommit: the event of a booking is committed, and the booking is not.

## Main definitions

- `Whole`: what is committed of the work of the handler.
- `WritesInTransaction`: no such write is issued.

## Main results

- `autocommitWrites_nil`: every other statement writes nothing in autocommit.
- `Whole.step`: every admitted event keeps the work whole.
- `requests_allOrNothing`: in every admitted run, all the writes are committed or none of them.
-/

namespace BookingPlatform

open Library

/-- Without a tenant the policies refuse what the other tables would accept. -/
theorem autocommitWrites_nil {s : Command} (h : writesUnguarded s = false)
    (db : Store platformSchema) (id : Uuid) (time : ℤ) (code : SqlState) :
    autocommitWrites db s (autocommitAnswer db id time code s) = [] := by
  unfold autocommitAnswer
  by_cases hconfined : confined s = true
  · rw [if_pos hconfined]
    rfl
  · rw [if_neg hconfined]
    cases s with
    | insert τ mk => simp_all [writesUnguarded, confined]
    | insertIgnore τ mk => simp_all [writesUnguarded, confined]
    | update τ p set => simp_all [writesUnguarded, confined]
    | delete τ p => simp_all [writesUnguarded, confined]
    | _ => rfl

namespace RequestState

section Whole

variable {α : Type} {handler : HandlerProg α} {r r' : RequestState α}

/-! ## The work of the handler -/

/-- While its transaction is open, the work of the handler is what the transaction has pending. A
statement that waits behind the `ROLLBACK` writes nothing. -/
structure Whole (r : RequestState α) : Prop where
  entering : r.listening = false → r.work = [] ∧ r.committed = []
  pending : ∀ tx, r.tx = some tx → r.work = tx.pending ∧ r.committed = []
  behind : ∀ s k, r.stage = .awaiting s k → r.tx = none ∨ r.queue.head? = some .rollback →
    writesUnguarded s = false
  whole : r.committed = [] ∨ r.committed = r.work

/-- A write to a table without a policy is issued before a listener takes the runner, or after its
release. -/
def WritesInTransaction (r : RequestState α) (e : RequestEvent) : Prop :=
  e = .issued → ∀ s k, r.stage = .handling (.call s k) →
    r.listener = .rollingBack ∨ r.listener = .releasing → writesUnguarded s = false

theorem whole_initial (db : Store platformSchema) : (initial db : RequestState α).Whole where
  entering _ := ⟨rfl, rfl⟩
  pending _ htx := nomatch htx
  behind _ _ hstage := nomatch hstage
  whole := .inl rfl

/-- Outside of an `await` of a statement nothing is behind the `ROLLBACK`. -/
theorem Whole.moves {stage : Stage α} {reply : Reply} {settled active returned : Bool}
    {listener : Listener} {queue : List Queued} {store : Store platformSchema}
    {log : List RunnerEvent} (h : r.Whole) (hstage : ∀ s k, stage ≠ .awaiting s k) :
    ({ r with stage, reply, settled, active, returned, listener, queue, store, log } :
      RequestState α).Whole :=
  ⟨h.entering, h.pending, fun s k hawaiting => absurd hawaiting (hstage s k), h.whole⟩

/-- A listener that hears queues its `ROLLBACK` behind a statement that waits. -/
theorem Whole.hear (h : r.Whole)
    (hqueue : ∀ s k, r.stage = .awaiting s k → r.settled = false → r.queue = [.statement]) :
    r.hear.Whole := by
  unfold RequestState.hear
  split
  case isFalse => exact h
  case isTrue hheard =>
    have hsettled : r.settled = false := by
      rw [Bool.and_eq_true, Bool.not_eq_true'] at hheard
      exact hheard.2
    refine ⟨h.entering, h.pending, ?_, h.whole⟩
    intro s k hstage hbehind
    refine h.behind s k hstage (hbehind.imp_right fun hhead => ?_)
    have hstatement : r.queue = [.statement] := hqueue s k hstage hsettled
    rw [hstatement] at hhead
    cases hhead

/-- What waits while nobody has settled the flag. -/
theorem Custody.queue_of_awaiting {s : Command} {k : Except SqlState s.Result → HandlerProg α}
    (h : r.Custody) (hstage : r.stage = .awaiting s k) (hsettled : r.settled = false) :
    r.queue = [.statement] := by
  cases h with
  | middleware h => exact absurd (by rw [hstage]; rfl) h.outside
  | nobody h =>
    rw [h.queue, hstage]
    rfl
  | listener h => exact absurd (hsettled.symm.trans h.settled) Bool.false_ne_true
  | rolledBack h => exact absurd (hsettled.symm.trans h.settled) Bool.false_ne_true
  | interceptor h => exact absurd (hsettled.symm.trans h.settled) Bool.false_ne_true

/-- The handler sends a statement. -/
theorem Whole.send {s : Command} {k : Except SqlState s.Result → HandlerProg α} (h : r.Whole)
    (hcustody : r.Custody) (hguard : r.WritesInTransaction .issued)
    (hstage : r.stage = .handling (.call s k)) (hheld : ¬r.Released) :
    ({ r with stage := .awaiting s k, queue := r.queue ++ [.statement] } :
      RequestState α).Whole := by
  refine ⟨h.entering, h.pending, ?_, h.whole⟩
  rintro s' k' ⟨⟩ hbehind
  have hguarded := hguard rfl s k hstage
  have hidle : inFlight r.stage = [] := by rw [hstage]; rfl
  cases hcustody with
  | middleware h => exact absurd (by rw [hstage]; rfl) h.outside
  -- nobody has settled: the transaction is open, and nothing is queued before the statement
  | nobody h =>
    rcases hbehind with hnone | hhead
    · have htx := h.tx
      rw [hnone] at htx
      cases htx
    · rw [h.queue, hidle] at hhead
      cases hhead
  -- the listener rolls back, and a write behind its `ROLLBACK` is excluded
  | listener h => exact hguarded (.inl h.listener)
  -- the connection is being released, or it has been released
  | rolledBack h =>
    rcases h.log with ⟨hreleasing, -⟩ | ⟨-, hlog⟩
    · exact hguarded (.inr hreleasing)
    · exact absurd (by simp [Released, hlog]) hheld
  | interceptor h =>
    have hlog := h.log
    rw [hstage] at hlog
    exact hlog.elim

/-- The connection executes the statement of the handler, in the transaction or after it. -/
theorem Whole.execute {s : Command} {k : Except SqlState s.Result → HandlerProg α}
    {queue : List Queued} (h : r.Whole) (hstage : r.stage = .awaiting s k)
    (hlistening : r.listening = true) (id : Uuid) (time : ℤ) (refused : Bool) (code : SqlState) :
    ({ r with queue }.execute id time refused code s k).Whole := by
  have hentered : ∀ {w c : List (Change platformSchema)}, r.listening = false → w = [] ∧ c = [] :=
    fun hfalse => absurd (hlistening.symm.trans hfalse) (by simp)
  unfold RequestState.execute
  cases htx : r.tx with
  | some tx =>
    obtain ⟨-, hcommitted⟩ := h.pending tx htx
    refine ⟨hentered, ?_, (fun _ _ hawaiting => nomatch hawaiting), .inl hcommitted⟩
    rintro tx' ⟨⟩
    exact ⟨rfl, hcommitted⟩
  | none =>
    cases refused with
    | true =>
      exact ⟨hentered, (fun _ hsome => nomatch hsome),
        (fun _ _ hawaiting => nomatch hawaiting), h.whole⟩
    | false =>
      -- after the transaction a statement commits by itself: this one writes nothing
      have hnothing : autocommitWrites r.store s (autocommitAnswer r.store id time code s) = [] :=
        autocommitWrites_nil (h.behind s k hstage (.inl htx)) r.store id time code
      refine ⟨hentered, (fun _ hsome => nomatch hsome),
        (fun _ _ hawaiting => nomatch hawaiting), ?_⟩
      simpa [hnothing] using h.whole

/-- The `COMMIT` of the interceptor commits the work of the handler, or nothing of an aborted
transaction. -/
theorem Whole.commit {queue : List Queued} {store : Store platformSchema} (h : r.Whole)
    (hlistening : r.listening = true) (htx : r.tx.isSome) :
    ({ ({ r with queue } : RequestState α).finishTx .committed with
      stage := .settling, store, committed :=
          r.committed ++ r.commitWrites } : RequestState α).Whole := by
  obtain ⟨tx, htx⟩ := Option.isSome_iff_exists.1 htx
  obtain ⟨hwork, hcommitted⟩ := h.pending tx htx
  have hwhole : r.committed ++ r.commitWrites = [] ∨ r.committed ++ r.commitWrites = r.work := by
    unfold commitWrites
    rw [htx, hcommitted, hwork, List.nil_append]
    dsimp only
    split
    · exact .inl rfl
    · exact .inr rfl
  exact ⟨fun hfalse => absurd (hlistening.symm.trans hfalse) (by simp),
    (fun _ hnone => nomatch hnone), (fun _ _ hawaiting => nomatch hawaiting), hwhole⟩

/-- The transaction is rolled back, and what waits behind the `ROLLBACK` writes nothing. -/
theorem Whole.rollBack {queue : List Queued} {active : Bool} {log : List RunnerEvent}
    {listener : Listener} (h : r.Whole) (hqueue : r.queue = .rollback :: queue) :
    ({ r with queue, active, tx := none, log, listener } : RequestState α).Whole := by
  have hhead : r.queue.head? = some .rollback := by rw [hqueue]; rfl
  exact ⟨h.entering, (fun _ hsome => nomatch hsome),
    (fun s k hstage _ => h.behind s k hstage (.inr hhead)),
    h.whole⟩

/-- After the middleware the listeners are attached. -/
theorem Custody.listening_of_inside (h : r.Custody) (hinside : isInside r.stage = true) :
    r.listening = true := by
  cases h with
  | middleware h => exact absurd hinside h.outside
  | nobody h => exact h.listening
  | listener h => exact h.listening
  | rolledBack h => exact h.listening
  | interceptor h => exact h.listening

/-- The transaction is open until the interceptor commits. -/
theorem Custody.open_of_committing (h : r.Custody) (hstage : r.stage = .committing) :
    r.tx.isSome := by
  have hat : ¬AtHandler r.stage := by
    rw [hstage]
    exact id
  cases h with
  | middleware h => exact absurd (by rw [hstage]; rfl) h.outside
  | nobody h => exact absurd h.stage hat
  | listener h => exact absurd h.stage hat
  | rolledBack h => exact absurd h.stage hat
  | interceptor h =>
    have hlog := h.log
    rw [hstage] at hlog
    exact hlog.1

/-- Every admitted event keeps the work of the handler whole. -/
theorem Whole.step {e : RequestEvent} (h : r.Whole) (hcustody : r.Custody)
    (hguard : r.WritesInTransaction e) (hstep : Step handler r e r') : r'.Whole := by
  -- a stage with nothing in flight does not await a statement
  have helsewhere : ∀ {s : Command} {k : Except SqlState s.Result → HandlerProg α}
      {stage : Stage α},
      inFlight stage = [] → stage ≠ .awaiting s k := by
    rintro s k stage hidle rfl
    cases hidle
  cases hstep.moves with
  | connected ok hstage => cases ok <;> exact h.moves fun _ _ => helsewhere rfl
  | started active hstage =>
    obtain ⟨hentering, -⟩ := hcustody.entering_at hstage id rfl
    obtain ⟨hwork, hcommitted⟩ := h.entering hentering.listening
    refine ⟨h.entering, ?_, fun _ _ hawaiting => absurd hawaiting (helsewhere rfl), h.whole⟩
    rintro tx ⟨⟩
    exact ⟨hwork, hcommitted⟩
  | startFailed active hstage => exact h.moves fun _ _ => helsewhere rfl
  | configured ok hstage => cases ok <;> exact h.moves fun _ _ => helsewhere rfl
  | found hstage =>
    exact ⟨(fun hfalse => nomatch hfalse), h.pending,
      fun _ _ hawaiting => absurd hawaiting (helsewhere rfl), h.whole⟩
  | notFound verdict hstage => exact h.moves fun _ _ => helsewhere rfl
  | rolledBack hstage =>
    split
    · exact ⟨h.entering, (fun _ hsome => nomatch hsome),
        fun _ _ hawaiting => absurd hawaiting (helsewhere rfl), h.whole⟩
    · exact h.moves fun _ _ => helsewhere rfl
  | released hstage => exact h.moves fun _ _ => helsewhere rfl
  | clock id time answer hstage => exact h.moves fun _ _ => helsewhere rfl
  | answered answer hstage => exact h.moves fun _ _ => helsewhere rfl
  | sent hstage hrecipient hheld => exact h.send hcustody hguard hstage hheld
  | statement id time refused code hqueue hstage =>
    have hlistening : r.listening = true := hcustody.listening_of_inside (by rw [hstage]; rfl)
    exact h.execute hstage hlistening id time refused code
  | commit id time refused code hqueue hstage =>
    have hlistening : r.listening = true := hcustody.listening_of_inside (by rw [hstage]; rfl)
    exact h.commit hlistening (hcustody.open_of_committing hstage)
  | rollback id time refused code hqueue => exact h.rollBack hqueue
  | returnedSettled hstage hsettled => exact h.moves fun _ _ => helsewhere rfl
  | returned hstage hsettled => exact h.moves fun _ _ => helsewhere rfl
  | threw hstage => exact h.moves fun _ _ => helsewhere rfl
  | listenerReleased hlistener => exact ⟨h.entering, h.pending, h.behind, h.whole⟩
  | interceptorReleased hstage => exact h.moves fun _ _ => helsewhere rfl
  | answer hstage hreply =>
    have hresponded : ({ r with stage := .responded, reply := .finished } : RequestState α).Whole :=
      h.moves fun _ _ => helsewhere rfl
    exact hresponded.hear fun _ _ hawaiting => absurd hawaiting (helsewhere rfl)
  | dropped hstage hreply => exact h.moves fun _ _ => helsewhere rfl
  -- the listeners hear of a client that is gone
  | disconnected hreply =>
    have hlost : ({ r with reply := .lost r.listening } : RequestState α).Whole :=
      ⟨h.entering, h.pending, h.behind, h.whole⟩
    exact hlost.hear fun _ _ hstage hsettled => hcustody.queue_of_awaiting hstage hsettled
  | responseClosed hreply =>
    have hclosed : ({ r with reply := .closed } : RequestState α).Whole :=
      ⟨h.entering, h.pending, h.behind, h.whole⟩
    exact hclosed.hear fun _ _ hstage hsettled => hcustody.queue_of_awaiting hstage hsettled
  | otherCommit db => exact ⟨h.entering, h.pending, h.behind, h.whole⟩

end Whole

/-! ## Runs -/

/-- All the writes of the handler are committed, or none of them. -/
def AllOrNothing {α : Type} (r : RequestState α) : Prop := r.committed = [] ∨ r.committed = r.work

/-- In every run in which no write to a table without a policy is issued between the `ROLLBACK` of a
listener and the release of the runner, the writes of the handler are committed as a whole or not at
all. -/
theorem requests_allOrNothing {α : Type} {handler : HandlerProg α} {db : Store platformSchema}
    {r : RequestState α} (hrun : Runs (Step handler) WritesInTransaction (initial db) r) :
    r.AllOrNothing := by
  have hkeep : ∀ ⦃x e y⦄, x.Custody ∧ x.Whole → WritesInTransaction x e → Step handler x e y →
      y.Custody ∧ y.Whole := by
    intro x e y ⟨hcustody, hwhole⟩ hguard hstep
    exact ⟨hcustody.step hstep, hwhole.step hcustody hguard hstep⟩
  have hend : r.Custody ∧ r.Whole :=
    Runs.invariant (I := fun x =>
      x.Custody ∧ x.Whole) hkeep hrun ⟨custody_initial db, whole_initial db⟩
  exact hend.2.whole

/-! ## A client that disconnects -/

/-- `POST /bookings` of the sample tenant, without an Idempotency-Key. -/
def sampleHandler : HandlerProg Response :=
  (route tenantRuntime ⟨1, .create ⟨10, 20, 30, "1970-01-01T00:00:00.000Z"⟩ none⟩).translate
    bookingCommands

/-- The request up to the answer to its last lookup. -/
def untilInsert : List RequestEvent :=
  [.connected true, .started true true, .configured true, .lookedUp .found, .issued,
    .executed 0 0 false "",
   .issued, .executed 0 0 false "", .issued, .executed 0 0 false ""]

/-- The client stays until the booking and its event are committed. -/
def undisturbed : List RequestEvent :=
  untilInsert ++ [.issued, .executed 70 0 false "", .issued, .executed 71 0 false "", .ended,
    .executed 0 0 false "", .runnerReleased, .responded]

/-- The client disconnects while the booking is inserted. The insert of its event is queued behind
the `ROLLBACK` of the listener. -/
def disturbed : List RequestEvent :=
  untilInsert ++ [.issued, .disconnected, .executed 70 0 false "", .issued, .executed 0 0 false "",
    .executed 71 0 false ""]

/-- The rows of the sample tenant. -/
def sampleRows : Store platformSchema := sampleTenant "UTC" (sampleService 0) [] []

/-- The booking and its event are committed together. -/
theorem requests_allOrNothing_undisturbed :
    ∃ r : RequestState Response,
      Runs (Step sampleHandler) WritesInTransaction (initial sampleRows) r ∧
      r.committed.length = 2 ∧ r.AllOrNothing := by
  have hidle : ∀ (x : RequestState Response) (e : RequestEvent),
    decide (x.listener = .idle) = true →
      x.WritesInTransaction e := by
    intro x e hok _ s k _ hlistening
    rw [of_decide_eq_true hok] at hlistening
    simp at hlistening
  have hrun : ∃ r : RequestState Response,
      Runs (Step sampleHandler) WritesInTransaction (initial sampleRows) r ∧
      r.committed.length = 2 :=
    ⟨_, Runs.foldlM undisturbed hidle rfl, rfl⟩
  obtain ⟨r, hrun, hcommitted⟩ := hrun
  exact ⟨r, hrun, hcommitted, requests_allOrNothing hrun⟩

/-- The event of the booking is committed, and the booking is not. -/
theorem disconnect_commits_event_alone :
    ∃ (r : RequestState Response) (event : OutboxEvent),
      Runs (Step sampleHandler) anyStep (initial sampleRows) r ∧
        r.committed = [.put .outboxEvents event] ∧ r.store .bookings = [] ∧ ¬r.AllOrNothing := by
  have hadmitted : ∀ (x : RequestState Response) (e : RequestEvent), true = true → anyStep x e :=
    fun _ _ _ => trivial
  refine ⟨_, _, Runs.foldlM disturbed hadmitted rfl, rfl, rfl, ?_⟩
  rintro (hnothing | hall)
  · cases hnothing
  · cases congrArg List.length hall

end RequestState

end BookingPlatform
