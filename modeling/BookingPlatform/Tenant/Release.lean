import BookingPlatform.Tenant.Request

/-!
# Release of the Query Runner

Whoever settles the flag ends the transaction and releases the query runner: the early exits of the
middleware, the interceptor, or a listener. After a handler that throws this is left to the
listeners, which hear nothing if the client was gone before they were attached.

## Main definitions

- `Custody`: who has to end the transaction and release the runner.
- `Clean`: it was ended once and released once.

## Main results

- `Custody.step`: every event keeps or hands over the custody.
- `requests_releaseOnce`: a request that is over has released its runner, unless its handler threw
  unheard.
-/

namespace BookingPlatform

open Library

namespace RequestState

section Custody

variable {α : Type} {handler : HandlerProg α} {r r' : RequestState α}

/-! ## Custody -/

/-- What waits of the handler. -/
def inFlight : Stage α → List Queued
  | .awaiting _ _ => [.statement]
  | _ => []

/-- The middleware is through, and the interceptor does not hold the runner. -/
def AtHandler : Stage α → Prop
  | .handling _ | .awaiting _ _ | .responding | .responded => True
  | _ => False

/-- The response has not been sent. -/
def Unanswered (r : RequestState α) : Prop := r.reply = .pending ∨ ∃ heard, r.reply = .lost heard

/-- What the middleware has done with the transaction, in its body, in its early exits and after
them. -/
def EnteringLog (r : RequestState α) : Prop :=
  match r.stage with
  | .connecting | .starting => r.tx = none ∧ r.log = [] ∧ r.Unanswered
  | .configuring | .lookingUp => r.active = true ∧ r.tx.isSome ∧ r.log = [.begun] ∧ r.Unanswered
  | .refusing =>
    ((r.tx = none ∧ r.log = []) ∨ (r.active = true ∧ r.tx.isSome ∧ r.log = [.begun])) ∧ r.Unanswered
  | .releasing => (r.log = [] ∨ r.log = [.begun, .rolledBack]) ∧ r.Unanswered
  | .responding => (r.log = [.released] ∨ r.log = [.begun, .rolledBack, .released]) ∧ r.Unanswered
  | .responded => r.log = [.released] ∨ r.log = [.begun, .rolledBack, .released]
  | _ => False

/-- The middleware holds the runner. -/
structure Entering (r : RequestState α) : Prop where
  listening : r.listening = false
  settled : r.settled = false
  listener : r.listener = .idle
  queue : r.queue = []
  returned : r.returned = false
  heard : r.reply ≠ .lost true
  log : r.EnteringLog

/-- Nobody has settled the flag. A connection that is lost now is heard of. -/
structure Unsettled (r : RequestState α) : Prop where
  listening : r.listening = true
  settled : r.settled = false
  listener : r.listener = .idle
  stage : AtHandler r.stage
  queue : r.queue = inFlight r.stage
  tx : r.tx.isSome
  log : r.log = [.begun]
  returned : r.returned = false
  reply : r.reply = .lost false ∨ r.reply = .pending ∧ r.stage.isResponded = false

/-- The listener waits for its `ROLLBACK`, which the handler does not know of. -/
structure RollingBack (r : RequestState α) : Prop where
  listening : r.listening = true
  settled : r.settled = true
  listener : r.listener = .rollingBack
  stage : AtHandler r.stage
  queue : r.queue = inFlight r.stage ++ [.rollback] ∨ r.queue = .rollback :: inFlight r.stage
  tx : r.tx.isSome
  log : r.log = [.begun]

/-- The transaction is rolled back, and the listener releases the runner or has done so. -/
structure RolledBack (r : RequestState α) : Prop where
  listening : r.listening = true
  settled : r.settled = true
  stage : AtHandler r.stage
  queue : r.queue = inFlight r.stage
  tx : r.tx = none
  log : r.listener = .releasing ∧ r.log = [.begun, .rolledBack] ∨
    r.listener = .done ∧ r.log = [.begun, .rolledBack, .released]

/-- The handler has returned, and the interceptor holds the runner or has released it. -/
structure Committing (r : RequestState α) : Prop where
  listening : r.listening = true
  settled : r.settled = true
  listener : r.listener = .idle
  returned : r.returned = true
  log : match r.stage with
    | .committing => r.tx.isSome ∧ r.log = [.begun] ∧ r.queue = [.commit]
    | .settling => r.tx = none ∧ r.log = [.begun, .committed] ∧ r.queue = []
    | .responding | .responded =>
      r.tx = none ∧ r.log = [.begun, .committed, .released] ∧ r.queue = []
    | _ => False

/-- Who has to end the transaction and to release the runner. -/
inductive Custody (r : RequestState α) : Prop where
  | middleware (h : r.Entering)
  | nobody (h : r.Unsettled)
  | listener (h : r.RollingBack)
  | rolledBack (h : r.RolledBack)
  | interceptor (h : r.Committing)

/-- The stages between the middleware and the response. -/
def isInside : Stage α → Bool
  | .handling _ | .awaiting _ _ | .committing | .settling => true
  | _ => false

theorem Entering.outside (h : r.Entering) : ¬isInside r.stage = true := by
  intro hinside
  have hlog := h.log
  unfold EnteringLog at hlog
  split at hlog <;> simp_all [isInside]

/-! ## Events -/

/-- Another session, and the process of the handler, leave the custody as it is. -/
theorem Custody.otherCommit (h : r.Custody) (db : Store platformSchema) :
    ({ r with store := db } : RequestState α).Custody := by
  cases h with
  | middleware h =>
    exact .middleware ⟨h.listening, h.settled, h.listener, h.queue, h.returned, h.heard, h.log⟩
  | nobody h =>
    exact .nobody ⟨h.listening, h.settled, h.listener, h.stage, h.queue, h.tx, h.log,
      h.returned, h.reply⟩
  | listener h =>
    exact .listener ⟨h.listening, h.settled, h.listener, h.stage, h.queue, h.tx, h.log⟩
  | rolledBack h => exact .rolledBack ⟨h.listening, h.settled, h.stage, h.queue, h.tx, h.log⟩
  | interceptor h => exact .interceptor ⟨h.listening, h.settled, h.listener, h.returned, h.log⟩

/-- The handler goes on by itself, or throws. -/
theorem Custody.goesOn {p : HandlerProg α} {stage : Stage α} (h : r.Custody)
    (hstage : r.stage = .handling p) (hat : AtHandler stage)
    (hresponded : stage.isResponded = false) (hflight : inFlight stage = []) :
    ({ r with stage } : RequestState α).Custody := by
  have hidle : inFlight r.stage = [] := by rw [hstage]; rfl
  cases h with
  | middleware h => exact absurd (by rw [hstage]; rfl) h.outside
  | nobody h =>
    have hqueue : r.queue = inFlight stage := by rw [h.queue, hidle, hflight]
    have hreply := h.reply.imp_right fun hpending => And.intro hpending.1 hresponded
    exact .nobody ⟨h.listening, h.settled, h.listener, hat, hqueue, h.tx, h.log, h.returned, hreply⟩
  -- the `ROLLBACK` of the listener stays in the queue
  | listener h =>
    have hqueue : r.queue = inFlight stage ++ [.rollback] ∨
        r.queue = .rollback :: inFlight stage := by
      have hqueue := h.queue
      rw [hidle] at hqueue
      rwa [hflight]
    exact .listener ⟨h.listening, h.settled, h.listener, hat, hqueue, h.tx, h.log⟩
  | rolledBack h =>
    have hqueue : r.queue = inFlight stage := by rw [h.queue, hidle, hflight]
    exact .rolledBack ⟨h.listening, h.settled, hat, hqueue, h.tx, h.log⟩
  | interceptor h =>
    have hlog := h.log
    rw [hstage] at hlog
    exact hlog.elim

/-- The handler sends a statement, which queues up behind what is there. -/
theorem Custody.send {p : HandlerProg α} {s : Command}
    {k : Except SqlState s.Result → HandlerProg α} (h : r.Custody)
    (hstage : r.stage = .handling p) :
    ({ r with stage := .awaiting s k, queue := r.queue ++ [.statement] } :
      RequestState α).Custody := by
  have hidle : inFlight r.stage = [] := by rw [hstage]; rfl
  cases h with
  | middleware h => exact absurd (by rw [hstage]; rfl) h.outside
  | nobody h =>
    have hqueue : r.queue ++ [.statement] = inFlight (.awaiting s k) := by rw [h.queue, hidle]; rfl
    have hreply : r.reply = .lost false ∨ r.reply = .pending ∧
        (Stage.awaiting s k).isResponded = false :=
      h.reply.imp_right fun hpending => ⟨hpending.1, rfl⟩
    exact .nobody ⟨h.listening, h.settled, h.listener, trivial, hqueue, h.tx, h.log,
      h.returned, hreply⟩
  | listener h =>
    -- the statement queues up behind the `ROLLBACK`
    have hbehind : r.queue ++ [.statement] = .rollback :: inFlight (.awaiting s k) := by
      have hqueue : r.queue = [.rollback] := by simpa [hidle] using h.queue
      rw [hqueue]
      rfl
    exact .listener ⟨h.listening, h.settled, h.listener, trivial, .inr hbehind, h.tx, h.log⟩
  | rolledBack h =>
    have hqueue : r.queue ++ [.statement] = inFlight (.awaiting s k) := by rw [h.queue, hidle]; rfl
    exact .rolledBack ⟨h.listening, h.settled, trivial, hqueue, h.tx, h.log⟩
  | interceptor h =>
    have hlog := h.log
    rw [hstage] at hlog
    exact hlog.elim

theorem hear_of_settled {r : RequestState α} (h : r.settled = true) : r.hear = r := by
  unfold RequestState.hear
  rw [if_neg (by simp [h])]

/-- A listener that hears of the end of the response takes the runner into custody, if nobody has
it. -/
theorem Unsettled.hear {stage : Stage α} {reply : Reply} (h : r.Unsettled) (hat : AtHandler stage)
    (hflight : inFlight r.stage = inFlight stage) :
    ({ r with stage, reply } : RequestState α).hear.Custody := by
  have hheard : ({ r with stage, reply } : RequestState α).hear =
      { r with stage, reply, settled := true, listener := .rollingBack,
               queue := r.queue ++ [.rollback] } := by
    unfold RequestState.hear
    rw [if_pos (by simp [h.listening, h.settled])]
  rw [hheard]
  have hqueue : r.queue ++ [.rollback] = inFlight stage ++ [.rollback] := by rw [h.queue, hflight]
  exact .listener ⟨h.listening, rfl, rfl, hat, .inl hqueue, h.tx, h.log⟩

/-- The listeners hear of the end of the response, or are not attached yet. -/
theorem Custody.hear {reply : Reply} (h : r.Custody)
    (hentering : r.Entering → ({ r with reply } : RequestState α).Entering) :
    ({ r with reply } : RequestState α).hear.Custody := by
  cases h with
  | middleware h =>
    -- the listeners are not attached yet
    have hdeaf : ({ r with reply } : RequestState α).hear = { r with reply } := by
      unfold RequestState.hear
      rw [if_neg (by simp [h.listening])]
    rw [hdeaf]
    exact .middleware (hentering h)
  | nobody h => exact h.hear h.stage rfl
  | listener h =>
    have hdeaf : ({ r with reply } : RequestState α).hear = { r with reply } :=
      hear_of_settled h.settled
    rw [hdeaf]
    exact .listener ⟨h.listening, h.settled, h.listener, h.stage, h.queue, h.tx, h.log⟩
  | rolledBack h =>
    have hdeaf : ({ r with reply } : RequestState α).hear = { r with reply } :=
      hear_of_settled h.settled
    rw [hdeaf]
    exact .rolledBack ⟨h.listening, h.settled, h.stage, h.queue, h.tx, h.log⟩
  | interceptor h =>
    have hdeaf : ({ r with reply } : RequestState α).hear = { r with reply } :=
      hear_of_settled h.settled
    rw [hdeaf]
    exact .interceptor ⟨h.listening, h.settled, h.listener, h.returned, h.log⟩

/-- The response is sent, or dropped. -/
theorem Custody.respond (h : r.Custody) (hstage : r.stage = .responding) :
    ({ r with stage := .responded } : RequestState α).Custody ∨
      r.Unsettled ∧ r.reply = .pending := by
  have hflight : inFlight r.stage = inFlight (.responded : Stage α) := by rw [hstage]; rfl
  cases h with
  | middleware h =>
    have hlog := h.log
    unfold EnteringLog at hlog
    rw [hstage] at hlog
    exact .inl (.middleware ⟨h.listening, h.settled, h.listener, h.queue, h.returned,
      h.heard, hlog.1⟩)
  | nobody h =>
    rcases h.reply with hlost | ⟨hpending, -⟩
    · have hqueue : r.queue = inFlight (.responded : Stage α) := by rw [h.queue, hflight]
      exact .inl (.nobody ⟨h.listening, h.settled, h.listener, trivial, hqueue, h.tx,
        h.log, h.returned, .inl hlost⟩)
    · -- nobody has settled, and the response is still to be sent
      exact .inr ⟨h, hpending⟩
  | listener h =>
    have hqueue := h.queue
    rw [hflight] at hqueue
    exact .inl (.listener ⟨h.listening, h.settled, h.listener, trivial, hqueue, h.tx, h.log⟩)
  | rolledBack h =>
    have hqueue : r.queue = inFlight (.responded : Stage α) := by rw [h.queue, hflight]
    exact .inl (.rolledBack ⟨h.listening, h.settled, trivial, hqueue, h.tx, h.log⟩)
  | interceptor h =>
    have hlog := h.log
    rw [hstage] at hlog
    exact .inl (.interceptor ⟨h.listening, h.settled, h.listener, h.returned, hlog⟩)

/-- The connection has executed the statement of the handler. -/
theorem Custody.execute {id : Uuid} {time : ℤ} {refused : Bool} {code : SqlState}
    {queue : List Queued} {s : Command} {k : Except SqlState s.Result → HandlerProg α}
    (h : r.Custody) (hstage : r.stage = .awaiting s k) (hqueue : r.queue = .statement :: queue) :
    ({ r with queue }.execute id time refused code s k).Custody := by
  have hflight : inFlight r.stage = [.statement] := by rw [hstage]; rfl
  cases h with
  | middleware h => exact absurd (by rw [hstage]; rfl) h.outside
  | nobody h =>
    obtain ⟨tx, htx⟩ := Option.isSome_iff_exists.1 h.tx
    have hempty : queue = [] := by
      have hsame := hqueue.symm.trans h.queue
      rw [hflight] at hsame
      exact (List.cons.inj hsame).2
    unfold RequestState.execute
    rw [htx]
    exact .nobody ⟨h.listening, h.settled, h.listener, trivial, hempty, rfl, h.log, h.returned,
      h.reply.imp_right fun hpending => ⟨hpending.1, rfl⟩⟩
  | listener h =>
    obtain ⟨tx, htx⟩ := Option.isSome_iff_exists.1 h.tx
    -- the statement was ahead of the `ROLLBACK`
    have hrest : queue = [.rollback] := by
      have hshape := h.queue
      rw [hflight, hqueue] at hshape
      rcases hshape with hahead | hbehind
      · exact (List.cons.inj hahead).2
      · cases (List.cons.inj hbehind).1
    unfold RequestState.execute
    rw [htx]
    exact .listener ⟨h.listening, h.settled, h.listener, trivial, .inl hrest, rfl, h.log⟩
  | rolledBack h =>
    have hempty : queue = [] := by
      have hsame := hqueue.symm.trans h.queue
      rw [hflight] at hsame
      exact (List.cons.inj hsame).2
    unfold RequestState.execute
    rw [h.tx]
    cases refused with
    | true => exact .rolledBack ⟨h.listening, h.settled, trivial, hempty, rfl, h.log⟩
    | false => exact .rolledBack ⟨h.listening, h.settled, trivial, hempty, rfl, h.log⟩
  | interceptor h =>
    have hlog := h.log
    rw [hstage] at hlog
    exact hlog.elim

/-- The connection has executed the `ROLLBACK` of the listener. -/
theorem Custody.rollBack {queue : List Queued} (h : r.Custody)
    (hqueue : r.queue = .rollback :: queue) :
    ({ ({ r with queue } : RequestState α).finishTx .rolledBack with listener := .releasing } :
      RequestState α).Custody := by
  have hrolling : r.RollingBack := by
    have hflight : ∀ rest, inFlight r.stage ≠ .rollback :: rest := by
      intro rest
      cases r.stage <;> simp [inFlight]
    cases h with
    | middleware h => exact absurd (hqueue.symm.trans h.queue) (List.cons_ne_nil _ _)
    | nobody h => exact absurd (h.queue.symm.trans hqueue) (hflight queue)
    | listener h => exact h
    | rolledBack h => exact absurd (h.queue.symm.trans hqueue) (hflight queue)
    | interceptor h =>
      have hlog := h.log
      split at hlog
      · cases hqueue.symm.trans hlog.2.2
      · cases hqueue.symm.trans hlog.2.2
      · cases hqueue.symm.trans hlog.2.2
      · cases hqueue.symm.trans hlog.2.2
      · exact hlog.elim
  have hrest : queue = inFlight r.stage := by
    rcases hrolling.queue with hahead | hbehind
    · -- nothing of the handler is ahead
      rw [hqueue] at hahead
      cases hflight : inFlight r.stage with
      | nil => rw [hflight] at hahead; exact (List.cons.inj hahead).2
      | cons q rest =>
        rw [hflight] at hahead
        have hstatement : q = .statement := by
          cases hstage : r.stage <;> simp [hstage, inFlight] at hflight
          exact hflight.1.symm
        rw [hstatement] at hahead
        cases (List.cons.inj hahead).1
    · exact (List.cons.inj (hqueue.symm.trans hbehind)).2
  have hlog : (({ r with queue } : RequestState α).finishTx .rolledBack).log =
      [.begun, .rolledBack] :=
    (finishTx_log_of_isSome hrolling.tx _).trans (congrArg (· ++ [.rolledBack]) hrolling.log)
  exact .rolledBack ⟨hrolling.listening, hrolling.settled, hrolling.stage, hrest, rfl,
    .inl ⟨rfl, hlog⟩⟩

/-- The connection has executed the `COMMIT` of the interceptor. -/
theorem Custody.commit {queue : List Queued} {store : Store platformSchema}
    {committed : List (Change platformSchema)} (h : r.Custody) (hstage : r.stage = .committing)
    (hqueue : r.queue = .commit :: queue) :
    ({ ({ r with queue } : RequestState α).finishTx .committed with
      stage := .settling, store, committed } :
      RequestState α).Custody := by
  -- the handler has returned, so that the interceptor has the custody
  have hat : ¬AtHandler r.stage := by
    rw [hstage]
    exact id
  cases h with
  | middleware h => exact absurd (hqueue.symm.trans h.queue) (List.cons_ne_nil _ _)
  | nobody h => exact absurd h.stage hat
  | listener h => exact absurd h.stage hat
  | rolledBack h => exact absurd h.stage hat
  | interceptor h =>
    have hcommitting := h.log
    rw [hstage] at hcommitting
    obtain ⟨htx, hbegun, hsingle⟩ := hcommitting
    have hempty : queue = [] := (List.cons.inj (hqueue.symm.trans hsingle)).2
    have hlog : (({ r with queue } : RequestState α).finishTx .committed).log =
        [.begun, .committed] :=
      (finishTx_log_of_isSome htx _).trans (congrArg (· ++ [.committed]) hbegun)
    exact .interceptor ⟨h.listening, h.settled, h.listener, h.returned, rfl, hlog, hempty⟩

/-- The handler returns: the interceptor takes the runner into custody, if nobody has it. -/
theorem Custody.interceptor_takes {a : α} (h : r.Custody) (hstage : r.stage = .handling (.ret a))
    (hunsettled : r.settled = false) :
    ({ r with stage := .committing, returned := true, settled := true,
              queue := r.queue ++ [.commit] } :
      RequestState α).Custody := by
  have hidle : inFlight r.stage = [] := by rw [hstage]; rfl
  cases h with
  | middleware h => exact absurd (by rw [hstage]; rfl) h.outside
  | nobody h =>
    have hqueue : r.queue ++ [.commit] = [.commit] := by rw [h.queue, hidle]; rfl
    exact .interceptor ⟨h.listening, rfl, h.listener, rfl, h.tx, h.log, hqueue⟩
  | listener h => exact absurd (hunsettled.symm.trans h.settled) Bool.false_ne_true
  | rolledBack h => exact absurd (hunsettled.symm.trans h.settled) Bool.false_ne_true
  | interceptor h => exact absurd (hunsettled.symm.trans h.settled) Bool.false_ne_true

/-- It returns to a flag that is set already. -/
theorem Custody.returns_settled {a : α} (h : r.Custody) (hstage : r.stage = .handling (.ret a))
    (hsettled : r.settled = true) :
    ({ r with stage := .responding, returned := true } : RequestState α).Custody := by
  have hresponding : ({ r with stage := .responding } : RequestState α).Custody :=
    h.goesOn hstage trivial rfl rfl
  cases hresponding with
  | middleware h => exact absurd (h.settled.symm.trans hsettled) Bool.false_ne_true
  | nobody h => exact absurd (h.settled.symm.trans hsettled) Bool.false_ne_true
  | listener h =>
    exact .listener ⟨h.listening, h.settled, h.listener, h.stage, h.queue, h.tx, h.log⟩
  | rolledBack h => exact .rolledBack ⟨h.listening, h.settled, h.stage, h.queue, h.tx, h.log⟩
  | interceptor h => exact .interceptor ⟨h.listening, h.settled, h.listener, rfl, h.log⟩

/-- The listener has released the runner. -/
theorem Custody.listener_releases (h : r.Custody) (hlistener : r.listener = .releasing) :
    ({ r.release with listener := .done } : RequestState α).Custody := by
  cases h with
  | middleware h => cases hlistener.symm.trans h.listener
  | nobody h => cases hlistener.symm.trans h.listener
  | listener h => cases hlistener.symm.trans h.listener
  | rolledBack h =>
    rcases h.log with ⟨-, hlog⟩ | ⟨hdone, -⟩
    · have hreleased : r.log ++ [.released] = [.begun, .rolledBack, .released] := by rw [hlog]; rfl
      exact .rolledBack ⟨h.listening, h.settled, h.stage, h.queue, h.tx, .inr ⟨rfl, hreleased⟩⟩
    · cases hlistener.symm.trans hdone
  | interceptor h => cases hlistener.symm.trans h.listener

/-- The interceptor holds the runner while it settles. -/
theorem Custody.settling_of (h : r.Custody) (hstage : r.stage = .settling) : r.Committing := by
  have hat : ¬AtHandler r.stage := by
    rw [hstage]
    exact id
  cases h with
  | middleware h => exact absurd (by rw [hstage]; rfl) h.outside
  | nobody h => exact absurd h.stage hat
  | listener h => exact absurd h.stage hat
  | rolledBack h => exact absurd h.stage hat
  | interceptor h => exact h

/-- The interceptor has released the runner. -/
theorem Custody.interceptor_releases (h : r.Custody) (hstage : r.stage = .settling) :
    ({ r.release with stage := .responding } : RequestState α).Custody := by
  have hcommitting : r.Committing := h.settling_of hstage
  have hsettling := hcommitting.log
  rw [hstage] at hsettling
  obtain ⟨htx, hlog, hqueue⟩ := hsettling
  have hreleased : r.log ++ [.released] = [.begun, .committed, .released] := by rw [hlog]; rfl
  exact .interceptor ⟨hcommitting.listening, hcommitting.settled, hcommitting.listener,
    hcommitting.returned, htx, hreleased, hqueue⟩

/-- What the stages of the middleware say of its custody. -/
theorem Custody.entering (h : r.Custody) (hat : ¬AtHandler r.stage)
    (hcommitting : r.stage ≠ .committing) (hsettling : r.stage ≠ .settling) : r.Entering := by
  cases h with
  | middleware h => exact h
  | nobody h => exact absurd h.stage hat
  | listener h => exact absurd h.stage hat
  | rolledBack h => exact absurd h.stage hat
  | interceptor h =>
    have hlog := h.log
    split at hlog
    · exact absurd ‹_› hcommitting
    · exact absurd ‹_› hsettling
    · exact absurd (by rw [‹r.stage = _›]; trivial) hat
    · exact absurd (by rw [‹r.stage = _›]; trivial) hat
    · exact hlog.elim

/-- The middleware is in the stage `stage`, with what its log says there. -/
theorem Custody.entering_at {stage : Stage α} (h : r.Custody) (hstage : r.stage = stage)
    (hat : ¬AtHandler stage) (hinside : isInside stage = false) :
    r.Entering ∧ ({ r with stage } : RequestState α).EnteringLog := by
  have hentering : r.Entering := by
    refine h.entering (by rwa [hstage]) ?_ ?_
    · rintro hcommitting
      cases hstage.symm.trans hcommitting
      cases hinside
    · rintro hsettling
      cases hstage.symm.trans hsettling
      cases hinside
  have hsame : ({ r with stage } : RequestState α) = r := by rw [← hstage]
  exact ⟨hentering, hsame ▸ hentering.log⟩

/-- An await of the middleware has ended. -/
theorem Entering.awaits {stage : Stage α} {active : Bool} {tx : Option (Tx platformSchema)}
    {log : List RunnerEvent} (h : r.Entering)
    (hlog : ({ r with stage, active, tx, log } : RequestState α).EnteringLog) :
    ({ r with stage, active, tx, log } : RequestState α).Custody :=
  .middleware ⟨h.listening, h.settled, h.listener, h.queue, h.returned, h.heard, hlog⟩

/-- The early exits roll back what was started. -/
theorem Custody.earlyExit (h : r.Custody) (hstage : r.stage = .refusing) :
    ({ (if r.active then r.finishTx .rolledBack else r) with stage := .releasing } :
      RequestState α).Custody := by
  obtain ⟨hentering, hlog, hunanswered⟩ := h.entering_at hstage id rfl
  rcases hlog with ⟨htx, hlog⟩ | ⟨hactive, htx, hlog⟩
  · have hnothing : (r.finishTx .rolledBack).log = [] := (finishTx_log_of_none htx _).trans hlog
    split
    · exact hentering.awaits ⟨.inl hnothing, hunanswered⟩
    · exact hentering.awaits ⟨.inl hlog, hunanswered⟩
  · have hrolledBack : (r.finishTx .rolledBack).log = [.begun, .rolledBack] :=
      (finishTx_log_of_isSome htx _).trans (congrArg (· ++ [.rolledBack]) hlog)
    rw [if_pos hactive]
    exact hentering.awaits ⟨.inr hrolledBack, hunanswered⟩

/-- The listeners are attached and the handler starts. -/
theorem Custody.listen (h : r.Custody) (hstage : r.stage = .lookingUp) :
    ({ r with stage := .handling handler, listening := true } : RequestState α).Custody := by
  obtain ⟨hentering, -, htx, hbegun, hunanswered⟩ := h.entering_at hstage id rfl
  have hreply : r.reply = .lost false ∨ r.reply = .pending := by
    rcases hunanswered with hpending | ⟨heard, hlost⟩
    · exact .inr hpending
    · cases heard with
      | true => exact absurd hlost hentering.heard
      | false => exact .inl hlost
  exact .nobody ⟨rfl, hentering.settled, hentering.listener, trivial, hentering.queue, htx, hbegun,
    hentering.returned, hreply.imp_right fun hpending => ⟨hpending, rfl⟩⟩

/-- The client is gone. -/
theorem Entering.disconnect (h : r.Entering) :
    ({ r with reply := .lost r.listening } : RequestState α).Entering := by
  have hdeaf : (.lost r.listening : Reply) ≠ .lost true := by simp [h.listening]
  have hunanswered : ({ r with reply := .lost r.listening } : RequestState α).Unanswered :=
    .inr ⟨_, rfl⟩
  refine ⟨h.listening, h.settled, h.listener, h.queue, h.returned, hdeaf, ?_⟩
  have hlog := h.log
  unfold EnteringLog at hlog ⊢
  split at hlog <;> simp_all

/-- The response has been sent, and its connection is closed. -/
theorem Entering.close (h : r.Entering) (hreply : r.reply = .finished) :
    ({ r with reply := .closed } : RequestState α).Entering := by
  have hanswered : ¬r.Unanswered := by simp [Unanswered, hreply]
  refine ⟨h.listening, h.settled, h.listener, h.queue, h.returned, Reply.noConfusion, ?_⟩
  have hlog := h.log
  unfold EnteringLog at hlog ⊢
  split at hlog <;> simp_all

/-- Every event keeps or hands over the custody. -/
theorem Custody.step {e : RequestEvent} (h : r.Custody) (hstep : Step handler r e r') :
    r'.Custody := by
  cases hstep.moves with
  | connected ok hstage =>
    obtain ⟨hentering, htx, hlog, hunanswered⟩ := h.entering_at hstage id rfl
    cases ok with
    | true => exact hentering.awaits ⟨htx, hlog, hunanswered⟩
    | false => exact hentering.awaits ⟨.inl ⟨htx, hlog⟩, hunanswered⟩
  | started active hstage =>
    obtain ⟨hentering, htx, hlog, hunanswered⟩ := h.entering_at hstage id rfl
    have hbegun : r.log ++ [.begun] = [.begun] := by rw [hlog]; rfl
    exact hentering.awaits ⟨rfl, rfl, hbegun, hunanswered⟩
  | startFailed active hstage =>
    obtain ⟨hentering, htx, hlog, hunanswered⟩ := h.entering_at hstage id rfl
    exact hentering.awaits ⟨.inl ⟨htx, hlog⟩, hunanswered⟩
  | configured ok hstage =>
    obtain ⟨hentering, hactive, htx, hlog, hunanswered⟩ := h.entering_at hstage id rfl
    cases ok with
    | true => exact hentering.awaits ⟨hactive, htx, hlog, hunanswered⟩
    | false => exact hentering.awaits ⟨.inr ⟨hactive, htx, hlog⟩, hunanswered⟩
  | found hstage => exact h.listen hstage
  | notFound verdict hstage =>
    obtain ⟨hentering, hactive, htx, hlog, hunanswered⟩ := h.entering_at hstage id rfl
    exact hentering.awaits ⟨.inr ⟨hactive, htx, hlog⟩, hunanswered⟩
  | rolledBack hstage => exact h.earlyExit hstage
  | released hstage =>
    obtain ⟨hentering, hlog, hunanswered⟩ := h.entering_at hstage id rfl
    have hreleased : r.log ++ [.released] = [.released] ∨
        r.log ++ [.released] = [.begun, .rolledBack, .released] := by
      rcases hlog with hlog | hlog
      · exact .inl (by rw [hlog]; rfl)
      · exact .inr (by rw [hlog]; rfl)
    exact hentering.awaits ⟨hreleased, hunanswered⟩
  | clock id time answer hstage => exact h.goesOn hstage trivial rfl rfl
  | answered answer hstage => exact h.goesOn hstage trivial rfl rfl
  | sent hstage hrecipient hheld => exact h.send hstage
  | statement id time refused code hqueue hstage => exact h.execute hstage hqueue
  | commit id time refused code hqueue hstage => exact h.commit hstage hqueue
  | rollback id time refused code hqueue => exact h.rollBack hqueue
  | returnedSettled hstage hsettled => exact h.returns_settled hstage hsettled
  | returned hstage hsettled => exact h.interceptor_takes hstage hsettled
  | threw hstage => exact h.goesOn hstage trivial rfl rfl
  | listenerReleased hlistener => exact h.listener_releases hlistener
  | interceptorReleased hstage => exact h.interceptor_releases hstage
  -- the response is sent, of which the listeners hear
  | answer hstage hreply =>
    rcases h.respond hstage with hcustody | ⟨hunsettled, -⟩
    · refine hcustody.hear fun hentering =>
        ⟨hentering.listening, hentering.settled, hentering.listener,
        hentering.queue, hentering.returned, Reply.noConfusion, hentering.log⟩
    · exact hunsettled.hear trivial (by rw [hstage]; rfl)
  | dropped hstage hreply =>
    rcases h.respond hstage with hcustody | ⟨-, hpending⟩
    · exact hcustody
    · exact absurd hpending hreply
  | disconnected hreply => exact h.hear fun hentering => hentering.disconnect
  | responseClosed hreply => exact h.hear fun hentering => hentering.close hreply
  | otherCommit db => exact h.otherCommit db

/-! ## Handlers that Throw Unheard -/

theorem custody_initial (db : Store platformSchema) : (initial db : RequestState α).Custody :=
  .middleware ⟨rfl, rfl, rfl, rfl, rfl, Reply.noConfusion, rfl, rfl, .inl rfl⟩

end Custody

end RequestState

end BookingPlatform
