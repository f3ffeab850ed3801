import BookingPlatform.Outbox.Store

/-!
# The Course of a Batch

What one batch does, statement by statement: it claims its events, and then delivers and
marks one after the other. A statement that fails aborts the transaction, and nothing of
the batch can be committed any more, however its code goes on.

## Main definitions

- `Batch`: how far a batch has come.

## Main results

- `follows_batch`: every batch and every worker keeps to this course.
-/

namespace BookingPlatform

open Library RelayM

/-- An event that a batch is done with: as it was claimed, whether its delivery returned,
and the row written for it. -/
structure Outcome where
  event : OutboxEvent
  ok : Bool
  row : OutboxEvent

/-- How far a batch has come: it has nothing in flight; it is about to claim its events;
it is between two of them; it has delivered one and not marked it yet; or one of its
statements has failed. -/
inductive Batch where
  | idle
  | claiming
  | working (done : List Outcome) (todo : List OutboxEvent)
  | delivered (done : List Outcome) (event : OutboxEvent) (ok : Bool) (todo : List OutboxEvent)
  | broken

def Batch.start : RelayJob → Batch
  | .batch _ => claiming
  | .work _ => idle

/-- The course of a batch. A batch one of whose statements has failed may do anything. -/
def batch : Protocol (sqlSignature RelayStatement RelayStatement.Result) Batch where
  allows ph s := match ph, s with
    | .broken, _ => True
    | .idle, .process _ => True
    | .idle, .rollback => True
    | .claiming, .claimBatch _ => True
    | .working _ (e :: _), .deliver e' => e' = e
    | .working _ [], .commit => True
    | .delivered _ e true _, .setDispatched id => id = e.id
    | .delivered _ _ false _, .now => True
    | .delivered _ e false _, .setDead id attempts =>
      id = e.id ∧ attempts = e.attempts + 1 ∧ outboxMaxAttempts ≤ attempts
    | .delivered _ e false _, .setRetry id attempts _ =>
      id = e.id ∧ attempts = e.attempts + 1 ∧ attempts < outboxMaxAttempts
    | _, _ => False
  answers _ _ _ := True
  next ph s r := match ph, s, r with
    | _, .commit, _ => .idle
    | _, .rollback, _ => .idle
    | .broken, _, _ => .broken
    | .idle, _, _ => .idle
    | _, _, .error _ => .broken
    | .claiming, .claimBatch _, .ok v => .working [] v
    | .working done (e :: todo), .deliver _, .ok v => .delivered done e v.isOk todo
    | .delivered done e true todo, .setDispatched _, .ok _ =>
      .working (⟨e, true, { e with status := .dispatched }⟩ :: done) todo
    | .delivered done e false todo, .setDead _ attempts, .ok _ =>
      .working (⟨e, false, { e with attempts, status := .dead }⟩ :: done) todo
    | .delivered done e false todo, .setRetry _ attempts availableAt, .ok _ =>
      .working (⟨e, false, { e with attempts, availableAt }⟩ :: done) todo
    | ph, _, _ => ph

variable {α : Type}

/-! ## After a failure -/

/-- A statement that does not end the transaction. -/
def Inside (s : RelayStatement) : Prop := s ≠ .commit ∧ s ≠ .rollback

/-- After a failure a batch stays broken until its transaction ends. -/
theorem broken_of_uses {p : RelayM α} (h : p.Uses Inside) :
    p.Follows batch (fun ph _ => ph = .broken) .broken := by
  refine Prog.Uses.follows (I := fun ph : Batch => ph = .broken) ?_ h rfl
  rintro ph s ⟨hcommit, hrollback⟩ rfl
  refine ⟨trivial, fun r => ?_⟩
  cases s with
  | commit => exact absurd rfl hcommit
  | rollback => exact absurd rfl hrollback
  | _ => rfl

theorem uses_markFailed (e : OutboxEvent) : (OutboxRepository.markFailed e).Uses Inside := by
  unfold OutboxRepository.markFailed
  dsimp only
  split
  · exact uses_execSql ⟨nofun, nofun⟩
  · exact (uses_execSql ⟨nofun, nofun⟩).bind fun _ => uses_execSql ⟨nofun, nofun⟩

theorem uses_anyDispatch (e : OutboxEvent) : (anyDispatch e).Uses Inside := by
  refine (uses_execSql ⟨nofun, nofun⟩).bind fun r => ?_
  rcases r with message | _
  · exact uses_throw _
  · exact uses_pure _

theorem uses_processEvent (e : OutboxEvent) :
    (OutboxService.processEvent anyDispatch e).Uses Inside := by
  refine Prog.Uses.tryCatch ?_ fun _ => (uses_markFailed e).bind fun _ => uses_pure _
  refine (uses_anyDispatch e).bind fun _ => ?_
  exact (uses_execSql ⟨nofun, nofun⟩).bind fun _ => uses_pure _

theorem uses_processEvents (events : List OutboxEvent) (dispatched : ℕ) :
    (OutboxService.processEvents anyDispatch events dispatched).Uses Inside := by
  induction events generalizing dispatched with
  | nil => exact uses_pure _
  | cons e events ih =>
    refine (uses_processEvent e).bind fun ok => ?_
    cases ok
    · exact ih _
    · exact ih _

/-! ## One event -/

/-- Where the work on one event can end, with `todo` left: the event is marked, or a
statement has failed. -/
def marked (todo : List OutboxEvent) : Batch → Except Thrown α → Prop
  | ph, .ok _ => (∃ done, ph = .working done todo) ∨ ph = .broken
  | ph, .error _ => ph = .broken

/-- A failed delivery is marked with one more attempt. -/
theorem markFailed_batch (done : List Outcome) (e : OutboxEvent) (todo : List OutboxEvent) :
    (OutboxRepository.markFailed e).Follows batch (marked todo) (.delivered done e false todo) := by
  unfold OutboxRepository.markFailed
  dsimp only
  split
  · -- the last attempt: the event is dead
    rename_i hmax
    refine follows_execSql.2 ⟨⟨rfl, rfl, hmax⟩, fun r _ => ?_⟩
    rcases r with code | _
    · rfl
    · exact .inl ⟨_, rfl⟩
  · -- otherwise it is tried again later
    rename_i hmax
    refine follows_execSql_bind.2 ⟨trivial, fun r _ => ?_⟩
    rcases r with code | now
    · rfl
    · refine follows_execSql.2 ⟨⟨rfl, rfl, Nat.lt_of_not_le hmax⟩, fun r _ => ?_⟩
      rcases r with code | _
      · rfl
      · exact .inl ⟨_, rfl⟩

theorem processEvent_batch (done : List Outcome) (e : OutboxEvent) (todo : List OutboxEvent) :
    (OutboxService.processEvent anyDispatch e).Follows batch (marked todo)
      (.working done (e :: todo)) := by
  -- the handler, after a failed delivery and after a failed statement
  have hfailed : ∀ ph, ph = .delivered done e false todo ∨ ph = .broken →
      (do
        OutboxRepository.markFailed e
        return false : RelayM Bool).Follows batch (marked todo) ph := by
    rintro ph (rfl | rfl)
    · refine Prog.follows_bind.2 ((markFailed_batch done e todo).mono fun ph r h => ?_)
      rcases r with error | _ <;> exact h
    · refine Prog.follows_bind.2 ((broken_of_uses (uses_markFailed e)).mono fun ph r h => ?_)
      rcases r with error | _
      · exact h
      · exact .inr h
  refine Prog.follows_tryCatch.2 (Prog.follows_bind.2 ?_)
  refine follows_execSql_bind.2 ⟨rfl, fun r _ => ?_⟩
  rcases r with code | message | _
  · exact hfailed _ (.inr rfl)
  · exact hfailed _ (.inl rfl)
  · refine follows_execSql_bind.2 ⟨rfl, fun r _ => ?_⟩
    rcases r with code | _
    · exact hfailed _ (.inr rfl)
    · exact .inl ⟨_, rfl⟩

/-! ## A batch -/

theorem processEvents_batch (done : List Outcome) (todo : List OutboxEvent) (dispatched : ℕ) :
    (OutboxService.processEvents anyDispatch todo dispatched).Follows batch (marked [])
      (.working done todo) := by
  induction todo generalizing done dispatched with
  | nil => exact .inl ⟨done, rfl⟩
  | cons e todo ih =>
    refine Prog.follows_bind.2 ((processEvent_batch done e todo).mono fun ph r h => ?_)
    rcases r with error | ok
    · exact h
    · -- the next events find the transaction at work, or broken
      have hrest : ∀ n, (OutboxService.processEvents anyDispatch todo n).Follows batch
          (marked []) ph := by
        intro n
        rcases h with ⟨done', rfl⟩ | rfl
        · exact ih done' n
        · refine (broken_of_uses (uses_processEvents todo n)).mono fun ph r h => ?_
          rcases r with error | _
          · exact h
          · exact .inr h
      cases ok
      · exact hrest _
      · exact hrest _

/-- Every batch and every worker keeps to this course, and has nothing in flight when it is
over. -/
theorem follows_batch (q : RelayJob) :
    (handleJob anyDispatch q).Follows batch (fun ph _ => ph = .idle) (Batch.start q) := by
  cases q with
  | work job =>
    refine follows_execSql_bind.2 ⟨trivial, fun r _ => ?_⟩
    rcases r with code | _ <;> rfl
  | batch batchSize =>
    -- any error is answered by a rollback
    have hback : ∀ (error : Thrown) (ph : Batch), ph = .broken ∨ ph = .idle →
        (do
          Prog.tryCatch (exec .rollback) fun _ => return ()
          .raise error : RelayM ℕ).Follows batch (fun ph _ => ph = .idle) ph := by
      intro error ph hph
      refine Prog.follows_bind.2 (Prog.follows_tryCatch.2 (follows_execSql.2 ⟨?_, fun r _ => ?_⟩))
      · rcases hph with rfl | rfl <;> trivial
      · have hidle : batch.next ph .rollback r = .idle := by rcases hph with rfl | rfl <;> rfl
        rcases r with code | _ <;> exact hidle
    refine Prog.follows_tryCatch.2
      (Prog.follows_bind.2 (follows_execSql_bind.2 ⟨trivial, fun r _ => ?_⟩))
    rcases r with code | events
    · exact hback _ _ (.inl rfl)
    · refine (processEvents_batch [] events 0).mono fun ph r h => ?_
      rcases r with error | n
      · exact hback error ph (.inl h)
      · refine follows_execSql_bind.2 ⟨?_, fun r _ => ?_⟩
        · rcases h with ⟨done, rfl⟩ | rfl <;> trivial
        · have hidle : batch.next ph .commit r = .idle := by
            rcases h with ⟨done, rfl⟩ | rfl <;> rfl
          rcases r with code | _
          · exact hback _ _ (.inr hidle)
          · exact hidle

end BookingPlatform
