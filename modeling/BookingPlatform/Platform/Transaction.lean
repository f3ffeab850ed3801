import BookingPlatform.Library.Session
import BookingPlatform.Platform.Repository
import BookingPlatform.Platform.Statements

/-!
# Requests in Their Transaction

Every request is a body that the handler runs inside one tenant transaction. The booking and staff
requests, carried out on the platform's tables, are such requests too.

## Main definitions

- `PlatformM.transaction`: a body inside its transaction.

## Main results

- `run_transaction`: what a request commits, whatever fails in it.
- `Resting.transaction`: the ids that are still to be drawn stay unused.
-/

namespace BookingPlatform

open Library

/-- The handler commits when the body returns and rolls back when it throws. -/
def PlatformM.transaction {α : Type} (body : PlatformM α) : PlatformM α := do
  let value ← body.tryCatch fun error => .call .rollback fun _ => .raise error
  exec .commit
  return value

section Translate

variable {α : Type}

theorem translate_inTransaction (body : TenantM α) :
    (inTransaction body).translate bookingCommands =
      PlatformM.transaction (body.translate bookingCommands) := by
  unfold inTransaction PlatformM.transaction
  rw [Prog.translate_bind, Prog.translate_tryCatch]
  refine congrArg (_ >>= ·) (funext fun value => ?_)
  refine congrArg (Prog.call (S := storeSignature platformSchema) .commit) (funext fun r => ?_)
  cases r <;> rfl

theorem translate_handleStaff (q : StaffRequest) :
    (handleStaff q).translate staffCommands =
      PlatformM.transaction ((routeStaff q).translate staffCommands) := by
  unfold handleStaff PlatformM.transaction
  rw [Prog.translate_bind, Prog.translate_tryCatch]
  refine congrArg (_ >>= ·) (funext fun response => ?_)
  refine congrArg (Prog.call (S := storeSignature platformSchema) .commit) (funext fun r => ?_)
  cases r <;> rfl

end Translate

section Protocols

variable {α Φ : Type} {P : Protocol (storeSignature platformSchema) Φ} {ph : Φ}

/-- A request keeps to a protocol without a condition at its end if its body does. -/
theorem PlatformM.transaction_follows (hcommit : ∀ ph, P.allows ph .commit)
    (hrollback : ∀ ph, P.allows ph .rollback) {body : PlatformM α}
    (h : body.Follows P (fun _ _ => True) ph) :
    (PlatformM.transaction body).Follows P (fun _ _ => True) ph := by
  apply Prog.follows_bind_any
  · exact Prog.follows_tryCatch_any h fun e ph => ⟨hrollback ph, fun _ _ => trivial⟩
  · intro value ph
    apply follows_execSql_bind.2
    exact ⟨hcommit ph, fun r _ => by cases r <;> trivial⟩

end Protocols

section Run

variable {α : Type} {supply : ℕ → Uuid × ℤ} {fault : ℕ → Option SqlState}
  {db : Store platformSchema}

/-- A transaction whose statements can fail: either it throws, and the rows are as before, or its
body has returned, and what the body has written is committed. -/
theorem run_transaction {body : PlatformM α} {r : Except Thrown α} {m : Machine platformSchema}
    {tx : Tx platformSchema} {n : ℕ}
    (h : body.run (Machine.stepFaulty supply fault) m = (r, ⟨db, tx, n⟩)) :
    (∃ e, (PlatformM.transaction body).run (Machine.stepFaulty supply fault) m =
        (.error e, ⟨db, .idle, n + 1⟩) ∧ ((∃ e', r = .error e') ∨ ∃ code, fault n = some code)) ∨
    ∃ v, (PlatformM.transaction body).run (Machine.stepFaulty supply fault) m =
        (.ok v, ⟨if tx.aborted then db else tx.view db, .idle, n + 1⟩) ∧ r = .ok v := by
  unfold PlatformM.transaction
  rw [Prog.run_bind, Prog.run_tryCatch, h]
  cases r with
  -- the body has thrown: whatever the `ROLLBACK` answers, nothing is written
  | error e =>
    have hstep : (Machine.stepFaulty supply fault .rollback ⟨db, tx, n⟩).2 =
        ⟨db, .idle, n + 1⟩ := by
      unfold Machine.stepFaulty
      cases fault n <;> rfl
    refine .inl ⟨e, ?_, .inl ⟨e, rfl⟩⟩
    dsimp only
    rw [Prog.run_call, hstep]
    rfl
  | ok v =>
    dsimp only
    rw [Prog.run_bind]
    unfold PlatformM.exec execSql
    rw [Prog.run_call]
    cases hfault : fault n with
    -- the `COMMIT` fails: the transaction throws
    | some code =>
      have hstep : Machine.stepFaulty supply fault .commit ⟨db, tx, n⟩ =
          (.error code, ⟨db, .idle, n + 1⟩) := by
        simp only [Machine.stepFaulty, hfault]
        rfl
      refine .inl ⟨.query code, ?_, .inr ⟨code, rfl⟩⟩
      rw [hstep]
      rfl
    | none =>
      have hstep : Machine.stepFaulty supply fault .commit ⟨db, tx, n⟩ =
          (.ok (), ⟨if tx.aborted then db else tx.view db, .idle, n + 1⟩) := by
        simp only [Machine.stepFaulty, hfault]
        rfl
      refine .inr ⟨v, ?_, rfl⟩
      rw [hstep]
      rfl

end Run

/-! ## Ids -/

section Ids

open BaseTenantRepository

variable {α : Type} {τ : TableName} {tenantId : Uuid} {p : Row τ → Bool}

/-- A statement on the platform's tables that keeps ids. -/
theorem uses_translate_exec {s : Command} (h : s.KeepsIds) :
    (PlatformM.exec s).Uses Stmt.Identifies :=
  uses_execSql (X := Stmt.Identifies) h.identifies

theorem uses_findOne : (findOne τ tenantId p).Uses Stmt.Identifies :=
  Prog.Uses.bind (uses_translate_exec trivial) fun rows => uses_pure rows.head?

theorem uses_persist {entity : Uuid → Uuid → Instant → Except SqlState (Row τ)}
    (h : ∀ id time r, entity tenantId id time = .ok r → rowId τ r = id) :
    (persist τ tenantId entity).Uses Stmt.Identifies := uses_translate_exec h

theorem uses_update {set : Instant → Row τ → Row τ}
    (h : ∀ time r, rowId τ (set time r) = rowId τ r) :
    (BaseTenantRepository.update τ tenantId p set).Uses Stmt.Identifies := by
  refine Prog.Uses.bind (uses_translate_exec ?_) fun rows => uses_pure rows.length
  intro time r r' hr'
  obtain rfl : set time r = r' := Except.ok.inj hr'
  exact h time r

theorem uses_delete : (delete τ tenantId p).Uses Stmt.Identifies := uses_translate_exec trivial

theorem uses_mapCode {X : Command → Prop} {code : SqlState} {e : AppException} {body : PlatformM α}
    (h : body.Uses X) : (PlatformM.mapCode code e body).Uses X := by
  refine Prog.Uses.tryCatch h fun error => ?_
  split
  · exact uses_throw _
  · exact uses_throw _

theorem uses_transaction {body : PlatformM α} (h : body.Uses Stmt.Identifies) :
    (PlatformM.transaction body).Uses Stmt.Identifies := by
  refine Prog.Uses.bind (Prog.Uses.tryCatch h fun e => ?_) fun value => ?_
  · exact fun _ => ⟨trivial, fun _ _ => trivial⟩
  · exact Prog.Uses.bind (uses_execSql (X := Stmt.Identifies) trivial) fun _ => uses_pure value

/-- The machine between two requests: no transaction is open, and the ids to be drawn are unused. -/
structure Resting (supply : ℕ → Uuid × ℤ) (m : Machine platformSchema) : Prop where
  idle : m.tx = .idle
  fresh : m.Fresh supply

theorem Resting.unused {supply : ℕ → Uuid × ℤ} {m : Machine platformSchema} (h : Resting supply m) :
    Unused m.store supply m.ticks .idle := h.idle ▸ h.fresh

/-- A transaction leads from one such machine to another. -/
theorem Resting.transaction {supply : ℕ → Uuid × ℤ} {m : Machine platformSchema}
    (hdistinct : Function.Injective fun n => (supply n).1) {body : PlatformM α}
    (hbody : body.Uses Stmt.Identifies) (h : Resting supply m) :
    Resting supply ((PlatformM.transaction body).run (Machine.step supply) m).2 := by
  refine ⟨?_, h.fresh.run hdistinct (uses_transaction hbody)⟩
  rcases hrun : body.run (Machine.step supply) m with ⟨r, db, tx, n⟩
  have hcases := @run_transaction α supply (fun _ => none) db body r m tx n hrun
  rcases hcases with ⟨e, htransaction, -⟩ | ⟨v, htransaction, -⟩
  · exact congrArg (fun out => out.2.tx) htransaction
  · exact congrArg (fun out => out.2.tx) htransaction

end Ids

end BookingPlatform
