import BookingPlatform.Common.Types
import BookingPlatform.Library.Program

/-!
# Code over SQL Statements

Programs whose statements succeed with a result or fail with an SQLSTATE, which the
driver throws. Each module of the platform has its own statements.

## Main results

- `follows_execSql`: what it takes for one statement to follow a protocol.
-/

namespace BookingPlatform

open Library

/-- Statements that succeed with a result or fail with an SQLSTATE. -/
@[reducible] def sqlSignature (Stmt : Type) (Result : Stmt → Type) : Signature where
  Stmt := Stmt
  Ans s := Except SqlState (Result s)

/-- Code that issues such statements. -/
abbrev SqlM (Stmt : Type) (Result : Stmt → Type) : Type → Type :=
  Prog (sqlSignature Stmt Result) Thrown

variable {Stmt : Type} {Result : Stmt → Type} {Φ α β : Type}

/-- Issue one statement; a failure is thrown. -/
def execSql (s : Stmt) : SqlM Stmt Result (Result s) :=
  .call s fun
    | .ok v => .ret v
    | .error code => .raise (.query code)

/-- `throw new …Exception(…)`. -/
def throwSql (e : AppException) : SqlM Stmt Result α := .raise (.app e)

variable {P : Protocol (sqlSignature Stmt Result) Φ} {ph : Φ}

theorem follows_execSql {s : Stmt} {post : Φ → Except Thrown (Result s) → Prop} :
    (execSql s : SqlM Stmt Result (Result s)).Follows P post ph ↔
      P.Issues ph s fun ph' r => match r with
        | .ok v => post ph' (.ok v)
        | .error c => post ph' (.error (.query c)) := by
  refine Protocol.issues_congr fun ph' r => ?_
  cases r <;> exact Iff.rfl

/-- One statement, and what comes after it. -/
theorem follows_execSql_bind {s : Stmt} {f : Result s → SqlM Stmt Result β}
    {post : Φ → Except Thrown β → Prop} :
    (execSql s >>= f).Follows P post ph ↔
      P.Issues ph s fun ph' r => match r with
        | .ok v => (f v).Follows P post ph'
        | .error c => post ph' (.error (.query c)) := by
  refine Prog.follows_bind.trans (follows_execSql.trans ?_)
  refine Protocol.issues_congr fun ph' r => ?_
  cases r <;> exact Iff.rfl

@[simp] theorem follows_throwSql {e : AppException} {post : Φ → Except Thrown α → Prop} :
    (throwSql e : SqlM Stmt Result α).Follows P post ph ↔ post ph (.error (.app e)) := Iff.rfl

theorem uses_execSql {X : Stmt → Prop} {s : Stmt} (h : X s) :
    (execSql s : SqlM Stmt Result (Result s)).Uses X := fun _ =>
  ⟨h, fun r _ => by cases r <;> trivial⟩

theorem uses_pure {X : Stmt → Prop} (a : α) :
    (Prog.ret a : SqlM Stmt Result α).Uses X := fun _ => trivial

theorem uses_throw {X : Stmt → Prop} (e : Thrown) :
    (Prog.raise e : SqlM Stmt Result α).Uses X := fun _ => trivial

@[simp] theorem sqlM_map_eq_bind (f : α → β) (p : SqlM Stmt Result α) :
    f <$> p = p >>= fun a => .ret (f a) := rfl

end BookingPlatform
