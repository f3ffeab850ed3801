import BookingPlatform.Library.Program
import Mathlib.Data.List.Basic
import Mathlib.Data.List.Nodup
import Mathlib.Data.Int.Notation
import Mathlib.Logic.Function.Basic

/-!
# Relational Stores

Tables of rows with ids and constraints, the statements that read and write them, and transactions
over them. A transaction collects its writes, sees them, and applies them when it commits.

## Main definitions

- `Schema`, `Store`: tables and their contents.
- `Stmt`: the statements.
- `Store.answer`: the answer to a statement on the rows that a transaction sees.
- `Tx`: a transaction; `Tx.answer` and `Tx.after` run one statement in it.
- `Prog.run`: a program run by a machine that answers its statements one after the other.
-/

namespace BookingPlatform.Library

/-! ## Stores -/

/-- Tables whose rows have an id. `conflict` is the error code with which the constraints of a
table refuse a row beside another one. -/
structure Schema where
  Table : Type
  Row : Table → Type
  Id : Type
  id : (τ : Table) → Row τ → Id
  conflict : (τ : Table) → Row τ → Row τ → Option String
  decTable : DecidableEq Table
  decId : DecidableEq Id

attribute [instance] Schema.decTable Schema.decId

/-- The rows of every table. -/
abbrev Store (D : Schema) : Type := (τ : D.Table) → List (D.Row τ)

/-- A write: a row put in the place of the one with its id, or after all others, or a row
removed. -/
inductive Change (D : Schema) where
  | put (τ : D.Table) (r : D.Row τ)
  | remove (τ : D.Table) (id : D.Id)

variable {D : Schema}

/-- The rows of a table after `r` is put among them. -/
def upsert {τ : D.Table} (r : D.Row τ) : List (D.Row τ) → List (D.Row τ)
  | [] => [r]
  | r' :: rows => if D.id τ r' = D.id τ r then r :: rows else r' :: upsert r rows

theorem mem_upsert_self {τ : D.Table} (r : D.Row τ) (rows : List (D.Row τ)) :
    r ∈ upsert r rows := by
  induction rows with
  | nil => simp [upsert]
  | cons r' rows ih =>
    by_cases h : D.id τ r' = D.id τ r
    · simp [upsert, h]
    · simp [upsert, h, ih]

namespace Store

variable (db : Store D)

def apply : Change D → Store D
  | .put τ r => Function.update db τ (upsert r (db τ))
  | .remove τ id => Function.update db τ ((db τ).filter fun r => D.id τ r ≠ id)

/-- The writes, oldest first. -/
def applyAll (changes : List (Change D)) : Store D := changes.foldl apply db

@[simp] theorem applyAll_nil : db.applyAll [] = db := rfl

@[simp] theorem applyAll_append (cs cs' : List (Change D)) :
    db.applyAll (cs ++ cs') = (db.applyAll cs).applyAll cs' := List.foldl_append

theorem apply_put_self {τ : D.Table} (r : D.Row τ) : db.apply (.put τ r) τ = upsert r (db τ) :=
  Function.update_self _ _ _

theorem apply_put_of_ne {τ τ' : D.Table} (r : D.Row τ) (h : τ' ≠ τ) :
    db.apply (.put τ r) τ' = db τ' :=
  Function.update_of_ne h _ _

/-- No two rows of a table have the same id. -/
def Keyed : Prop := ∀ τ, ((db τ).map (D.id τ)).Nodup

end Store

/-! ## Statements -/

/-- The statements. An inserted row is made of an id and the time, a row that an `update` sets of
the time and the row as it was; either can fail with a code. A `malformed` statement always fails;
`now` and `draw` read the clock and the random generator of the program. -/
inductive Stmt (D : Schema) where
  | select (τ : D.Table) (p : D.Row τ → Bool)
  | insert (τ : D.Table) (mk : D.Id → ℤ → Except String (D.Row τ))
  | insertIgnore (τ : D.Table) (mk : D.Id → ℤ → D.Row τ)
  | update (τ : D.Table) (p : D.Row τ → Bool) (set : ℤ → D.Row τ → Except String (D.Row τ))
  | delete (τ : D.Table) (p : D.Row τ → Bool)
  | malformed (code : String)
  | config (value : String)
  | now
  | draw
  | savepoint (i : ℕ)
  | release (i : ℕ)
  | rollbackTo (i : ℕ)
  | commit
  | rollback

/-- The result of a statement that succeeds: an `update` returns the rows it wrote, a `delete` their
number. -/
abbrev Stmt.Result : Stmt D → Type
  | select τ _ => List (D.Row τ)
  | insert τ _ => D.Row τ
  | insertIgnore τ _ => Option (D.Row τ)
  | update τ _ _ => List (D.Row τ)
  | delete .. => ℕ
  | now => ℤ
  | draw => D.Id
  | _ => Unit

/-- A statement succeeds or fails with a code. -/
@[reducible] def storeSignature (D : Schema) : Signature where
  Stmt := Stmt D
  Ans s := Except String s.Result

/-- The code with which the constraints refuse `r` among `rows`. -/
def refusal {τ : D.Table} (rows : List (D.Row τ)) (r : D.Row τ) : Option String :=
  rows.findSome? fun r' => D.conflict τ r' r

/-- The rows that an `update` writes, one after the other. -/
def setRows {τ : D.Table} (set : D.Row τ → Except String (D.Row τ)) :
    (matching rows : List (D.Row τ)) → Except String (List (D.Row τ))
  | [], _ => .ok []
  | r :: matching, rows =>
    match set r with
    | .error code => .error code
    | .ok r' =>
      match refusal (rows.filter fun x => D.id τ x ≠ D.id τ r') r' with
      | some code => .error code
      | none => (setRows set matching (upsert r' rows)).map (r' :: ·)

namespace Store

/-- The answer to a statement on the rows `db`, with the id and the time that the database draws. -/
def answer (db : Store D) (id : D.Id) (time : ℤ) : (s : Stmt D) → Except String s.Result
  | .select τ p => .ok ((db τ).filter p)
  | .insert τ mk =>
    match mk id time with
    | .error code => .error code
    | .ok r =>
      match refusal (db τ) r with
      | some code => .error code
      | none => .ok r
  | .insertIgnore τ mk =>
    match refusal (db τ) (mk id time) with
    | some _ => .ok none
    | none => .ok (some (mk id time))
  | .update τ p set => setRows (set time) ((db τ).filter p) (db τ)
  | .delete τ p => .ok ((db τ).filter p).length
  | .malformed code => .error code
  | .now => .ok time
  | .draw => .ok id
  | .config _ | .savepoint _ | .release _ | .rollbackTo _ | .commit | .rollback => .ok ()

/-- What a statement with this result writes. -/
def writes (db : Store D) : (s : Stmt D) → s.Result → List (Change D)
  | .insert τ _, r => [.put τ r]
  | .insertIgnore τ _, r => r.toList.map (.put τ)
  | .update τ _ _, rows => rows.map (.put τ)
  | .delete τ p, _ => ((db τ).filter p).map fun r => .remove τ (D.id τ r)
  | _, _ => []

end Store

/-! ## Transactions -/

/-- A transaction: its writes, oldest first, how many there were at each savepoint, and whether a
statement has failed in it. -/
structure Tx (D : Schema) where
  pending : List (Change D)
  savepoints : List (ℕ × ℕ)
  aborted : Bool

namespace Tx

/-- A transaction that has not done anything. -/
def idle : Tx D := ⟨[], [], false⟩

variable (tx : Tx D) (db : Store D)

/-- The rows that the transaction sees. -/
def view : Store D := db.applyAll tx.pending

/-- The savepoints from the last one named `i` on. -/
def from? (i : ℕ) : List (ℕ × ℕ) := tx.savepoints.dropWhile (·.1 ≠ i)

/-- The answer to a statement of the transaction. -/
def answer (id : D.Id) (time : ℤ) : (s : Stmt D) → Except String s.Result
  | .now => .ok time
  | .draw => .ok id
  | .commit | .rollback => .ok ()
  | .rollbackTo i => if tx.from? i = [] then .error "3B001" else .ok ()
  | .release i =>
    if tx.aborted then .error "25P02"
    else if tx.from? i = [] then .error "3B001" else .ok ()
  | s => if tx.aborted then .error "25P02" else (tx.view db).answer id time s

/-- The transaction after a statement with this answer. A statement that fails aborts it. -/
def after : (s : Stmt D) → Except String s.Result → Tx D
  | .commit, _ | .rollback, _ => idle
  | .now, _ | .draw, _ => tx
  | _, .error _ => { tx with aborted := true }
  | .savepoint i, .ok _ => { tx with savepoints := (i, tx.pending.length) :: tx.savepoints }
  | .release i, .ok _ => { tx with savepoints := (tx.from? i).tail }
  | .rollbackTo i, .ok _ =>
    match tx.from? i with
    | [] => tx
    | sp :: sps => ⟨tx.pending.take sp.2, sp :: sps, false⟩
  | s, .ok v => { tx with pending := tx.pending ++ (tx.view db).writes s v }

/-- The committed rows after a statement with this answer; an aborted transaction commits
nothing. -/
def committed : (s : Stmt D) → Except String s.Result → Store D
  | .commit, .ok _ => if tx.aborted then db else tx.view db
  | _, _ => db

end Tx

/-! ## Running a program -/

/-- The result of a program and the state of the machine that answers its statements. -/
def Prog.run {S : Signature} {ε α σ : Type} (step : (s : S.Stmt) → σ → S.Ans s × σ) :
    Prog S ε α → σ → Except ε α × σ
  | .ret a, m => (.ok a, m)
  | .raise e, m => (.error e, m)
  | .call s k, m => (k (step s m).1).run step (step s m).2

/-- A database with one connection. `ticks` counts the statements. -/
structure Machine (D : Schema) where
  store : Store D
  tx : Tx D
  ticks : ℕ

/-- The machine answers a statement; `supply` gives the id and the time that the database draws for
each one. -/
def Machine.step (supply : ℕ → D.Id × ℤ) (s : Stmt D) (m : Machine D) :
    Except String s.Result × Machine D :=
  let a := m.tx.answer m.store (supply m.ticks).1 (supply m.ticks).2 s
  (a, ⟨m.tx.committed m.store s a, m.tx.after m.store s a, m.ticks + 1⟩)

section Run

variable {S : Signature} {ε α β σ : Type} {step : (s : S.Stmt) → σ → S.Ans s × σ}

@[simp] theorem Prog.run_ret (a : α) (m : σ) : (Prog.ret a : Prog S ε α).run step m = (.ok a, m) :=
  rfl

@[simp] theorem Prog.run_raise (e : ε) (m : σ) :
    (Prog.raise e : Prog S ε α).run step m = (.error e, m) := rfl

@[simp] theorem Prog.run_call (s : S.Stmt) (k : S.Ans s → Prog S ε α) (m : σ) :
    (Prog.call s k).run step m = (k (step s m).1).run step (step s m).2 := rfl

theorem Prog.run_bind (p : Prog S ε α) (f : α → Prog S ε β) (m : σ) :
    (p >>= f).run step m = match p.run step m with
      | (.ok a, m') => (f a).run step m'
      | (.error e, m') => (.error e, m') := by
  induction p generalizing m with
  | ret a => rfl
  | raise e => rfl
  | call s k ih => exact ih _ _

theorem Prog.run_tryCatch (p : Prog S ε α) (handler : ε → Prog S ε α) (m : σ) :
    (p.tryCatch handler).run step m = match p.run step m with
      | (.ok a, m') => (.ok a, m')
      | (.error e, m') => (handler e).run step m' := by
  induction p generalizing m with
  | ret a => rfl
  | raise e => rfl
  | call s k ih => exact ih _ _

end Run

/-! ## One statement of a machine -/

namespace Machine

variable {supply : ℕ → D.Id × ℤ} {db : Store D} {tx : Tx D} {n : ℕ}

theorem step_select (h : tx.aborted = false) (τ : D.Table) (p : D.Row τ → Bool) :
    step supply (.select τ p) ⟨db, tx, n⟩ = (.ok ((tx.view db τ).filter p), ⟨db, tx, n + 1⟩) := by
  obtain ⟨pending, savepoints, _⟩ := tx
  cases h
  simp [step, Tx.answer, Tx.after, Tx.committed, Store.answer, Store.writes]

theorem step_insert (h : tx.aborted = false) {τ : D.Table}
    {mk : D.Id → ℤ → Except String (D.Row τ)} {r : D.Row τ}
    (hmk : mk (supply n).1 (supply n).2 = .ok r) (hfree : refusal (tx.view db τ) r = none) :
    step supply (.insert τ mk) ⟨db, tx, n⟩ =
      (.ok r, ⟨db, { tx with pending := tx.pending ++ [.put τ r] }, n + 1⟩) := by
  simp [step, Tx.answer, Tx.after, Tx.committed, Store.answer, Store.writes, h, hmk, hfree]

theorem step_insert_refused (h : tx.aborted = false) {τ : D.Table}
    {mk : D.Id → ℤ → Except String (D.Row τ)} {r : D.Row τ} {code : String}
    (hmk : mk (supply n).1 (supply n).2 = .ok r) (hrefused : refusal (tx.view db τ) r = some code) :
    step supply (.insert τ mk) ⟨db, tx, n⟩ =
      (.error code, ⟨db, { tx with aborted := true }, n + 1⟩) := by
  simp [step, Tx.answer, Tx.after, Tx.committed, Store.answer, h, hmk, hrefused]

theorem step_commit (h : tx.aborted = false) :
    step supply .commit ⟨db, tx, n⟩ = (.ok (), ⟨tx.view db, .idle, n + 1⟩) := by
  simp [step, Tx.answer, Tx.after, Tx.committed, h]

end Machine

/-! ## Programs that only read -/

/-- In a transaction that sees the rows `db`, the program comes to `r` and changes nothing. -/
def Prog.Reads {ε α : Type} (supply : ℕ → D.Id × ℤ) (db : Store D)
    (p : Prog (storeSignature D) ε α) (r : Except ε α) : Prop :=
  ∀ (base : Store D) (tx : Tx D) (n : ℕ), tx.aborted = false → tx.view base = db →
    ∃ n', p.run (Machine.step supply) ⟨base, tx, n⟩ = (r, ⟨base, tx, n'⟩)

namespace Prog

variable {ε α β : Type} {supply : ℕ → D.Id × ℤ} {db : Store D}

theorem reads_ret (a : α) : (ret a : Prog (storeSignature D) ε α).Reads supply db (.ok a) :=
  fun _ _ n _ _ => ⟨n, rfl⟩

theorem reads_raise (e : ε) : (raise e : Prog (storeSignature D) ε α).Reads supply db (.error e) :=
  fun _ _ n _ _ => ⟨n, rfl⟩

theorem reads_select {τ : D.Table} {p : D.Row τ → Bool}
    {k : Except String (List (D.Row τ)) → Prog (storeSignature D) ε α} {r : Except ε α}
    (h : (k (.ok ((db τ).filter p))).Reads supply db r) :
    (call (.select τ p) k : Prog (storeSignature D) ε α).Reads supply db r := by
  intro base tx n hrunning hview
  obtain ⟨n', hn'⟩ := h base tx (n + 1) hrunning hview
  refine ⟨n', ?_⟩
  rw [run_call, Machine.step_select hrunning, hview]
  exact hn'

theorem Reads.bind {p : Prog (storeSignature D) ε α} {f : α → Prog (storeSignature D) ε β} {a : α}
    {r : Except ε β} (hp : p.Reads supply db (.ok a)) (hf : (f a).Reads supply db r) :
    (p >>= f).Reads supply db r := by
  intro base tx n hrunning hview
  obtain ⟨n₁, hn₁⟩ := hp base tx n hrunning hview
  obtain ⟨n₂, hn₂⟩ := hf base tx n₁ hrunning hview
  exact ⟨n₂, by rw [run_bind, hn₁]; exact hn₂⟩

theorem Reads.bind_error {p : Prog (storeSignature D) ε α} {f : α → Prog (storeSignature D) ε β}
    {e : ε} (hp : p.Reads supply db (.error e)) : (p >>= f).Reads supply db (.error e) := by
  intro base tx n hrunning hview
  obtain ⟨n', hn'⟩ := hp base tx n hrunning hview
  exact ⟨n', by rw [run_bind, hn']⟩

/-- Run outside a transaction, a program that only reads leaves the rows as they are. -/
theorem Reads.run {p : Prog (storeSignature D) ε α} {r : Except ε α} (hp : p.Reads supply db r)
    (n : ℕ) : ∃ n', p.run (Machine.step supply) ⟨db, .idle, n⟩ = (r, ⟨db, .idle, n'⟩) :=
  hp db .idle n rfl rfl

end Prog

/-! ## Translating programs -/

/-- How the statements of one signature are carried out by those of another. -/
structure Translation (S S' : Signature) where
  stmt : S.Stmt → S'.Stmt
  ans : (s : S.Stmt) → S'.Ans (stmt s) → S.Ans s

/-- A program with its statements carried out in another signature. -/
def Prog.translate {S S' : Signature} {ε α : Type} (f : Translation S S') :
    Prog S ε α → Prog S' ε α
  | .ret a => .ret a
  | .raise e => .raise e
  | .call s k => .call (f.stmt s) fun r => (k (f.ans s r)).translate f

section Translate

variable {S S' : Signature} {ε α β Φ σ : Type} (f : Translation S S')

@[simp] theorem Prog.translate_ret (a : α) :
    (Prog.ret a : Prog S ε α).translate f = .ret a := rfl

@[simp] theorem Prog.translate_raise (e : ε) :
    (Prog.raise e : Prog S ε α).translate f = .raise e := rfl

@[simp] theorem Prog.translate_call (s : S.Stmt) (k : S.Ans s → Prog S ε α) :
    (Prog.call s k).translate f = .call (f.stmt s) fun r => (k (f.ans s r)).translate f := rfl

@[simp] theorem Prog.translate_bind (p : Prog S ε α) (g : α → Prog S ε β) :
    (p >>= g).translate f = p.translate f >>= fun a => (g a).translate f := by
  induction p with
  | ret a => rfl
  | raise e => rfl
  | call s k ih => exact congrArg (Prog.call (f.stmt s)) (funext fun r => ih (f.ans s r))

@[simp] theorem Prog.translate_tryCatch (p : Prog S ε α) (handler : ε → Prog S ε α) :
    (p.tryCatch handler).translate f =
      (p.translate f).tryCatch fun e => (handler e).translate f := by
  induction p with
  | ret a => rfl
  | raise e => rfl
  | call s k ih => exact congrArg (Prog.call (f.stmt s)) (funext fun r => ih (f.ans s r))

/-- A translated program issues translated statements. -/
theorem Prog.Uses.translate {X : S'.Stmt → Prop} (h : ∀ s, X (f.stmt s)) (p : Prog S ε α) :
    (p.translate f).Uses X := by
  induction p with
  | ret a => exact fun _ => trivial
  | raise e => exact fun _ => trivial
  | call s k ih => exact fun _ => ⟨h s, fun r _ => ih (f.ans s r) ()⟩

/-- So it issues only those that the translations of its own statements are. -/
theorem Prog.Uses.translated {X : S'.Stmt → Prop} {p : Prog S ε α}
    (h : p.Uses fun s => X (f.stmt s)) :
    (p.translate f).Uses X := by
  induction p with
  | ret a => exact fun _ => trivial
  | raise e => exact fun _ => trivial
  | call s k ih => exact fun _ => ⟨(h ()).1, fun r _ => ih _ (fun _ => (h ()).2 _ trivial) ()⟩

end Translate

end BookingPlatform.Library
