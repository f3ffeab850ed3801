import BookingPlatform.Library.Store

/-!
# Sessions on a Store

What one transaction does while no other one runs. Its statements are answered on the rows it sees,
with ids that the database draws, and each of them can fail. A program is verified for all draws and
failures at once, by the rules of `Prog.Follows` with the transaction as the phase.

## Main definitions

- `Environment`: which ids can be drawn, and with which codes statements can fail.
- `session`: the protocol of a transaction.
- `Machine.stepFaulty`: a machine whose statements can fail.

## Main results

- `issues_select`, `issues_insert`, …: one rule a statement.
- `run_of_follows`: what a run of a program does that follows the protocol.
- `fresh_supplies`: ids that are in no row and that are drawn once stay fresh.
- `Machine.Fresh.run`: they do so from one program to the next.
-/

namespace BookingPlatform.Library

variable {D : Schema}

/-! ## Rows after writes -/

theorem mem_upsert {τ : D.Table} {r r' : D.Row τ} {rows : List (D.Row τ)} (h : r' ∈ upsert r rows) :
    r' = r ∨ r' ∈ rows := by
  induction rows with
  | nil => exact .inl (List.mem_singleton.1 h)
  | cons x rows ih =>
    unfold upsert at h
    by_cases hid : D.id τ x = D.id τ r
    · rw [if_pos hid] at h
      exact (List.mem_cons.1 h).imp_right (List.mem_cons_of_mem x)
    · rw [if_neg hid] at h
      rcases List.mem_cons.1 h with rfl | hmem
      · exact .inr List.mem_cons_self
      · exact (ih hmem).imp_right (List.mem_cons_of_mem x)

/-- A row whose id is not in use is put after all others. -/
theorem upsert_of_fresh {τ : D.Table} {r : D.Row τ} {rows : List (D.Row τ)}
    (h : ∀ r' ∈ rows, D.id τ r' ≠ D.id τ r) : upsert r rows = rows ++ [r] := by
  induction rows with
  | nil => rfl
  | cons x rows ih =>
    unfold upsert
    rw [if_neg (h x List.mem_cons_self), ih fun r' hr' => h r' (List.mem_cons_of_mem x hr'),
      List.cons_append]

/-- A row was there before, or it has been put. -/
theorem Store.mem_applyAll {db : Store D} {cs : List (Change D)} {τ : D.Table} {r : D.Row τ}
    (h : r ∈ db.applyAll cs τ) : r ∈ db τ ∨ Change.put τ r ∈ cs := by
  induction cs generalizing db with
  | nil => exact .inl h
  | cons c cs ih =>
    -- the later changes first, then the one at the head
    have happlied : r ∈ db.apply c τ ∨ Change.put τ r ∈ cs := ih h
    rcases happlied with hmem | hmem
    · cases c with
      | put τ' r' =>
        by_cases hτ : τ = τ'
        · subst hτ
          rw [Store.apply_put_self] at hmem
          rcases mem_upsert hmem with rfl | hmem
          · exact .inr List.mem_cons_self
          · exact .inl hmem
        · rw [Store.apply_put_of_ne _ _ hτ] at hmem
          exact .inl hmem
      | remove τ' id =>
        by_cases hτ : τ = τ'
        · subst hτ
          have hkept : r ∈ (db τ).filter fun r => D.id τ r ≠ id := by
            simpa [Store.apply] using hmem
          exact .inl (List.mem_filter.1 hkept).1
        · have hkept : r ∈ db τ := by
            simpa [Store.apply, Function.update_of_ne hτ] using hmem
          exact .inl hkept
    · exact .inr (List.mem_cons_of_mem c hmem)

theorem Store.mem_apply {db : Store D} {c : Change D} {τ : D.Table} {r : D.Row τ}
    (h : r ∈ db.apply c τ) :
    r ∈ db τ ∨ c = .put τ r := by
  have hmem : r ∈ db.applyAll [c] τ := h
  exact (Store.mem_applyAll hmem).imp_right fun hput => (List.mem_singleton.1 hput).symm

/-- What an `update` returns are the rows it was to set. -/
theorem mem_setRows {τ : D.Table} {set : D.Row τ → Except String (D.Row τ)}
    {matching rows written : List (D.Row τ)} (h : setRows set matching rows = .ok written)
    {r' : D.Row τ} (hr' : r' ∈ written) : ∃ r ∈ matching, set r = .ok r' := by
  induction matching generalizing rows written with
  | nil =>
    cases h
    exact absurd hr' List.not_mem_nil
  | cons r matching ih =>
    unfold setRows at h
    cases hset : set r with
    | error code => simp only [hset, reduceCtorEq] at h
    | ok x =>
      simp only [hset] at h
      -- each row is set against the rows that are set before it
      cases hrefusal : refusal (rows.filter fun y => D.id τ y ≠ D.id τ x) x with
      | some code => simp only [hrefusal, reduceCtorEq] at h
      | none =>
        simp only [hrefusal] at h
        cases hrest : setRows set matching (upsert x rows) with
        | error code =>
          rw [hrest] at h
          cases h
        | ok rest =>
          rw [hrest] at h
          cases h
          -- it is the first row, or one of the rest
          rcases List.mem_cons.1 hr' with rfl | hr'
          · exact ⟨r, List.mem_cons_self, hset⟩
          · obtain ⟨r₀, hr₀, hset₀⟩ := ih hrest hr'
            exact ⟨r₀, List.mem_cons_of_mem r hr₀, hset₀⟩

/-! ## The protocol -/

namespace Tx

variable (tx : Tx D)

def abort : Tx D := { tx with aborted := true }

def write (c : Change D) : Tx D := { tx with pending := tx.pending ++ [c] }

/-- A savepoint named `i`. -/
def mark (i : ℕ) : Tx D := { tx with savepoints := (i, tx.pending.length) :: tx.savepoints }

@[simp] theorem view_idle (db : Store D) : (idle : Tx D).view db = db := rfl

@[simp] theorem view_write (db : Store D) (c : Change D) :
    (tx.write c).view db = (tx.view db).apply c := by
  simp [write, view, Store.applyAll]

@[simp] theorem view_mark (db : Store D) (i : ℕ) : (tx.mark i).view db = tx.view db := rfl

@[simp] theorem aborted_write (c : Change D) : (tx.write c).aborted = tx.aborted := rfl

@[simp] theorem aborted_mark (i : ℕ) : (tx.mark i).aborted = tx.aborted := rfl

end Tx

/-- Which ids can be drawn when the transaction sees certain rows, and with which codes a statement
can fail whatever it says. -/
structure Environment (D : Schema) where
  draws : Store D → D.Id → Prop
  fails : String → Prop

/-- Inserted rows have the id that is drawn for them, and updated rows keep theirs. A transaction is
not over before its program has come to its result. -/
def Stmt.KeepsIds : Stmt D → Prop
  | .insert τ mk => ∀ id time r, mk id time = .ok r → D.id τ r = id
  | .insertIgnore τ mk => ∀ id time, D.id τ (mk id time) = id
  | .update τ _ set => ∀ time r r', set time r = .ok r' → D.id τ r' = D.id τ r
  | .commit => False
  | _ => True

/-- The protocol of a transaction on the rows `db`. -/
def session (db : Store D) (env : Environment D) : Protocol (storeSignature D) (Tx D) where
  allows _ s := s.KeepsIds
  answers tx s r :=
    (∃ id time, env.draws (tx.view db) id ∧ r = tx.answer db id time s) ∨
      ∃ code, env.fails code ∧ r = .error code
  next tx s r := tx.after db s r

section Rules

variable {db : Store D} {env : Environment D} {tx : Tx D}

theorem issues_select {τ : D.Table} {p : D.Row τ → Bool}
    {Q : Tx D → Except String (List (D.Row τ)) → Prop} (hrunning : tx.aborted = false)
    (hrows : Q tx (.ok ((tx.view db τ).filter p)))
    (hfail : ∀ code, env.fails code → Q tx.abort (.error code)) :
    (session db env).Issues tx (.select τ p) Q := by
  refine ⟨trivial, fun r hr => ?_⟩
  rcases hr with ⟨id, time, -, rfl⟩ | ⟨code, hcode, rfl⟩
  · obtain ⟨pending, savepoints, _⟩ := tx
    cases hrunning
    simpa [session, Tx.answer, Tx.after, Store.answer, Store.writes] using hrows
  · exact hfail code hcode

theorem issues_insert {τ : D.Table} {mk : D.Id → ℤ → Except String (D.Row τ)}
    {Q : Tx D → Except String (D.Row τ) → Prop} (hrunning : tx.aborted = false)
    (hid : ∀ id time r, mk id time = .ok r → D.id τ r = id)
    (hrefused : ∀ id time code, env.draws (tx.view db) id → mk id time = .error code →
      Q tx.abort (.error code))
    (hconflict : ∀ id time r code, env.draws (tx.view db) id → mk id time = .ok r →
      refusal (tx.view db τ) r = some code → Q tx.abort (.error code))
    (hinsert : ∀ id time r, env.draws (tx.view db) id → mk id time = .ok r →
      refusal (tx.view db τ) r = none → Q (tx.write (.put τ r)) (.ok r))
    (hfail : ∀ code, env.fails code → Q tx.abort (.error code)) :
    (session db env).Issues tx (.insert τ mk) Q := by
  refine ⟨hid, fun r hr => ?_⟩
  -- the database answers, or the connection fails
  rcases hr with ⟨id, time, hdraws, rfl⟩ | ⟨code, hcode, rfl⟩
  · cases hmk : mk id time with
    | error code =>
      have hQ := hrefused id time code hdraws hmk
      simpa [session, Tx.answer, Tx.after, Store.answer, hrunning, hmk, Tx.abort] using hQ
    | ok r =>
      cases hrefusal : refusal (tx.view db τ) r with
      | some code =>
        have hQ := hconflict id time r code hdraws hmk hrefusal
        simpa [session, Tx.answer, Tx.after, Store.answer, hrunning, hmk, hrefusal,
          Tx.abort] using hQ
      | none =>
        have hQ := hinsert id time r hdraws hmk hrefusal
        simpa [session, Tx.answer, Tx.after, Store.answer, Store.writes, hrunning, hmk, hrefusal,
          Tx.write] using hQ
  · exact hfail code hcode

/-- An insert that does nothing on a conflict. -/
theorem issues_insertIgnore {τ : D.Table} {mk : D.Id → ℤ → D.Row τ}
    {Q : Tx D → Except String (Option (D.Row τ)) → Prop} (hrunning : tx.aborted = false)
    (hid : ∀ id time, D.id τ (mk id time) = id)
    (hconflict : ∀ id time code, env.draws (tx.view db) id →
      refusal (tx.view db τ) (mk id time) = some code → Q tx (.ok none))
    (hinsert : ∀ id time, env.draws (tx.view db) id → refusal (tx.view db τ) (mk id time) = none →
      Q (tx.write (.put τ (mk id time))) (.ok (some (mk id time))))
    (hfail : ∀ code, env.fails code → Q tx.abort (.error code)) :
    (session db env).Issues tx (.insertIgnore τ mk) Q := by
  refine ⟨hid, fun r hr => ?_⟩
  rcases hr with ⟨id, time, hdraws, rfl⟩ | ⟨code, hcode, rfl⟩
  · cases hrefusal : refusal (tx.view db τ) (mk id time) with
    | some code =>
      have hQ := hconflict id time code hdraws hrefusal
      have htx : ({ tx with pending := tx.pending ++ [] } : Tx D) = tx := by rw [List.append_nil]
      rw [← htx] at hQ
      simpa [session, Tx.answer, Tx.after, Store.answer, Store.writes, hrunning, hrefusal] using hQ
    | none =>
      have hQ := hinsert id time hdraws hrefusal
      simpa [session, Tx.answer, Tx.after, Store.answer, Store.writes, hrunning, hrefusal,
        Tx.write] using hQ
  · exact hfail code hcode

theorem issues_update {τ : D.Table} {p : D.Row τ → Bool}
    {set : ℤ → D.Row τ → Except String (D.Row τ)} {Q : Tx D → Except String (List (D.Row τ)) → Prop}
    (hrunning : tx.aborted = false) (hid : ∀ time r r', set time r = .ok r' → D.id τ r' = D.id τ r)
    (hset : ∀ time rows, setRows (set time) ((tx.view db τ).filter p) (tx.view db τ) = .ok rows →
      Q { tx with pending := tx.pending ++ rows.map (.put τ) } (.ok rows))
    (hrefused : ∀ time code,
      setRows (set time) ((tx.view db τ).filter p) (tx.view db τ) = .error code →
      Q tx.abort (.error code))
    (hfail : ∀ code, env.fails code → Q tx.abort (.error code)) :
    (session db env).Issues tx (.update τ p set) Q := by
  refine ⟨hid, fun r hr => ?_⟩
  rcases hr with ⟨id, time, -, rfl⟩ | ⟨code, hcode, rfl⟩
  · cases hrows : setRows (set time) ((tx.view db τ).filter p) (tx.view db τ) with
    | error code =>
      have hQ := hrefused time code hrows
      simpa [session, Tx.answer, Tx.after, Store.answer, hrunning, hrows, Tx.abort] using hQ
    | ok rows =>
      have hQ := hset time rows hrows
      simpa [session, Tx.answer, Tx.after, Store.answer, Store.writes, hrunning, hrows] using hQ
  · exact hfail code hcode

theorem issues_savepoint {i : ℕ} {Q : Tx D → Except String Unit → Prop}
    (hrunning : tx.aborted = false) (hmark : Q (tx.mark i) (.ok ()))
    (hfail : ∀ code, env.fails code → Q tx.abort (.error code)) :
    (session db env).Issues tx (.savepoint i) Q := by
  refine ⟨trivial, fun r hr => ?_⟩
  rcases hr with ⟨id, time, -, rfl⟩ | ⟨code, hcode, rfl⟩
  · simpa [session, Tx.answer, Tx.after, Store.answer, hrunning, Tx.mark] using hmark
  · exact hfail code hcode

theorem issues_release {i : ℕ} {Q : Tx D → Except String Unit → Prop} {sp : ℕ × ℕ}
    {sps : List (ℕ × ℕ)} (hrunning : tx.aborted = false) (hfrom : tx.from? i = sp :: sps)
    (hrelease : Q { tx with savepoints := sps } (.ok ()))
    (hfail : ∀ code, env.fails code → Q tx.abort (.error code)) :
    (session db env).Issues tx (.release i) Q := by
  refine ⟨trivial, fun r hr => ?_⟩
  rcases hr with ⟨id, time, -, rfl⟩ | ⟨code, hcode, rfl⟩
  · simpa [session, Tx.answer, Tx.after, hrunning, hfrom] using hrelease
  · exact hfail code hcode

/-- Rolling back to a savepoint also ends the aborted state. -/
theorem issues_rollbackTo {i : ℕ} {Q : Tx D → Except String Unit → Prop} {sp : ℕ × ℕ}
    {sps : List (ℕ × ℕ)} (hfrom : tx.from? i = sp :: sps)
    (hback : Q ⟨tx.pending.take sp.2, sp :: sps, false⟩ (.ok ()))
    (hfail : ∀ code, env.fails code → Q tx.abort (.error code)) :
    (session db env).Issues tx (.rollbackTo i) Q := by
  refine ⟨trivial, fun r hr => ?_⟩
  rcases hr with ⟨id, time, -, rfl⟩ | ⟨code, hcode, rfl⟩
  · simpa [session, Tx.answer, Tx.after, hfrom] using hback
  · exact hfail code hcode

end Rules

/-! ## Runs -/

/-- A machine on which the statement at tick `n` fails with the code `fault n`. -/
def Machine.stepFaulty (supply : ℕ → D.Id × ℤ) (fault : ℕ → Option String) (s : Stmt D)
    (m : Machine D) : Except String s.Result × Machine D :=
  match fault m.ticks with
  | some code => (.error code, ⟨m.store, m.tx.after m.store s (.error code), m.ticks + 1⟩)
  | none => m.step supply s

/-- The supply and the faults suit the environment, as long as `J` holds of the ticks and the
transaction. -/
structure Supplies (db : Store D) (env : Environment D) (supply : ℕ → D.Id × ℤ)
    (fault : ℕ → Option String) (J : ℕ → Tx D → Prop) : Prop where
  draws : ∀ n tx, J n tx → env.draws (tx.view db) (supply n).1
  fails : ∀ n code, fault n = some code → env.fails code
  answered : ∀ n tx (s : Stmt D), J n tx → s.KeepsIds →
    J (n + 1) (tx.after db s (tx.answer db (supply n).1 (supply n).2 s))
  failed : ∀ n tx (s : Stmt D) code, J n tx → J (n + 1) (tx.after db s (.error code))

/-- A program that follows the protocol comes to a result that satisfies the postcondition, and
leaves the committed rows as they are. -/
theorem run_of_follows {ε α : Type} {db : Store D} {env : Environment D} {supply : ℕ → D.Id × ℤ}
    {fault : ℕ → Option String} {J : ℕ → Tx D → Prop} (hsupplies : Supplies db env supply fault J)
    {p : Prog (storeSignature D) ε α} {post : Tx D → Except ε α → Prop} {tx : Tx D} {n : ℕ}
    (h : p.Follows (session db env) post tx) (hJ : J n tx) :
    ∃ r tx' n', p.run (Machine.stepFaulty supply fault) ⟨db, tx, n⟩ = (r, ⟨db, tx', n'⟩) ∧
      post tx' r ∧ J n' tx' := by
  induction p generalizing tx n with
  | ret a => exact ⟨.ok a, tx, n, rfl, h, hJ⟩
  | raise e => exact ⟨.error e, tx, n, rfl, h, hJ⟩
  | call s k ih =>
    obtain ⟨hkeeps, hanswers⟩ := h
    rw [Prog.run_call]
    -- the statement fails, or the store answers it
    cases hfault : fault n with
    | some code =>
      have hstep : Machine.stepFaulty supply fault s ⟨db, tx, n⟩ =
          (.error code, ⟨db, tx.after db s (.error code), n + 1⟩) := by
        simp only [Machine.stepFaulty, hfault]
      rw [hstep]
      exact ih _ (hanswers _ (.inr ⟨code, hsupplies.fails n code hfault, rfl⟩))
        (hsupplies.failed n tx s code hJ)
    | none =>
      -- the protocol has no `COMMIT`
      have hcommitted : tx.committed db s (tx.answer db (supply n).1 (supply n).2 s) = db := by
        cases s <;> first | rfl | exact hkeeps.elim
      have hstep : Machine.stepFaulty supply fault s ⟨db, tx, n⟩ =
          (tx.answer db (supply n).1 (supply n).2 s,
            ⟨db, tx.after db s (tx.answer db (supply n).1 (supply n).2 s), n + 1⟩) := by
        simp only [Machine.stepFaulty, hfault, Machine.step, hcommitted]
      rw [hstep]
      exact ih _ (hanswers _ (.inl ⟨_, _, hsupplies.draws n tx hJ, rfl⟩))
        (hsupplies.answered n tx s hJ hkeeps)

/-! ## Environments -/

/-- Any id can be drawn. -/
def anyDraws (D : Schema) (fails : String → Prop) : Environment D := ⟨fun _ _ => True, fails⟩

theorem any_supplies (db : Store D) {fails : String → Prop} (supply : ℕ → D.Id × ℤ)
    {fault : ℕ → Option String} (h : ∀ n code, fault n = some code → fails code) :
    Supplies db (anyDraws D fails) supply fault fun _ _ => True where
  draws _ _ _ := trivial
  fails := h
  answered _ _ _ _ _ := trivial
  failed _ _ _ _ _ := trivial

/-- Only ids can be drawn that no row has, and no statement fails by itself. -/
def calm (D : Schema) : Environment D :=
  ⟨fun view id => ∀ τ, ∀ r ∈ view τ, D.id τ r ≠ id, fun _ => False⟩

/-- No statement fails by itself, and no id is drawn that a row has. -/
def Environment.Calm (env : Environment D) : Prop :=
  (∀ code, ¬env.fails code) ∧ ∀ view id, env.draws view id → ∀ τ, ∀ r ∈ view τ, D.id τ r ≠ id

theorem calm_calm : (calm D).Calm := ⟨fun _ => id, fun _ _ h => h⟩

/-- The ids to be drawn from tick `n` on are neither in the rows nor in what the transaction has
put. -/
structure Unused (db : Store D) (supply : ℕ → D.Id × ℤ) (n : ℕ) (tx : Tx D) : Prop where
  base : ∀ k, n ≤ k → ∀ τ, ∀ r ∈ db τ, D.id τ r ≠ (supply k).1
  pending : ∀ k, n ≤ k → ∀ τ r, .put τ r ∈ tx.pending → D.id τ r ≠ (supply k).1

section Fresh

variable {db : Store D} {supply : ℕ → D.Id × ℤ} {n : ℕ} {tx : Tx D}

theorem Unused.view (h : Unused db supply n tx) {k : ℕ} (hk : n ≤ k) {τ : D.Table} {r : D.Row τ}
    (hr : r ∈ tx.view db τ) : D.id τ r ≠ (supply k).1 := by
  rcases Store.mem_applyAll hr with hmem | hmem
  · exact h.base k hk τ r hmem
  · exact h.pending k hk τ r hmem

/-- A transaction that has put only rows with unused ids, and ones it put before. -/
theorem Unused.of_pending (h : Unused db supply n tx) {tx' : Tx D}
    (hput : ∀ τ r, .put τ r ∈ tx'.pending → .put τ r ∈ tx.pending ∨
      ∀ k, n + 1 ≤ k → D.id τ r ≠ (supply k).1) : Unused db supply (n + 1) tx' where
  base k hk := h.base k (Nat.le_of_succ_le hk)
  pending k hk τ r hmem := by
    rcases hput τ r hmem with hmem | hunused
    · exact h.pending k (Nat.le_of_succ_le hk) τ r hmem
    · exact hunused k hk

/-- What a statement writes with an answer: rows the transaction has seen, by their ids, or one with
the id that was drawn. -/
theorem put_mem_writes {s : Stmt D} (hkeeps : s.KeepsIds) {id : D.Id} {time : ℤ} {view : Store D}
    {v : s.Result} (hanswer : view.answer id time s = .ok v) {τ : D.Table} {r : D.Row τ}
    (hr : .put τ r ∈ view.writes s v) : D.id τ r = id ∨ ∃ r₀ ∈ view τ, D.id τ r = D.id τ r₀ := by
  cases s with
  -- a row that is inserted has the id that was drawn
  | insert τ' mk =>
    obtain ⟨rfl, hr⟩ := Change.put.inj (List.mem_singleton.1 hr)
    cases hr
    unfold Store.answer at hanswer
    cases hmk : mk id time with
    | error code => simp only [hmk, reduceCtorEq] at hanswer
    | ok r' =>
      simp only [hmk] at hanswer
      cases hrefusal : refusal (view τ) r' with
      | some code => simp only [hrefusal, reduceCtorEq] at hanswer
      | none =>
        simp only [hrefusal, Except.ok.injEq] at hanswer
        subst hanswer
        exact .inl (hkeeps id time _ hmk)
  | insertIgnore τ' mk =>
    unfold Store.answer at hanswer
    cases hrefusal : refusal (view τ') (mk id time) with
    | some code =>
      simp only [hrefusal, Except.ok.injEq] at hanswer
      subst hanswer
      exact absurd hr List.not_mem_nil
    | none =>
      simp only [hrefusal, Except.ok.injEq] at hanswer
      subst hanswer
      obtain ⟨rfl, hr⟩ := Change.put.inj (List.mem_singleton.1 hr)
      cases hr
      exact .inl (hkeeps id time)
  -- a row that is set keeps its id
  | update τ' p set =>
    obtain ⟨r', hr', heq⟩ := List.mem_map.1 hr
    obtain ⟨rfl, heq⟩ := Change.put.inj heq
    cases heq
    obtain ⟨r₀, hr₀, hset⟩ := mem_setRows hanswer hr'
    exact .inr ⟨r₀, (List.mem_filter.1 hr₀).1, hkeeps time _ _ hset⟩
  | delete τ' p =>
    obtain ⟨r', -, heq⟩ := List.mem_map.1 hr
    cases heq
  | _ => exact absurd hr List.not_mem_nil

/-- What a transaction has put after a statement: what it had put before, and what the statement
writes. -/
theorem put_mem_after {s : Stmt D} {a : Except String s.Result} {τ : D.Table} {r : D.Row τ}
    (hr : .put τ r ∈ (tx.after db s a).pending) :
    .put τ r ∈ tx.pending ∨ ∃ v, a = .ok v ∧ .put τ r ∈ (tx.view db).writes s v := by
  cases s with
  | rollbackTo i =>
    cases a with
    | error code => exact .inl hr
    | ok v =>
      -- only changes up to the savepoint are left
      simp only [Tx.after] at hr
      cases hfrom : tx.from? i with
      | nil =>
        rw [hfrom] at hr
        exact .inl hr
      | cons sp sps =>
        rw [hfrom] at hr
        exact .inl (List.mem_of_mem_take hr)
  | commit => exact absurd hr List.not_mem_nil
  | rollback => exact absurd hr List.not_mem_nil
  | now => exact .inl hr
  | draw => exact .inl hr
  | _ =>
    cases a with
    | error code => exact .inl hr
    | ok v =>
      first
      | exact .inl hr
      | rcases List.mem_append.1 hr with hmem | hmem
        · exact .inl hmem
        · exact .inr ⟨v, rfl, hmem⟩

/-- A statement takes some changes back, or adds what it writes. -/
theorem pending_after (db : Store D) (tx : Tx D) (s : Stmt D) (a : Except String s.Result) :
    (∃ n, (tx.after db s a).pending = tx.pending.take n) ∨
      ∃ v, a = .ok v ∧ (tx.after db s a).pending = tx.pending ++ (tx.view db).writes s v := by
  -- to change nothing is to take nothing back
  have hnothing : ∃ n, tx.pending = tx.pending.take n := ⟨tx.pending.length, List.take_length.symm⟩
  cases s with
  | commit => exact .inl ⟨0, rfl⟩
  | rollback => exact .inl ⟨0, rfl⟩
  | now => exact .inl hnothing
  | draw => exact .inl hnothing
  -- back to the savepoint, if there is one
  | rollbackTo i =>
    refine .inl ?_
    cases a with
    | error code => exact hnothing
    | ok v =>
      simp only [Tx.after]
      split
      · exact hnothing
      · exact ⟨_, rfl⟩
  | savepoint i =>
    cases a with
    | error code => exact .inl hnothing
    | ok v => exact .inl hnothing
  | release i =>
    cases a with
    | error code => exact .inl hnothing
    | ok v => exact .inl hnothing
  | _ =>
    cases a with
    | error code => exact .inl hnothing
    | ok v => exact .inr ⟨v, rfl, rfl⟩

/-- Committed rows change with a `COMMIT` only, which ends the transaction. -/
theorem committed_cases (db : Store D) (tx : Tx D) (s : Stmt D) (a : Except String s.Result) :
    tx.committed db s a = db ∨ tx.committed db s a = tx.view db ∧ s = .commit := by
  cases s with
  | commit =>
    cases a with
    | error code => exact .inl rfl
    | ok v =>
      simp only [Tx.committed]
      split
      · exact .inl rfl
      · exact .inr ⟨rfl, trivial⟩
  | _ => exact .inl rfl

/-- A statement that succeeds is answered on the rows that the transaction sees. -/
theorem Tx.view_answer {s : Stmt D} {id : D.Id} {time : ℤ} {v : s.Result}
    (hanswer : tx.answer db id time s = .ok v) : (tx.view db).answer id time s = .ok v := by
  cases s with
  | now => exact hanswer
  | draw => exact hanswer
  | commit => rfl
  | rollback => rfl
  | rollbackTo i => rfl
  | release i => rfl
  | _ =>
    cases haborted : tx.aborted with
    | true => simp [Tx.answer, haborted] at hanswer
    | false => simpa [Tx.answer, haborted] using hanswer

/-- Ids that are drawn once, from a supply of unused ones, suit the calm environment. -/
theorem fresh_supplies (db : Store D) (hdistinct : Function.Injective fun n => (supply n).1) :
    Supplies db (calm D) supply (fun _ => none) (Unused db supply) where
  draws _ _ h _ _ hr := h.view (Nat.le_refl _) hr
  fails _ _ h := nomatch h
  answered n tx s h hkeeps := h.of_pending fun τ r hr => by
    rcases put_mem_after hr with hmem | ⟨v, hanswer, hmem⟩
    · exact .inl hmem
    · refine .inr fun k hk => ?_
      rcases put_mem_writes hkeeps (Tx.view_answer hanswer) hmem with hid | ⟨r₀, hr₀, hid⟩
      · -- the id that was drawn is not drawn again
        rw [hid]
        exact fun heq => absurd (hdistinct heq) (Nat.ne_of_lt hk)
      · rw [hid]
        exact h.view (Nat.le_of_succ_le hk) hr₀
  failed n tx s code h := h.of_pending fun τ r hr => by
    rcases put_mem_after hr with hmem | ⟨v, hanswer, -⟩
    · exact .inl hmem
    · cases hanswer

end Fresh

/-! ## One program after the other -/

/-- No row, committed or not, has an id that is still to be drawn. -/
def Machine.Fresh (supply : ℕ → D.Id × ℤ) (m : Machine D) : Prop :=
  Unused m.store supply m.ticks m.tx

/-- The statement keeps ids, or it commits. -/
def Stmt.Identifies : Stmt D → Prop
  | .commit => True
  | s => s.KeepsIds

theorem Stmt.KeepsIds.identifies {s : Stmt D} (h : s.KeepsIds) : s.Identifies := by
  cases s <;> first | exact h | exact trivial

section Machine

variable {supply : ℕ → D.Id × ℤ} {m : Machine D}

theorem Machine.Fresh.step (hdistinct : Function.Injective fun n => (supply n).1) {s : Stmt D}
    (hs : s.Identifies) (h : m.Fresh supply) : (m.step supply s).2.Fresh supply := by
  have hkept : s.KeepsIds → (m.step supply s).2.Fresh supply := by
    intro hkeeps
    have hanswered := (fresh_supplies m.store hdistinct).answered m.ticks m.tx s h hkeeps
    have hcommitted : m.tx.committed m.store s
        (m.tx.answer m.store (supply m.ticks).1 (supply m.ticks).2 s) = m.store := by
      cases s <;> first | rfl | exact hkeeps.elim
    unfold Machine.Fresh Machine.step
    dsimp only
    rw [hcommitted]
    exact hanswered
  cases s with
  | commit =>
    -- what was pending is now in the rows, unless the transaction is aborted
    refine ⟨fun k hk τ r hr => ?_, fun k _ τ r hr => absurd hr List.not_mem_nil⟩
    have hr : r ∈ (if m.tx.aborted then m.store else m.tx.view m.store) τ := hr
    cases haborted : m.tx.aborted with
    | true =>
      rw [haborted] at hr
      exact h.base k (Nat.le_of_succ_le hk) τ r hr
    | false =>
      rw [haborted] at hr
      exact h.view (Nat.le_of_succ_le hk) hr
  | _ => exact hkept hs

/-- A program of such statements leaves the ids that are still to be drawn unused. -/
theorem Machine.Fresh.run {ε α : Type} (hdistinct : Function.Injective fun n => (supply n).1)
    {p : Prog (storeSignature D) ε α} (hp : p.Uses Stmt.Identifies) (h : m.Fresh supply) :
    (p.run (Machine.step supply) m).2.Fresh supply := by
  induction p generalizing m with
  | ret a => exact h
  | raise e => exact h
  | call s k ih => exact ih _ (fun _ => (hp ()).2 _ trivial) (h.step hdistinct (hp ()).1)

end Machine

end BookingPlatform.Library
