import BookingPlatform.Library.Session
import BookingPlatform.Library.Solo

/-!
# Transactions over One Store

Any number of transactions over one store, interleaved statement by statement. A statement sees the
committed rows and what its own transaction has written, and any statement can fail. Nobody waits
for anybody here: the server allows every order that a database with locks allows, and others.

## Main definitions

- `SharedStore`: the committed rows and the transactions.
- `storeServer`: the server.

## Main results

- `exists_run_of_request`: a session can run alone, as on a machine of its own.
-/

namespace BookingPlatform.Library

variable {D : Schema}

/-- The committed rows, the transaction of each session, and the number of ids that have been
drawn. -/
structure SharedStore (D : Schema) (T : Type) where
  store : Store D
  tx : T → Tx D
  drawn : ℕ

/-- The answer of the store, or a failure of the statement. -/
def Answered (db : Store D) (tx : Tx D) (id : D.Id) (time : ℤ) (s : Stmt D)
    (a : Except String s.Result) :
    Prop := a = tx.answer db id time s ∨ ∃ code, a = .error code

/-- Sessions that run the programs of requests in transactions. `outside` says which changes
something else can commit; its rows can have the id that is drawn for it. -/
def storeServer {T ρ ε α : Type} [DecidableEq T] (supply : ℕ → D.Id × ℤ)
    (outside : Store D → D.Id → Change D → Prop) (program : ρ → Prog (storeSignature D) ε α) :
    Server (storeSignature D) T (SharedStore D T) ρ ε α where
  program
  possible t g s a := Answered g.store (g.tx t) (supply g.drawn).1 (supply g.drawn).2 s a
  effect t g s a :=
    ⟨(g.tx t).committed g.store s a,
      Function.update g.tx t ((g.tx t).after g.store s a), g.drawn + 1⟩
  crash t g := { g with tx := Function.update g.tx t .idle }
  env g g' := ∃ c, outside g.store (supply g.drawn).1 c ∧ g' = ⟨g.store.apply c, g.tx, g.drawn + 1⟩

/-- No transaction is open, and nothing has been drawn. -/
def SharedStore.initial (T : Type) (db : Store D) : SharedStore D T := ⟨db, fun _ => .idle, 0⟩

section Answers

variable {db : Store D} {tx : Tx D} {id : D.Id} {time : ℤ}

theorem Answered.answer_eq {s : Stmt D} {v : s.Result} (h : Answered db tx id time s (.ok v)) :
    tx.answer db id time s = .ok v := by
  rcases h with hanswer | ⟨code, hcode⟩
  · exact hanswer.symm
  · cases hcode

/-- A statement that succeeds is answered on the rows that its transaction sees. -/
theorem Answered.view_answer {s : Stmt D} {v : s.Result} (h : Answered db tx id time s (.ok v)) :
    (tx.view db).answer id time s = .ok v := Tx.view_answer h.answer_eq

/-- The rows that are read are rows that the transaction sees. -/
theorem Answered.select {τ : D.Table} {p : D.Row τ → Bool} {rows : List (D.Row τ)}
    (h : Answered db tx id time (.select τ p) (.ok rows)) :
    ∀ r ∈ rows, r ∈ tx.view db τ ∧ p r = true := by
  obtain rfl := Except.ok.inj h.view_answer
  intro r hr
  exact List.mem_filter.1 hr

theorem Answered.insert {τ : D.Table} {row : D.Id → ℤ → Except String (D.Row τ)} {r : D.Row τ}
    (h : Answered db tx id time (.insert τ row) (.ok r)) : row id time = .ok r := by
  have hanswer := h.view_answer
  unfold Store.answer at hanswer
  cases hrow : row id time with
  | error code => simp only [hrow, reduceCtorEq] at hanswer
  | ok r' =>
    cases hrefusal : refusal (tx.view db τ) r' with
    | some code => simp only [hrow, hrefusal, reduceCtorEq] at hanswer
    | none => simpa only [hrow, hrefusal] using hanswer

theorem Answered.insertIgnore {τ : D.Table} {row : D.Id → ℤ → D.Row τ} {r : D.Row τ}
    (h : Answered db tx id time (.insertIgnore τ row) (.ok (some r))) : r = row id time := by
  have hanswer := h.view_answer
  unfold Store.answer at hanswer
  cases hrefusal : refusal (tx.view db τ) (row id time) with
  | some code => simp [hrefusal] at hanswer
  | none =>
    simp only [hrefusal, Except.ok.injEq, Option.some.injEq] at hanswer
    exact hanswer.symm

end Answers

/-! ## Sessions that run alone -/

/-- A program after its first `n` statements, and the machine that has answered them. -/
def Prog.advance {S : Signature} {ε α σ : Type} (step : (s : S.Stmt) → σ → S.Ans s × σ) :
    ℕ → Prog S ε α → σ → Prog S ε α × σ
  | n + 1, .call s k, m => (k (step s m).1).advance step n (step s m).2
  | _, p, m => (p, m)

section Solo

variable {T ρ ε α β : Type} [DecidableEq T] {supply : ℕ → D.Id × ℤ}
  {outside : Store D → D.Id → Change D → Prop} {program : ρ → Prog (storeSignature D) ε α}

/-- The store as a session leaves it whose statements a machine has answered. -/
def SharedStore.left (g : SharedStore D T) (t : T) (m : Machine D) : SharedStore D T :=
  ⟨m.store, Function.update g.tx t m.tx, m.ticks⟩

/-- The machine that answers the statements of a session. -/
def SharedStore.machine (g : SharedStore D T) (t : T) : Machine D := ⟨g.store, g.tx t, g.drawn⟩

/-- A statement that the machine of a session answers. -/
theorem machine_effect (t : T) (s : Stmt D) (g : SharedStore D T) {g' : SharedStore D T}
    (hg' : g' = (storeServer supply outside program).effect t g s
      ((g.tx t).answer g.store (supply g.drawn).1 (supply g.drawn).2 s)) :
    g'.machine t = (Machine.step supply s (g.machine t)).2 ∧ ∀ m, g'.left t m = g.left t m := by
  subst hg'
  constructor
  · simp [SharedStore.machine, storeServer, Machine.step]
  · intro m
    simp [SharedStore.left, storeServer]

/-- The store as a session leaves it that does nothing. -/
theorem SharedStore.left_machine (g : SharedStore D T) (t : T) : g.left t (g.machine t) = g := by
  simp [SharedStore.left, SharedStore.machine]

theorem leads_advance (t : T) (n : ℕ) (p : Prog (storeSignature D) ε β) (g : SharedStore D T) :
    (storeServer supply outside program).Leads t p g
      (p.advance (Machine.step supply) n (g.machine t)).1
      (g.left t (p.advance (Machine.step supply) n (g.machine t)).2) := by
  -- without a step nothing changes
  have hstay : ∀ (p : Prog (storeSignature D) ε β) (g : SharedStore D T),
      (storeServer supply outside program).Leads t p g p (g.left t (g.machine t)) := by
    intro p g
    rw [g.left_machine]
    exact .refl p g
  induction n generalizing p g with
  | zero => exact hstay p g
  | succ n ih =>
    cases p with
    | ret a => exact hstay _ g
    | raise e => exact hstay _ g
    | call s k =>
      let a := (g.tx t).answer g.store (supply g.drawn).1 (supply g.drawn).2 s
      let g' := (storeServer supply outside program).effect t g s a
      -- the machine of the session steps as the server does
      obtain ⟨hmachine, hleft⟩ : g'.machine t = _ ∧ ∀ m, g'.left t m = _ := machine_effect t s g rfl
      have hrest := ih (k a) g'
      rw [hmachine, hleft] at hrest
      exact .call a (.inl rfl) hrest

theorem executes_of_machine (t : T) (p : Prog (storeSignature D) ε β) (g : SharedStore D T) :
    (storeServer supply outside program).Executes t p g
      (p.run (Machine.step supply) (g.machine t)).1
      (g.left t (p.run (Machine.step supply) (g.machine t)).2) := by
  induction p generalizing g with
  | ret a => exact ⟨rfl, g.left_machine t⟩
  | raise e => exact ⟨rfl, g.left_machine t⟩
  | call s k ih =>
    let a := (g.tx t).answer g.store (supply g.drawn).1 (supply g.drawn).2 s
    let g' := (storeServer supply outside program).effect t g s a
    obtain ⟨hmachine, hleft⟩ : g'.machine t = _ ∧ ∀ m, g'.left t m = _ := machine_effect t s g rfl
    have hrest := ih a g'
    rw [hmachine, hleft] at hrest
    exact Server.executes_call a (.inl rfl) hrest

/-- A request can be served to any of its statements with no other session moving. -/
theorem exists_run_of_advance {w : World (storeSignature D) T (SharedStore D T) ρ ε α} {t : T}
    (q : ρ) (n : ℕ) (hidle : w.session t = none) :
    ∃ w' tr, Runs (World.Step (storeServer supply outside program)) anyStep w w' ∧
      w'.shared = w.shared.left t
        ((program q).advance (Machine.step supply) n (w.shared.machine t)).2 ∧
      w'.session t = some ⟨q, ((program q).advance (Machine.step supply) n (w.shared.machine t)).1,
        tr⟩ := by
  have hself : (w.start (storeServer supply outside program) t q).session t =
      some ⟨q, program q, []⟩ := by
    simp [World.start_session, storeServer]
  have hleads : (storeServer supply outside program).Leads t (program q)
      (w.start (storeServer supply outside program) t q).shared _ _ :=
    leads_advance t n (program q) w.shared
  have hany : ∀ (w : World (storeSignature D) T (SharedStore D T) ρ ε α)
      (x : Exchange (storeSignature D)),
      anyStep w (Label.call t x : Label _ T ρ) := fun _ _ => trivial
  obtain ⟨w', tr, hrun, hshared, hat⟩ := Server.exists_run_of_leads hany hleads hself
  exact ⟨w', tr, .head ⟨_, trivial, .start q hidle⟩ hrun, hshared, hat⟩

/-- A request can be served to its end with no other session moving. -/
theorem exists_run_of_request {w : World (storeSignature D) T (SharedStore D T) ρ ε α} {t : T}
    (q : ρ) (hidle : w.session t = none) :
    ∃ w', Runs (World.Step (storeServer supply outside program)) anyStep w w' ∧
      w'.shared = w.shared.left t
        ((program q).run (Machine.step supply) (w.shared.machine t)).2 := by
  have hself : (w.start (storeServer supply outside program) t q).session t =
      some ⟨q, program q, []⟩ := by
    simp [World.start_session, storeServer]
  have hexec : (storeServer supply outside program).Executes t (program q)
      (w.start (storeServer supply outside program) t q).shared _ _ :=
    executes_of_machine t (program q) w.shared
  obtain ⟨w', -, -, hrun, hshared, -⟩ := Server.exists_run_of_executes hexec hself
  exact ⟨w', .head ⟨_, trivial, .start q hidle⟩ hrun, hshared⟩

end Solo

end BookingPlatform.Library
