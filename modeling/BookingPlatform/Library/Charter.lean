import BookingPlatform.Library.Inserts

/-!
# What Transactions Commit

Sessions over one store that delete nothing. The answers to its statements tell a session what it
has written, so its program can be held to rules that speak of that: what it may commit together,
and what it must have committed before it issues a certain statement.

## Main definitions

- `Ledger`: what a session has read, written and committed.
- `Charter`: the rules for the sessions, and what they keep of the rows.

## Main results

- `Charter.Kept.commit_cases`: what one step of the interleaving commits.
- `Charter.Kept.step`, `Charter.kept_run`: what every step keeps, and every run.
-/

namespace BookingPlatform.Library

variable {D : Schema}

/-! ## Ledgers -/

/-- The statement tells by its result what it writes; a `delete` does not. -/
def Stmt.Tells : Stmt D → Prop
  | .delete .. => False
  | _ => True

theorem Stmt.Tells.writes {s : Stmt D} (h : s.Tells) (db db' : Store D) (v : s.Result) :
    db.writes s v = db'.writes s v := by
  cases s with
  | delete τ p => exact h.elim
  | _ => rfl

/-- The changes that a statement with this answer commits. -/
def Tx.commits (tx : Tx D) : (s : Stmt D) → Except String s.Result → List (Change D)
  | .commit, .ok _ => if tx.aborted then [] else tx.pending
  | _, _ => []

/-- The rows that a transaction commits into a table that grows are there afterwards. -/
theorem Minted.mem_committed {T : Type} {τ : D.Table} {supply : ℕ → D.Id × ℤ} {g : SharedStore D T}
    {grows : D.Table → Prop} {ids : T → List D.Id} (h : Minted grows supply g ids) (hτ : grows τ)
    {t : T} {s : Stmt D} {a : Except String s.Result} {r : D.Row τ}
    (hr : r ∈ rowsIn τ ((g.tx t).commits s a)) : r ∈ (g.tx t).committed g.store s a τ := by
  cases s with
  | commit =>
    cases a with
    | error code => exact absurd hr List.not_mem_nil
    | ok v =>
      cases haborted : (g.tx t).aborted with
      | true => simp [Tx.commits, haborted] at hr
      | false =>
        have hput : r ∈ rowsIn τ (g.tx t).pending := by simpa [Tx.commits, haborted] using hr
        -- a table that grows is seen with the pending rows at its end
        have hview : r ∈ (g.tx t).view g.store τ := by
          rw [h.view hτ t]
          exact List.mem_append_right _ hput
        simpa [Tx.committed, haborted] using hview
  | _ => exact absurd hr List.not_mem_nil

/-- The transaction of a session with the ids that it has inserted, the rows that the session has
read while its transaction had written nothing, and what it has committed. -/
structure Ledger (D : Schema) where
  tx : Tx D
  inserted : List D.Id
  read : (τ : D.Table) → List (D.Row τ)
  committed : List (Change D)

namespace Ledger

def empty : Ledger D := ⟨.idle, [], fun _ => [], []⟩

/-- The rows that the statement has read from the committed ones. -/
def learn (L : Ledger D) : (s : Stmt D) → Except String s.Result → (τ : D.Table) → List (D.Row τ)
  | .select τ _, .ok rows =>
    if L.tx.pending = [] then Function.update L.read τ (L.read τ ++ rows) else L.read
  | _, _ => L.read

theorem learn_select (L : Ledger D) {τ : D.Table} {p : D.Row τ → Bool} {rows : List (D.Row τ)} :
    L.learn (.select τ p) (.ok rows) =
      if L.tx.pending = [] then Function.update L.read τ (L.read τ ++ rows) else L.read := rfl

/-- The ledger after a statement with this answer. -/
def next (L : Ledger D) (s : Stmt D) (a : Except String s.Result) : Ledger D where
  tx := L.tx.after (fun _ => []) s a
  inserted := insertedAfter L.inserted s a
  read := L.learn s a
  committed := L.committed ++ L.tx.commits s a

theorem next_tx (L : Ledger D) {s : Stmt D} (hs : s.Tells) (db : Store D)
    (a : Except String s.Result) :
    (L.next s a).tx = L.tx.after db s a := Domain.tx_after_congr L.tx (hs.writes _ _) a

/-- The rows of `τ` have been read. -/
def reads (L : Ledger D) (τ : D.Table) (rows : List (D.Row τ)) : Ledger D :=
  { L with read := Function.update L.read τ (L.read τ ++ rows) }

/-- The row has been inserted into `τ`. -/
def inserts (L : Ledger D) (τ : D.Table) (r : D.Row τ) : Ledger D :=
  { L with tx := L.tx.write (.put τ r), inserted := L.inserted ++ [D.id τ r] }

/-- The rows of `τ` have been written in the place of those with their ids. -/
def updates (L : Ledger D) (τ : D.Table) (rows : List (D.Row τ)) : Ledger D :=
  { L with tx := { L.tx with pending := L.tx.pending ++ rows.map (.put τ) } }

/-- The transaction has been committed. -/
def commit (L : Ledger D) : Ledger D := ⟨.idle, [], L.read, L.committed ++ L.tx.pending⟩

section Next

variable {L : Ledger D} {τ : D.Table}

theorem next_select (hpending : L.tx.pending = []) {p : D.Row τ → Bool} {rows : List (D.Row τ)} :
    L.next (.select τ p) (.ok rows) = L.reads τ rows := by
  have hread : L.learn (.select τ p) (.ok rows) = Function.update L.read τ (L.read τ ++ rows) := by
    rw [learn_select, if_pos hpending]
  simp [next, reads, Tx.after, Tx.commits, Store.writes, insertedAfter, Stmt.inserted, hread]

theorem next_insert {mk : D.Id → ℤ → Except String (D.Row τ)} {r : D.Row τ} :
    L.next (.insert τ mk) (.ok r) = L.inserts τ r := by
  simp [next, inserts, Tx.after, Tx.commits, Store.writes, insertedAfter, Stmt.inserted,
    learn, Tx.write]

theorem next_update {p : D.Row τ → Bool} {set : ℤ → D.Row τ → Except String (D.Row τ)}
    {rows : List (D.Row τ)} :
    L.next (.update τ p set) (.ok rows) = L.updates τ rows := by
  simp [next, updates, Tx.after, Tx.commits, Store.writes, insertedAfter, Stmt.inserted, learn]

theorem next_config {value : String} : L.next (.config value) (.ok ()) = L := by
  simp [next, Tx.after, Tx.commits, Store.writes, insertedAfter, Stmt.inserted, learn]

theorem next_commit (hrunning : L.tx.aborted = false) : L.next .commit (.ok ()) = L.commit := by
  simp [next, commit, Tx.after, Tx.commits, insertedAfter, learn, hrunning]

end Next

section Pending

variable {L : Ledger D} {τ σ : D.Table} {r : D.Row τ} {rows : List (D.Row τ)}

@[simp] theorem rowsIn_empty : rowsIn τ (empty : Ledger D).tx.pending = [] := rfl

@[simp] theorem rowsIn_inserts :
    rowsIn τ (L.inserts τ r).tx.pending = rowsIn τ L.tx.pending ++ [r] := by
  simp [inserts, Tx.write]

theorem rowsIn_inserts_of_ne (h : τ ≠ σ) :
    rowsIn σ (L.inserts τ r).tx.pending = rowsIn σ L.tx.pending := by
  have hnone : rowsIn σ [Change.put τ r] = [] := rowsIn_cons_of_ne h
  simp [inserts, Tx.write, hnone]

@[simp] theorem rowsIn_updates :
    rowsIn τ (L.updates τ rows).tx.pending = rowsIn τ L.tx.pending ++ rows := by
  have hrows : rowsIn τ (rows.map (.put τ)) = rows := by
    induction rows with
    | nil => rfl
    | cons r rows ih => simp [ih]
  simp [updates, hrows]

theorem rowsIn_updates_of_ne (h : τ ≠ σ) :
    rowsIn σ (L.updates τ rows).tx.pending = rowsIn σ L.tx.pending := by
  have hnone : rowsIn σ (rows.map (.put τ)) = [] := by
    apply rowsIn_of_tables
    intro c hc
    obtain ⟨r, -, rfl⟩ := List.mem_map.1 hc
    exact h
  simp [updates, hnone]

theorem mem_reads (h : r ∈ rows) : r ∈ (L.reads τ rows).read τ := by
  show r ∈ Function.update L.read τ (L.read τ ++ rows) τ
  rw [Function.update_self]
  exact List.mem_append_right _ h

theorem mem_reads_of_mem (h : r ∈ L.read τ) : r ∈ (L.reads τ rows).read τ := by
  show r ∈ Function.update L.read τ (L.read τ ++ rows) τ
  rw [Function.update_self]
  exact List.mem_append_left _ h

@[simp] theorem reads_tx : (L.reads τ rows).tx = L.tx := rfl

@[simp] theorem remove_mem_inserts {id : D.Id} :
    .remove σ id ∈ (L.inserts τ r).tx.pending ↔ .remove σ id ∈ L.tx.pending := by
  simp [inserts, Tx.write]

@[simp] theorem remove_mem_updates {id : D.Id} :
    .remove σ id ∈ (L.updates τ rows).tx.pending ↔ .remove σ id ∈ L.tx.pending := by
  simp [updates]

@[simp] theorem remove_notMem_empty {id : D.Id} : .remove σ id ∉ (empty : Ledger D).tx.pending :=
  List.not_mem_nil

end Pending

/-- A row that has been read is one of the committed rows, or it had been read before. -/
theorem mem_learn {L : Ledger D} {s : Stmt D} {a : Except String s.Result} {db : Store D}
    {id : D.Id} {time : ℤ} (ha : Answered db L.tx id time s a) {τ : D.Table} {r : D.Row τ}
    (hr : r ∈ L.learn s a τ) :
    r ∈ L.read τ ∨ r ∈ db τ := by
  cases s with
  | select σ p =>
    cases a with
    | error code => exact .inl hr
    | ok rows =>
      rw [learn_select] at hr
      -- only what is read before the first write counts as committed
      by_cases hpending : L.tx.pending = []
      · rw [if_pos hpending] at hr
        by_cases hτ : τ = σ
        · subst hτ
          rw [Function.update_self] at hr
          rcases List.mem_append.1 hr with hr | hr
          · exact .inl hr
          · have hview : r ∈ L.tx.view db τ := (ha.select r hr).1
            rw [Tx.view, hpending] at hview
            exact .inr hview
        · rw [Function.update_of_ne hτ] at hr
          exact .inl hr
      · rw [if_neg hpending] at hr
        exact .inl hr
  | _ => exact .inl hr

end Ledger

/-! ## Charters -/

/-- Rules for sessions: `may` says which statements the session of a request may issue, by its
ledger. They are to keep that `holds` is true of the committed rows, and each commit changes them as
`evolves` allows. The tables for which `grows` is true only grow. -/
structure Charter (D : Schema) (ρ : Type) where
  grows : D.Table → Prop
  holds : Store D → Prop
  evolves : Store D → Store D → Prop
  may : ρ → Ledger D → Stmt D → Prop

namespace Charter

variable {ρ : Type} (C : Charter D ρ)

/-- The row has been committed, and the rows have evolved since. -/
def Past (db : Store D) (τ : D.Table) (r : D.Row τ) : Prop :=
  ∃ db₀, C.holds db₀ ∧ r ∈ db₀ τ ∧ C.evolves db₀ db

/-- The rules do what they are for. `outside` says what something else may commit. -/
structure Lawful (outside : Store D → D.Id → Change D → Prop) : Prop where
  refl : ∀ db, C.evolves db db
  trans : ∀ db₁ db₂ db₃, C.evolves db₁ db₂ → C.evolves db₂ db₃ → C.evolves db₁ db₃
  tells : ∀ q L s, C.may q L s → s.Tells
  identifies : ∀ q L s, C.may q L s → s.Identifies
  spares : ∀ q L s, C.may q L s → ∀ τ, C.grows τ → s.Spares τ
  commits : ∀ q L db, C.may q L .commit → C.holds db → (∀ τ, ∀ r ∈ L.read τ, C.Past db τ r) →
    (∀ i ∈ L.inserted, ∀ τ, ∀ r ∈ db τ, D.id τ r ≠ i) →
    (∀ τ, C.grows τ → db.applyAll L.tx.pending τ = db τ ++ rowsIn τ L.tx.pending) →
    C.holds (db.applyAll L.tx.pending) ∧ C.evolves db (db.applyAll L.tx.pending)
  respects : ∀ db id c, outside db id c → Respects C.grows db id c
  others : ∀ db id c, outside db id c → C.holds db → (∀ τ, C.grows τ → db τ <+: db.apply c τ) →
    C.holds (db.apply c) ∧ C.evolves db (db.apply c)

/-- The rules as a protocol for the session of a request. -/
def protocol (q : ρ) : Protocol (storeSignature D) (Ledger D) where
  allows L s := C.may q L s
  answers L s a := ∃ db id time, C.holds db ∧ (∀ τ, ∀ r ∈ L.read τ, C.Past db τ r) ∧
    Answered db L.tx id time s a
  next L s a := L.next s a

/-! ## Rules -/

section Rules

variable {C} {q : ρ} {L : Ledger D} {τ : D.Table}

/-- A statement reads before its transaction has written anything. -/
theorem issues_select {p : D.Row τ → Bool} {Q : Ledger D → Except String (List (D.Row τ)) → Prop}
    (hmay : C.may q L (.select τ p)) (hpending : L.tx.pending = [])
    (hrows : ∀ db, C.holds db → (∀ σ, ∀ r ∈ L.read σ, C.Past db σ r) →
      Q (L.reads τ ((db τ).filter p)) (.ok ((db τ).filter p)))
    (hfail : ∀ L' code, Q L' (.error code)) : (C.protocol q).Issues L (.select τ p) Q := by
  refine ⟨hmay, fun a ha => ?_⟩
  obtain ⟨db, id, time, hholds, hpast, ha⟩ := ha
  cases a with
  | error code => exact hfail _ code
  | ok rows =>
    -- nothing is pending, so that the transaction sees the committed rows
    have hview : L.tx.view db = db := by
      rw [Tx.view, hpending]
      rfl
    obtain rfl : rows = (db τ).filter p := by
      have hanswer := ha.view_answer
      rw [hview] at hanswer
      exact (Except.ok.inj hanswer).symm
    rw [show (C.protocol q).next L (.select τ p) (.ok ((db τ).filter p)) = L.reads τ
      ((db τ).filter p) from
      L.next_select hpending]
    exact hrows db hholds hpast

theorem issues_insert {mk : D.Id → ℤ → Except String (D.Row τ)}
    {Q : Ledger D → Except String (D.Row τ) → Prop} (hmay : C.may q L (.insert τ mk))
    (hrow : ∀ id time r, mk id time = .ok r → Q (L.inserts τ r) (.ok r))
    (hfail : ∀ L' code, Q L' (.error code)) : (C.protocol q).Issues L (.insert τ mk) Q := by
  refine ⟨hmay, fun a ha => ?_⟩
  obtain ⟨db, id, time, -, -, ha⟩ := ha
  cases a with
  | error code => exact hfail _ code
  | ok r =>
    rw [show (C.protocol q).next L (.insert τ mk) (.ok r) = L.inserts τ r from L.next_insert]
    exact hrow id time r ha.insert

theorem issues_update {p : D.Row τ → Bool} {set : ℤ → D.Row τ → Except String (D.Row τ)}
    {Q : Ledger D → Except String (List (D.Row τ)) → Prop} (hmay : C.may q L (.update τ p set))
    (hpending : L.tx.pending = [])
    (hrows : ∀ db time rows, C.holds db → (∀ σ, ∀ r ∈ L.read σ, C.Past db σ r) →
      setRows (set time) ((db τ).filter p) (db τ) = .ok rows → Q (L.updates τ rows) (.ok rows))
    (hfail : ∀ L' code, Q L' (.error code)) : (C.protocol q).Issues L (.update τ p set) Q := by
  refine ⟨hmay, fun a ha => ?_⟩
  obtain ⟨db, id, time, hholds, hpast, ha⟩ := ha
  cases a with
  | error code => exact hfail _ code
  | ok rows =>
    have hview : L.tx.view db = db := by
      rw [Tx.view, hpending]
      rfl
    have hset := ha.view_answer
    rw [hview] at hset
    rw [show (C.protocol q).next L (.update τ p set)
      (.ok rows) = L.updates τ rows from L.next_update]
    exact hrows db time rows hholds hpast hset

theorem issues_config {value : String} {Q : Ledger D → Except String Unit → Prop}
    (hmay : C.may q L (.config value)) (hok : Q L (.ok ()))
    (hfail : ∀ L' code, Q L' (.error code)) :
    (C.protocol q).Issues L (.config value) Q := by
  refine ⟨hmay, fun a ha => ?_⟩
  cases a with
  | error code => exact hfail _ code
  | ok v =>
    rw [show (C.protocol q).next L (.config value) (.ok v) = L from L.next_config]
    exact hok

theorem issues_commit {Q : Ledger D → Except String Unit → Prop} (hmay : C.may q L .commit)
    (hrunning : L.tx.aborted = false) (hok : Q L.commit (.ok ()))
    (hfail : ∀ L' code, Q L' (.error code)) :
    (C.protocol q).Issues L .commit Q := by
  refine ⟨hmay, fun a ha => ?_⟩
  cases a with
  | error code => exact hfail _ code
  | ok v =>
    rw [show (C.protocol q).next L .commit (.ok v) = L.commit from L.next_commit hrunning]
    exact hok

end Rules

/-! ## Runs -/

section Runs

variable {C} {T ε α : Type} {supply : ℕ → D.Id × ℤ} {outside : Store D → D.Id → Change D → Prop}
  {program : ρ → Prog (storeSignature D) ε α}

/-- All sessions keep to the rules, and `L` is what they have done. -/
structure Kept (C : Charter D ρ) (supply : ℕ → D.Id × ℤ)
    (w : World (storeSignature D) T (SharedStore D T) ρ ε α) (L : T → Ledger D) : Prop where
  holds : C.holds w.shared.store
  tx : ∀ t, w.shared.tx t = (L t).tx
  follows : ∀ t σ, w.session t = some σ →
    σ.prog.Follows (C.protocol σ.request) (fun _ _ => True) (L t)
  idle : ∀ t, w.session t = none → L t = .empty
  past : ∀ t τ, ∀ r ∈ (L t).read τ, C.Past w.shared.store τ r
  minted : Minted C.grows supply w.shared fun t => (L t).inserted
  committed : ∀ t τ, C.grows τ → ∀ r ∈ rowsIn τ (L t).committed, r ∈ w.shared.store τ

variable {w w' : World (storeSignature D) T (SharedStore D T) ρ ε α} {L : T → Ledger D}

theorem Past.evolve (hlaw : C.Lawful outside) {db db' : Store D} {τ : D.Table} {r : D.Row τ}
    (h : C.Past db τ r) (hdb : C.evolves db db') : C.Past db' τ r := by
  obtain ⟨db₀, hholds, hr, hevolves⟩ := h
  exact ⟨db₀, hholds, hr, hlaw.trans db₀ db db' hevolves hdb⟩

/-- The statement that a session is about to issue is one that the rules allow. -/
theorem Kept.may (h : C.Kept supply w L) {t : T} {q : ρ} {s : Stmt D}
    {k : Except String s.Result → Prog (storeSignature D) ε α}
    {tr : List (Exchange (storeSignature D))} (hat : w.session t = some ⟨q, .call s k, tr⟩) :
    C.may q (L t) s :=
  (h.follows t _ hat).1

theorem Kept.initial {db : Store D} (hdb : C.holds db)
    (hundrawn : ∀ τ, ∀ r ∈ db τ, ∀ n, D.id τ r ≠ (supply n).1) :
    C.Kept supply (World.fresh (SharedStore.initial T db) : World _ T _ ρ ε α) fun _ => .empty where
  holds := hdb
  tx _ := rfl
  follows _ _ hσ := by cases hσ
  idle _ _ := rfl
  past _ _ _ hr := absurd hr List.not_mem_nil
  minted := .initial hundrawn
  committed _ _ _ _ hr := absurd hr List.not_mem_nil

variable [DecidableEq T]

/-- A step leaves the committed rows as they are, or a session commits what the rules allow, or
something else commits a change. -/
theorem Kept.commit_cases (h : C.Kept supply w L) {l : Label (storeSignature D) T ρ}
    (hs : World.Step (storeServer supply outside program) w l w') :
    w'.shared.store = w.shared.store ∨
    (∃ t σ, w.session t = some σ ∧ l = .call t ⟨.commit, .ok ()⟩ ∧ C.may σ.request (L t) .commit ∧
      w'.shared.store = w.shared.store.applyAll (L t).tx.pending ∧
      ∀ τ, C.grows τ → w'.shared.store τ = w.shared.store τ ++ rowsIn τ (L t).tx.pending) ∨
    ∃ c, outside w.shared.store (supply w.shared.drawn).1 c ∧
      w'.shared.store = w.shared.store.apply c := by
  cases hs with
  | start q hidle => exact .inl rfl
  | crash hat hrun => exact .inl rfl
  | env hg =>
    obtain ⟨c, hc, rfl⟩ := hg
    exact .inr (.inr ⟨c, hc, rfl⟩)
  | @call t q tr s k a hat ha =>
    show (w.shared.tx t).committed w.shared.store s a = _ ∨ _
    cases hanswer : a with
    | error code =>
      apply Or.inl
      cases s <;> rfl
    | ok v =>
      -- an answer either leaves the store or is that of a `COMMIT`
      rcases committed_cases w.shared.store (w.shared.tx t) s a with hsame | ⟨hview, rfl⟩
      · exact .inl (hanswer ▸ hsame)
      · subst hanswer
        have hmay : C.may q (L t) .commit := h.may hat
        have hrows : ∀ τ, C.grows τ → (w.shared.tx t).view w.shared.store τ =
            w.shared.store τ ++ rowsIn τ (w.shared.tx t).pending := fun τ hτ => h.minted.view hτ t
        apply Or.inr
        apply Or.inl
        refine ⟨t, _, hat, rfl, hmay, ?_, ?_⟩
        · show (w.shared.tx t).committed w.shared.store .commit (.ok ()) = _
          rw [hview, Tx.view, h.tx t]
        · intro τ hτ
          show (w.shared.tx t).committed w.shared.store .commit (.ok ()) τ = _
          rw [hview, hrows τ hτ, h.tx t]

/-- What a step does to the committed rows. -/
theorem Kept.evolves (hlaw : C.Lawful outside) (h : C.Kept supply w L)
    {l : Label (storeSignature D) T ρ}
    (hs : World.Step (storeServer supply outside program) w l w') :
    C.holds w'.shared.store ∧ C.evolves w.shared.store w'.shared.store ∧
      ∀ τ, C.grows τ → w.shared.store τ <+: w'.shared.store τ := by
  rcases h.commit_cases hs with hsame | ⟨t, σ, -, -, hmay, hstore, hgrown⟩ | ⟨c, hc, hstore⟩
  · rw [hsame]
    exact ⟨h.holds, hlaw.refl _, fun τ _ => List.prefix_refl _⟩
  · -- a commit, by the law for what the session may do
    have hpast : ∀ τ, ∀ r ∈ (L t).read τ, C.Past w.shared.store τ r := fun τ => h.past t τ
    have hgrown' := hgrown
    rw [hstore] at hgrown'
    obtain ⟨hholds, hevolves⟩ := hlaw.commits σ.request (L t) w.shared.store hmay h.holds hpast
      (h.minted.stored t) hgrown'
    rw [← hstore] at hholds hevolves
    exact ⟨hholds, hevolves, fun τ hτ => ⟨_, (hgrown τ hτ).symm⟩⟩
  · -- something else, by the law for what is outside
    have hrespects : Respects C.grows w.shared.store (supply w.shared.drawn).1 c :=
      hlaw.respects _ _ c hc
    have hgrown : ∀ τ, C.grows τ → w.shared.store τ <+: w.shared.store.apply c τ :=
      fun τ hτ => h.minted.prefix_outside hτ hrespects
    obtain ⟨hholds, hevolves⟩ := hlaw.others _ _ c hc h.holds hgrown
    rw [hstore]
    exact ⟨hholds, hevolves, hgrown⟩

/-- What has been read stays a row of the past, and what has been committed stays. -/
theorem Kept.carries (hlaw : C.Lawful outside) (h : C.Kept supply w L)
    {l : Label (storeSignature D) T ρ}
    (hs : World.Step (storeServer supply outside program) w l w') :
    (∀ t τ, ∀ r ∈ (L t).read τ, C.Past w'.shared.store τ r) ∧
      ∀ t τ, C.grows τ → ∀ r ∈ rowsIn τ (L t).committed, r ∈ w'.shared.store τ := by
  obtain ⟨-, hevolves, hgrown⟩ := h.evolves hlaw hs
  constructor
  · exact fun t τ r hr => (h.past t τ r hr).evolve hlaw hevolves
  · exact fun t τ hτ r hr => (hgrown τ hτ).subset (h.committed t τ hτ r hr)

/-- A session starts with an empty ledger. -/
theorem Kept.start (hprogram : ∀ q, (program q).Follows (C.protocol q) (fun _ _ => True) .empty)
    (h : C.Kept supply w L) {t : T} {q : ρ} (hidle : w.session t = none) :
    C.Kept supply (w.start (storeServer supply outside program) t q) L where
  holds := h.holds
  tx := h.tx
  follows u σ hσ := by
    rw [World.start_session] at hσ
    by_cases hut : u = t
    · subst hut
      rw [if_pos rfl] at hσ
      cases hσ
      rw [h.idle u hidle]
      exact hprogram q
    · rw [if_neg hut] at hσ
      exact h.follows u σ hσ
  idle u hu := by
    rw [World.start_session] at hu
    by_cases hut : u = t
    · rw [if_pos hut] at hu
      cases hu
    · rw [if_neg hut] at hu
      exact h.idle u hu
  past := h.past
  minted := h.minted
  committed := h.committed

/-- An answer is entered in the ledger of its session. -/
theorem Kept.call (hdistinct : Function.Injective fun n => (supply n).1) (hlaw : C.Lawful outside)
    (h : C.Kept supply w L) {t : T} {q : ρ} {s : Stmt D}
    {k : Except String s.Result → Prog (storeSignature D) ε α}
    {tr : List (Exchange (storeSignature D))} (hat : w.session t = some ⟨q, .call s k, tr⟩)
    {a : Except String s.Result}
    (ha : (storeServer supply outside program).possible t w.shared s a) :
    C.Kept supply (w.answered (storeServer supply outside program) t q (k a) tr s a)
      (Function.update L t ((L t).next s a)) := by
  have hstep : World.Step (storeServer supply outside program) w (.call t ⟨s, a⟩)
      (w.answered _ t q (k a) tr s a) :=
    .call a hat ha
  have hmay : C.may q (L t) s := h.may hat
  have hanswered : Answered w.shared.store (w.shared.tx t) (supply w.shared.drawn).1
      (supply w.shared.drawn).2 s a := ha
  rw [h.tx t] at hanswered
  obtain ⟨hholds, hevolves, -⟩ := h.evolves hlaw hstep
  obtain ⟨hpast, hcommitted⟩ := h.carries hlaw hstep
  constructor
  case holds => exact hholds
  case tx =>
    intro u
    show Function.update w.shared.tx t _ u = _
    by_cases hu : u = t
    · subst hu
      rw [Function.update_self, Function.update_self,
        Ledger.next_tx _ (hlaw.tells q _ s hmay) w.shared.store, h.tx u]
    · rw [Function.update_of_ne hu, Function.update_of_ne hu]
      exact h.tx u
  case follows =>
    intro u σ hσ
    rw [World.answered_session] at hσ
    by_cases hu : u = t
    · subst hu
      rw [if_pos rfl] at hσ
      cases hσ
      rw [Function.update_self]
      exact (h.follows u _ hat).2 a ⟨_, _, _, h.holds, fun τ => h.past u τ, hanswered⟩
    · rw [if_neg hu] at hσ
      rw [Function.update_of_ne hu]
      exact h.follows u σ hσ
  case idle =>
    intro u hu
    rw [World.answered_session] at hu
    by_cases hut : u = t
    · rw [if_pos hut] at hu
      cases hu
    · rw [if_neg hut] at hu
      rw [Function.update_of_ne hut]
      exact h.idle u hu
  case past =>
    intro u τ r hr
    by_cases hu : u = t
    · subst hu
      rw [Function.update_self] at hr
      -- what the statement has found are rows of the moment before it
      rcases Ledger.mem_learn hanswered hr with hr | hr
      · exact hpast u τ r hr
      · exact ⟨w.shared.store, h.holds, hr, hevolves⟩
    · rw [Function.update_of_ne hu] at hr
      exact hpast u τ r hr
  case minted =>
    apply h.minted.call hdistinct (hlaw.identifies q _ s hmay) (hlaw.spares q _ s hmay) ha
    · rw [Function.update_self]
      rfl
    · intro u hu
      rw [Function.update_of_ne hu]
  case committed =>
    intro u τ hτ r hr
    by_cases hu : u = t
    · subst hu
      rw [Function.update_self] at hr
      show r ∈ (w.shared.tx u).committed w.shared.store s a τ
      rcases List.mem_append.1 (rowsIn_append ▸ hr) with hr | hr
      · exact hcommitted u τ hτ r hr
      · -- the statement is the `COMMIT` of these rows
        have hput : r ∈ rowsIn τ ((w.shared.tx u).commits s a) := h.tx u ▸ hr
        exact h.minted.mem_committed hτ hput
    · rw [Function.update_of_ne hu] at hr
      exact hcommitted u τ hτ r hr

/-- The ledger of a session that dies is dropped. -/
theorem Kept.crash (h : C.Kept supply w L) (t : T) :
    C.Kept supply (w.crashed (storeServer supply outside program) t)
      (Function.update L t .empty) := by
  constructor
  case holds => exact h.holds
  case tx =>
    intro u
    show Function.update w.shared.tx t .idle u = _
    by_cases hu : u = t
    · subst hu
      rw [Function.update_self, Function.update_self]
      rfl
    · rw [Function.update_of_ne hu, Function.update_of_ne hu]
      exact h.tx u
  case follows =>
    intro u σ hσ
    rw [World.crashed_session] at hσ
    by_cases hu : u = t
    · rw [if_pos hu] at hσ
      cases hσ
    · rw [if_neg hu] at hσ
      rw [Function.update_of_ne hu]
      exact h.follows u σ hσ
  case idle =>
    intro u hu
    by_cases hut : u = t
    · subst hut
      rw [Function.update_self]
    · rw [World.crashed_session, if_neg hut] at hu
      rw [Function.update_of_ne hut]
      exact h.idle u hu
  case past =>
    intro u τ r hr
    by_cases hu : u = t
    · subst hu
      rw [Function.update_self] at hr
      exact absurd hr List.not_mem_nil
    · rw [Function.update_of_ne hu] at hr
      exact h.past u τ r hr
  case minted =>
    apply h.minted.crash
    · rw [Function.update_self]
      rfl
    · intro u hu
      rw [Function.update_of_ne hu]
  -- the ledger of the session is empty now, those of the others are as they were
  case committed =>
    intro u τ hτ r hr
    by_cases hu : u = t
    · subst hu
      rw [Function.update_self] at hr
      exact absurd hr List.not_mem_nil
    · rw [Function.update_of_ne hu] at hr
      exact h.committed u τ hτ r hr

/-- Every step keeps the sessions to the rules. -/
theorem Kept.step (hdistinct : Function.Injective fun n => (supply n).1) (hlaw : C.Lawful outside)
    (hprogram : ∀ q, (program q).Follows (C.protocol q) (fun _ _ => True) .empty)
    (h : C.Kept supply w L) {l : Label (storeSignature D) T ρ}
    (hs : World.Step (storeServer supply outside program) w l w') :
    ∃ L', C.Kept supply w' L' := by
  obtain ⟨hholds, -, -⟩ := h.evolves hlaw hs
  obtain ⟨hpast, hcommitted⟩ := h.carries hlaw hs
  cases hs with
  | start q hidle => exact ⟨L, h.start hprogram hidle⟩
  | call a hat ha => exact ⟨_, h.call hdistinct hlaw hat ha⟩
  | crash hat hrunning => exact ⟨_, h.crash _⟩
  | env hg =>
    obtain ⟨c, hc, rfl⟩ := hg
    exact ⟨L, hholds, h.tx, h.follows, h.idle, hpast,
      h.minted.outside hdistinct (hlaw.respects _ _ c hc), hcommitted⟩

/-- So does every run, which also changes the committed rows as it may. -/
theorem kept_run (hdistinct : Function.Injective fun n => (supply n).1) (hlaw : C.Lawful outside)
    (hprogram : ∀ q, (program q).Follows (C.protocol q) (fun _ _ => True) .empty) {db : Store D}
    (hdb : C.holds db) (hundrawn : ∀ τ, ∀ r ∈ db τ, ∀ n, D.id τ r ≠ (supply n).1)
    (hrun : Runs (World.Step (storeServer supply outside program)) anyStep
      (World.fresh (SharedStore.initial T db)) w) :
    C.evolves db w.shared.store ∧ ∃ L, C.Kept supply w L := by
  refine hrun.invariant (I := fun w => C.evolves db w.shared.store ∧ ∃ L, C.Kept supply w L) ?_
    ⟨hlaw.refl db, _, .initial hdb hundrawn⟩
  intro w l w' hw _ hs
  obtain ⟨hevolves, L, h⟩ := hw
  obtain ⟨-, hstep, -⟩ := h.evolves hlaw hs
  exact ⟨hlaw.trans _ _ _ hevolves hstep, h.step hdistinct hlaw hprogram hs⟩

end Runs

end Charter

end BookingPlatform.Library
