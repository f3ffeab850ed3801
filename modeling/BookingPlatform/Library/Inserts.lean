import BookingPlatform.Library.Integrity
import BookingPlatform.Library.Owners

/-!
# Rows that Transactions Insert

Transactions over one store whose inserts give a row the id that is drawn for it, and whose updates
keep ids. The rows that a transaction has inserted are nobody else's, and a table whose rows nobody
updates or deletes only grows: whoever commits appends its rows to those that are there.

## Main definitions

- `rowsIn`: the rows that changes put into a table.
- `Minted`: whose ids are whose.

## Main results

- `Minted.view`: a commit appends to a table that grows.
- `Minted.call`, `Minted.crash`, `Minted.outside`: what keeps the ids apart.
-/

namespace BookingPlatform.Library

variable {D : Schema}

/-! ## Rows that are put -/

section Rows

variable {τ : D.Table} {r : D.Row τ} {db : Store D} {cs ds : List (Change D)}

/-- The row that the change puts into a table. -/
def Change.rowIn (τ : D.Table) : Change D → Option (D.Row τ)
  | .put σ r => if h : σ = τ then some (h ▸ r) else none
  | .remove .. => none

theorem Change.rowIn_eq_some {c : Change D} : c.rowIn τ = some r ↔ c = .put τ r := by
  cases c with
  | put σ r' =>
    by_cases h : σ = τ
    · subst h
      simp [Change.rowIn]
    · simp only [Change.rowIn, dif_neg h]
      apply iff_of_false
      · simp
      · intro heq
        exact h (Change.put.inj heq).1
  | remove σ id => simp [Change.rowIn]

theorem Change.cases_of_table {c : Change D} (h : c.table = τ) :
    (∃ r, c = .put τ r) ∨ ∃ id, c = .remove τ id := by
  subst h
  cases c with
  | put σ r => exact .inl ⟨r, rfl⟩
  | remove σ id => exact .inr ⟨id, rfl⟩

/-- The rows that the changes put into a table, oldest first. -/
def rowsIn (τ : D.Table) (cs : List (Change D)) : List (D.Row τ) := cs.filterMap (Change.rowIn τ)

@[simp] theorem rowsIn_nil : rowsIn τ ([] : List (Change D)) = [] := rfl

@[simp] theorem rowsIn_append : rowsIn τ (cs ++ ds) = rowsIn τ cs ++ rowsIn τ ds :=
  List.filterMap_append

@[simp] theorem rowsIn_put_cons : rowsIn τ (.put τ r :: cs) = r :: rowsIn τ cs := by
  simp [rowsIn, Change.rowIn]

theorem rowsIn_cons_of_ne {c : Change D} (h : c.table ≠ τ) : rowsIn τ (c :: cs) = rowsIn τ cs := by
  have hnone : c.rowIn τ = none := by
    cases c with
    | put σ r' => exact dif_neg h
    | remove σ id => rfl
  exact List.filterMap_cons_none hnone

theorem mem_rowsIn : r ∈ rowsIn τ cs ↔ .put τ r ∈ cs := by
  simp [rowsIn, Change.rowIn_eq_some]

/-- Rows with ids that are new go after all others, in the order in which they are put. -/
theorem Store.applyAll_eq_append (hnew : ∀ r ∈ rowsIn τ cs, ∀ r' ∈ db τ, D.id τ r' ≠ D.id τ r)
    (hdistinct : ((rowsIn τ cs).map (D.id τ)).Nodup) (hkept : ∀ id, .remove τ id ∉ cs) :
    db.applyAll cs τ = db τ ++ rowsIn τ cs := by
  induction cs generalizing db with
  | nil => simp
  | cons c cs ih =>
    have hkept' : ∀ id, .remove τ id ∉ cs := fun id h => hkept id (List.mem_cons_of_mem c h)
    show (db.apply c).applyAll cs τ = db τ ++ rowsIn τ (c :: cs)
    by_cases hc : c.table = τ
    · obtain ⟨r, rfl⟩ : ∃ r, c = .put τ r := by
        rcases Change.cases_of_table hc with hput | ⟨id, rfl⟩
        · exact hput
        · exact absurd List.mem_cons_self (hkept id)
      rw [rowsIn_put_cons] at hnew hdistinct ⊢
      rw [List.map_cons, List.nodup_cons] at hdistinct
      have happly : db.apply (.put τ r) τ = db τ ++ [r] := by
        rw [Store.apply_put_self]
        exact upsert_of_fresh (hnew r List.mem_cons_self)
      have hnew' : ∀ x ∈ rowsIn τ cs, ∀ r' ∈ db.apply (.put τ r) τ, D.id τ r' ≠ D.id τ x := by
        intro x hx r' hr'
        rw [happly] at hr'
        rcases List.mem_append.1 hr' with hr' | hr'
        · exact hnew x (List.mem_cons_of_mem r hx) r' hr'
        · -- the row put first is not put again
          obtain rfl := List.mem_singleton.1 hr'
          intro heq
          exact hdistinct.1 (heq ▸ List.mem_map_of_mem hx)
      rw [ih hnew' hdistinct.2 hkept', happly]
      simp
    · have hsame : db.apply c τ = db τ := Store.apply_of_ne hc
      rw [rowsIn_cons_of_ne hc] at hnew hdistinct ⊢
      rw [← hsame] at hnew ⊢
      exact ih hnew hdistinct hkept'

/-- A row of a table from which nothing is removed keeps a row with its id. -/
theorem Store.exists_applyAll (hkept : ∀ id, .remove τ id ∉ cs) (hr : r ∈ db τ) :
    ∃ r' ∈ db.applyAll cs τ, D.id τ r' = D.id τ r ∧ (r' = r ∨ .put τ r' ∈ cs) := by
  induction cs generalizing db r with
  | nil => exact ⟨r, hr, rfl, .inl rfl⟩
  | cons c cs ih =>
    have hkept' : ∀ id, .remove τ id ∉ cs := fun id h => hkept id (List.mem_cons_of_mem c h)
    show ∃ r' ∈ (db.apply c).applyAll cs τ, _
    -- the first change puts a row with this id, or leaves the row alone
    have hfirst : ∃ r₁ ∈ db.apply c τ, D.id τ r₁ = D.id τ r ∧ (r₁ = r ∨ c = .put τ r₁) := by
      by_cases hc : c.table = τ
      · rcases Change.cases_of_table hc with ⟨x, rfl⟩ | ⟨id, rfl⟩
        · rw [Store.apply_put_self]
          by_cases hid : D.id τ r = D.id τ x
          · exact ⟨x, mem_upsert_self x (db τ), hid.symm, .inr rfl⟩
          · exact ⟨r, mem_upsert_of_ne hr hid, rfl, .inl rfl⟩
        · exact absurd List.mem_cons_self (hkept id)
      · rw [Store.apply_of_ne hc]
        exact ⟨r, hr, rfl, .inl rfl⟩
    -- the others do the same with the row that is there now
    obtain ⟨r₁, hr₁, hid₁, hfrom₁⟩ := hfirst
    obtain ⟨r', hr', hid', hfrom'⟩ := ih hkept' hr₁
    refine ⟨r', hr', hid'.trans hid₁, ?_⟩
    rcases hfrom' with rfl | hput
    · exact hfrom₁.imp_right fun hput => List.mem_cons.2 (.inl hput.symm)
    · exact .inr (List.mem_cons_of_mem c hput)

end Rows

/-! ## Inserted rows -/

/-- The ids of the rows that a statement with this answer has inserted. -/
def Stmt.inserted : (s : Stmt D) → Except String s.Result → List D.Id
  | .insert τ _, .ok r => [D.id τ r]
  | .insertIgnore τ _, .ok r => (r.map (D.id τ)).toList
  | _, _ => []

/-- The statement neither updates nor deletes rows of the table. -/
def Stmt.Spares (τ : D.Table) : Stmt D → Prop
  | .update σ _ _ => σ ≠ τ
  | .delete σ _ => σ ≠ τ
  | _ => True

section Writes

variable {τ : D.Table} {db : Store D} {tx : Tx D} {id : D.Id} {time : ℤ} {s : Stmt D}

theorem rowsIn_of_tables {cs : List (Change D)} (h : ∀ c ∈ cs, c.table ≠ τ) : rowsIn τ cs = [] := by
  induction cs with
  | nil => rfl
  | cons c cs ih =>
    rw [rowsIn_cons_of_ne (h c List.mem_cons_self)]
    exact ih fun c' hc' => h c' (List.mem_cons_of_mem c hc')

theorem Stmt.Identifies.keepsIds (hs : s.Identifies) (hrunning : s ≠ .commit) : s.KeepsIds := by
  cases s with
  | commit => exact absurd rfl hrunning
  | _ => exact hs

theorem mem_inserted (hs : s.Identifies) {a : Except String s.Result}
    (ha : Answered db tx id time s a) {i : D.Id} (hi : i ∈ s.inserted a) : i = id := by
  cases s with
  -- the row has the id that is drawn
  | insert σ mk =>
    cases a with
    | error code => exact absurd hi List.not_mem_nil
    | ok r =>
      obtain rfl := List.mem_singleton.1 hi
      exact hs id time r ha.insert
  | insertIgnore σ mk =>
    cases a with
    | error code => exact absurd hi List.not_mem_nil
    | ok v =>
      cases v with
      -- the row was in conflict: nothing is written
      | none => exact absurd hi List.not_mem_nil
      | some r =>
        obtain rfl := List.mem_singleton.1 hi
        rw [ha.insertIgnore]
        exact hs id time
  | _ => exact absurd hi List.not_mem_nil

/-- What is written into a table whose rows are spared has been inserted. -/
theorem rowsIn_writes (db : Store D) (hs : s.Spares τ) (v : s.Result) :
    rowsIn τ (db.writes s v) = [] ∨ ∃ r, rowsIn τ (db.writes s v) = [r] ∧
    D.id τ r ∈ s.inserted (.ok v) := by
  cases s with
  | insert σ mk =>
    by_cases hσ : σ = τ
    · subst hσ
      exact .inr ⟨v, by simp [Store.writes], List.mem_singleton.2 rfl⟩
    · apply Or.inl
      simp [Store.writes, rowsIn_cons_of_ne (c := .put σ v) hσ]
  | insertIgnore σ mk =>
    cases v with
    | none => exact .inl rfl
    | some r =>
      by_cases hσ : σ = τ
      · subst hσ
        exact .inr ⟨r, by simp [Store.writes], List.mem_singleton.2 rfl⟩
      · apply Or.inl
        simp [Store.writes, rowsIn_cons_of_ne (c := .put σ r) hσ]
  -- a table whose rows are spared is not updated, and nothing is deleted from it
  | update σ p set =>
    apply Or.inl
    apply rowsIn_of_tables
    intro c hc
    obtain ⟨r, -, rfl⟩ := List.mem_map.1 hc
    exact hs
  | delete σ p =>
    apply Or.inl
    apply rowsIn_of_tables
    intro c hc
    obtain ⟨r, -, rfl⟩ := List.mem_map.1 hc
    exact hs
  | _ => exact .inl rfl

theorem remove_notMem_writes (hs : s.Spares τ) (v : s.Result) (i : D.Id) :
    .remove τ i ∉ db.writes s v := by
  intro hmem
  cases s with
  | insert σ mk => simp [Store.writes] at hmem
  | insertIgnore σ mk => simp [Store.writes] at hmem
  | update σ p set => simp [Store.writes] at hmem
  | delete σ p =>
    obtain ⟨r, -, heq⟩ := List.mem_map.1 hmem
    exact hs (Change.remove.inj heq).1
  | _ => exact absurd hmem List.not_mem_nil

theorem remove_notMem_after (hs : s.Spares τ) (a : Except String s.Result) {i : D.Id}
    (h : .remove τ i ∉ tx.pending) : .remove τ i ∉ (tx.after db s a).pending := by
  intro hmem
  rcases pending_after db tx s a with ⟨n, htake⟩ | ⟨v, rfl, happend⟩
  · rw [htake] at hmem
    exact h (List.mem_of_mem_take hmem)
  · rw [happend] at hmem
    rcases List.mem_append.1 hmem with hmem | hmem
    · exact h hmem
    · exact remove_notMem_writes hs v i hmem

/-- A row that a transaction puts after a statement: it was put before, or it has the id that was
drawn, or the id of a row that the transaction sees. -/
theorem put_after_cases (hs : s.Identifies) {a : Except String s.Result}
    (ha : Answered db tx id time s a) {r : D.Row τ} (hr : .put τ r ∈ (tx.after db s a).pending) :
    .put τ r ∈ tx.pending ∨ D.id τ r = id ∨ ∃ r₀ ∈ tx.view db τ, D.id τ r = D.id τ r₀ := by
  rcases put_mem_after hr with hold | ⟨v, rfl, hnew⟩
  · exact .inl hold
  · have hrunning : s ≠ .commit := by
      rintro rfl
      exact absurd hnew List.not_mem_nil
    exact .inr (put_mem_writes (hs.keepsIds hrunning) ha.view_answer hnew)

end Writes

/-! ## Ids of one's own -/

section Minted

variable {T : Type} {grows : D.Table → Prop} {supply : ℕ → D.Id × ℤ} {g : SharedStore D T}
  {ids : T → List D.Id} {τ : D.Table}

/-- Ids that are still to be drawn are in no row, and those of the rows that a transaction has
inserted are in the rows of nobody else. A table that grows gets no other rows. -/
structure Minted (grows : D.Table → Prop) (supply : ℕ → D.Id × ℤ) (g : SharedStore D T)
    (ids : T → List D.Id) :
    Prop where
  undrawn : ∀ τ r, Dependencies.Present g τ r → ∀ n, g.drawn ≤ n → D.id τ r ≠ (supply n).1
  spent : ∀ t, ∀ i ∈ ids t, ∀ n, g.drawn ≤ n → i ≠ (supply n).1
  stored : ∀ t, ∀ i ∈ ids t, ∀ τ, ∀ r ∈ g.store τ, D.id τ r ≠ i
  foreign : ∀ t u, u ≠ t → ∀ i ∈ ids t, ∀ τ r, .put τ r ∈ (g.tx u).pending → D.id τ r ≠ i
  mine : ∀ τ, grows τ → ∀ t r, .put τ r ∈ (g.tx t).pending → D.id τ r ∈ ids t
  distinct : ∀ τ, grows τ → ∀ t, ((rowsIn τ (g.tx t).pending).map (D.id τ)).Nodup
  kept : ∀ τ, grows τ → ∀ t i, .remove τ i ∉ (g.tx t).pending

theorem Minted.initial {db : Store D} (hundrawn : ∀ τ, ∀ r ∈ db τ, ∀ n, D.id τ r ≠ (supply n).1) :
    Minted grows supply (SharedStore.initial T db) fun _ => [] where
  undrawn τ r hr n _ := by
    rcases hr with hr | ⟨t, hput⟩
    · exact hundrawn τ r hr n
    · exact absurd hput List.not_mem_nil
  spent t i hi := absurd hi List.not_mem_nil
  stored t i hi := absurd hi List.not_mem_nil
  foreign t u _ i hi := absurd hi List.not_mem_nil
  mine τ _ t r hr := absurd hr List.not_mem_nil
  distinct τ _ t := List.nodup_nil
  kept τ _ t i := List.not_mem_nil

/-- A transaction that commits appends its rows to a table that grows. -/
theorem Minted.view (h : Minted grows supply g ids) (hτ : grows τ) (t : T) :
    (g.tx t).view g.store τ = g.store τ ++ rowsIn τ (g.tx t).pending := by
  apply Store.applyAll_eq_append
  · intro r hr r' hr'
    exact h.stored t _ (h.mine τ hτ t r (mem_rowsIn.1 hr)) τ r' hr'
  · exact h.distinct τ hτ t
  · exact h.kept τ hτ t

/-- A row that the transaction sees does not have an id that is still to be drawn. -/
theorem Minted.undrawn_view (h : Minted grows supply g ids) {t : T} {r : D.Row τ}
    (hr : r ∈ (g.tx t).view g.store τ) {n : ℕ} (hn : g.drawn ≤ n) : D.id τ r ≠ (supply n).1 :=
  h.undrawn τ r (.view hr) n hn

section Steps

variable {ids' : T → List D.Id} {t : T} {s : Stmt D} {a : Except String s.Result}

/-- The ids that a transaction has inserted, after a statement. -/
def insertedAfter (ids : List D.Id) (s : Stmt D) (a : Except String s.Result) : List D.Id :=
  match s with
  | .commit => []
  | .rollback => []
  | s => ids ++ s.inserted a

theorem mem_insertedAfter {is : List D.Id} {i : D.Id} (hi : i ∈ insertedAfter is s a) :
    s ≠ .commit ∧ (i ∈ is ∨ i ∈ s.inserted a) := by
  cases s with
  | commit => exact absurd hi List.not_mem_nil
  | rollback => exact absurd hi List.not_mem_nil
  | _ => exact ⟨by simp, List.mem_append.1 hi⟩

/-- What a transaction puts into a table that grows has an id that it has inserted. -/
theorem Minted.mine_after (h : Minted grows supply g ids) (hτ : grows τ) (hspares : s.Spares τ)
    {r : D.Row τ} (hr : .put τ r ∈ ((g.tx t).after g.store s a).pending) :
    D.id τ r ∈ insertedAfter (ids t) s a := by
  -- the row was put before, or by this statement
  rcases put_mem_after hr with hold | ⟨v, rfl, hnew⟩
  · have hmine := h.mine τ hτ t r hold
    cases s with
    | commit => exact absurd hr List.not_mem_nil
    | rollback => exact absurd hr List.not_mem_nil
    | _ => exact List.mem_append_left _ hmine
  · rcases rowsIn_writes ((g.tx t).view g.store) hspares v with hnone | ⟨x, hone, hid⟩
    · rw [← mem_rowsIn, hnone] at hnew
      exact absurd hnew List.not_mem_nil
    · rw [← mem_rowsIn, hone] at hnew
      obtain rfl := List.mem_singleton.1 hnew
      cases s with
      | commit => exact absurd hid List.not_mem_nil
      | rollback => exact absurd hid List.not_mem_nil
      | _ => exact List.mem_append_right _ hid

theorem Minted.distinct_after (h : Minted grows supply g ids) (hτ : grows τ) (hs : s.Identifies)
    (hspares : s.Spares τ)
    (ha : Answered g.store (g.tx t) (supply g.drawn).1 (supply g.drawn).2 s a) :
    ((rowsIn τ ((g.tx t).after g.store s a).pending).map (D.id τ)).Nodup := by
  rcases pending_after g.store (g.tx t) s a with ⟨n, htake⟩ | ⟨v, rfl, happend⟩
  · rw [htake]
    have hsub : (rowsIn τ ((g.tx t).pending.take n)).Sublist (rowsIn τ (g.tx t).pending) :=
      (List.take_sublist n _).filterMap _
    exact (h.distinct τ hτ t).sublist (hsub.map _)
  · rw [happend, rowsIn_append]
    rcases rowsIn_writes ((g.tx t).view g.store) hspares v with hnone | ⟨x, hone, hid⟩
    · rw [hnone, List.append_nil]
      exact h.distinct τ hτ t
    · rw [hone, List.map_append]
      apply List.Nodup.append (h.distinct τ hτ t) (List.nodup_singleton _)
      intro i hi hx
      obtain ⟨r, hr, rfl⟩ := List.mem_map.1 hi
      -- the new row has the id that was drawn, and no other row has
      have hdrawn : D.id τ x = (supply g.drawn).1 := mem_inserted hs ha hid
      rw [List.mem_singleton, hdrawn] at hx
      exact h.undrawn τ r (.inr ⟨t, mem_rowsIn.1 hr⟩) g.drawn (Nat.le_refl _) hx

variable [DecidableEq T]

/-- A statement that gives the rows it inserts the id that is drawn, and keeps the ids of others. -/
theorem Minted.call (hdistinct : Function.Injective fun n => (supply n).1)
    (h : Minted grows supply g ids) (hs : s.Identifies) (hspares : ∀ τ, grows τ → s.Spares τ)
    (ha : Answered g.store (g.tx t) (supply g.drawn).1 (supply g.drawn).2 s a)
    (hself : ids' t = insertedAfter (ids t) s a) (hframe : ∀ u, u ≠ t → ids' u = ids u) :
    Minted grows supply ⟨(g.tx t).committed g.store s a,
      Function.update g.tx t ((g.tx t).after g.store s a), g.drawn + 1⟩ ids' := by
  have hlater : ∀ n, g.drawn + 1 ≤ n → (supply g.drawn).1 ≠ (supply n).1 := by
    intro n hn heq
    exact absurd (hdistinct heq) (Nat.ne_of_lt hn)
  have hfresh : ∀ τ r, Dependencies.Present g τ r → D.id τ r ≠ (supply g.drawn).1 :=
    fun τ r hr => h.undrawn τ r hr g.drawn (Nat.le_refl _)
  -- the committed rows are those from before, or the ones that the transaction sees
  have hstore : ∀ τ, ∀ r ∈ (g.tx t).committed g.store s a τ,
      r ∈ g.store τ ∨ .put τ r ∈ (g.tx t).pending ∧ s = .commit := by
    intro τ r hr
    rcases committed_cases g.store (g.tx t) s a with hkept | ⟨hview, hcommit⟩
    · exact .inl (hkept ▸ hr)
    · rw [hview] at hr
      exact (Store.mem_applyAll hr).imp_right fun hput => ⟨hput, hcommit⟩
  have hpending : ∀ u τ r,
    .put τ r ∈ (Function.update g.tx t ((g.tx t).after g.store s a) u).pending →
      .put τ r ∈ (g.tx u).pending ∨
        u = t ∧ (D.id τ r = (supply g.drawn).1 ∨ ∃ r₀ ∈ (g.tx t).view g.store τ,
          D.id τ r = D.id τ r₀) := by
    intro u τ r hr
    by_cases hu : u = t
    · subst hu
      rw [Function.update_self] at hr
      exact (put_after_cases hs ha hr).imp_right fun hid => ⟨rfl, hid⟩
    · rw [Function.update_of_ne hu] at hr
      exact .inl hr
  have hids : ∀ u, ∀ i ∈ ids' u,
      i ∈ ids u ∧ (u = t → s ≠ .commit) ∨ u = t ∧ i = (supply g.drawn).1 ∧ s ≠ .commit := by
    intro u i hi
    by_cases hu : u = t
    · subst hu
      rw [hself] at hi
      obtain ⟨hrunning, hi | hi⟩ := mem_insertedAfter hi
      · exact .inl ⟨hi, fun _ => hrunning⟩
      · exact .inr ⟨rfl, mem_inserted hs ha hi, hrunning⟩
    · rw [hframe u hu] at hi
      exact .inl ⟨hi, fun heq => absurd heq hu⟩
  constructor
  case undrawn =>
    intro τ r hr n hn
    have hn' : g.drawn ≤ n := Nat.le_of_succ_le hn
    rcases hr with hr | ⟨u, hput⟩
    · rcases hstore τ r hr with hr | ⟨hput, -⟩
      · exact h.undrawn τ r (.inl hr) n hn'
      · exact h.undrawn τ r (.inr ⟨t, hput⟩) n hn'
    · rcases hpending u τ r hput with hput | ⟨rfl, hid | ⟨r₀, hr₀, hid⟩⟩
      · exact h.undrawn τ r (.inr ⟨u, hput⟩) n hn'
      · rw [hid]
        exact hlater n hn
      · rw [hid]
        exact h.undrawn_view hr₀ hn'
  case spent =>
    intro u i hi n hn
    rcases hids u i hi with ⟨hi, -⟩ | ⟨-, rfl, -⟩
    · exact h.spent u i hi n (Nat.le_of_succ_le hn)
    · exact hlater n hn
  case stored =>
    intro u i hi τ r hr
    rcases hids u i hi with ⟨hi, hrunning⟩ | ⟨rfl, rfl, hrunning⟩
    · rcases hstore τ r hr with hr | ⟨hput, hcommit⟩
      · exact h.stored u i hi τ r hr
      · exact h.foreign u t (fun heq => hrunning heq.symm hcommit) i hi τ r hput
    · rcases hstore τ r hr with hr | ⟨-, hcommit⟩
      · exact hfresh τ r (.inl hr)
      · exact absurd hcommit hrunning
  case foreign =>
    intro u u' hne i hi τ r hput
    rcases hpending u' τ r hput with hput | ⟨rfl, hid⟩
    · rcases hids u i hi with ⟨hi, -⟩ | ⟨-, rfl, -⟩
      · exact h.foreign u u' hne i hi τ r hput
      · exact hfresh τ r (.inr ⟨u', hput⟩)
    · -- the transaction that has put the row is not the one that has inserted the id
      rcases hids u i hi with ⟨hi, -⟩ | ⟨rfl, -, -⟩
      · rcases hid with hid | ⟨r₀, hr₀, hid⟩
        · rw [hid]
          exact fun heq => h.spent u i hi g.drawn (Nat.le_refl _) heq.symm
        · rw [hid]
          rcases Store.mem_applyAll hr₀ with hr₀ | hput₀
          · exact h.stored u i hi τ r₀ hr₀
          · exact h.foreign u u' hne i hi τ r₀ hput₀
      · exact absurd rfl hne
  case mine =>
    intro τ hτ u r hput
    dsimp only at hput
    by_cases hu : u = t
    · subst hu
      rw [Function.update_self] at hput
      rw [hself]
      exact h.mine_after hτ (hspares τ hτ) hput
    · rw [Function.update_of_ne hu] at hput
      rw [hframe u hu]
      exact h.mine τ hτ u r hput
  case distinct =>
    intro τ hτ u
    dsimp only
    by_cases hu : u = t
    · subst hu
      rw [Function.update_self]
      exact h.distinct_after hτ hs (hspares τ hτ) ha
    · rw [Function.update_of_ne hu]
      exact h.distinct τ hτ u
  case kept =>
    intro τ hτ u i
    dsimp only
    by_cases hu : u = t
    · subst hu
      rw [Function.update_self]
      exact remove_notMem_after (hspares τ hτ) a (h.kept τ hτ u i)
    · rw [Function.update_of_ne hu]
      exact h.kept τ hτ u i

/-- A session that dies inserts nothing. -/
theorem Minted.crash (h : Minted grows supply g ids) (hself : ids' t = [])
    (hframe : ∀ u, u ≠ t → ids' u = ids u) :
    Minted grows supply { g with tx := Function.update g.tx t .idle } ids' := by
  -- the changes of the session are gone, and so are the ids that it had inserted
  have hput : ∀ u, ∀ c ∈ (Function.update g.tx t .idle u).pending, u ≠ t ∧
      c ∈ (g.tx u).pending := by
    intro u c hc
    by_cases hu : u = t
    · subst hu
      rw [Function.update_self] at hc
      exact absurd hc List.not_mem_nil
    · rw [Function.update_of_ne hu] at hc
      exact ⟨hu, hc⟩
  have hids : ∀ u, ∀ i ∈ ids' u, i ∈ ids u := by
    intro u i hi
    by_cases hu : u = t
    · subst hu
      rw [hself] at hi
      exact absurd hi List.not_mem_nil
    · exact hframe u hu ▸ hi
  constructor
  case undrawn =>
    intro τ r hr n hn
    rcases hr with hr | ⟨u, hr⟩
    · exact h.undrawn τ r (.inl hr) n hn
    · exact h.undrawn τ r (.inr ⟨u, (hput u _ hr).2⟩) n hn
  case spent => exact fun u i hi => h.spent u i (hids u i hi)
  case stored => exact fun u i hi => h.stored u i (hids u i hi)
  case foreign =>
    exact fun u u' hne i hi τ r hr => h.foreign u u' hne i (hids u i hi) τ r (hput u' _ hr).2
  case mine =>
    intro τ hτ u r hr
    obtain ⟨hu, hr⟩ := hput u _ hr
    rw [hframe u hu]
    exact h.mine τ hτ u r hr
  case distinct =>
    intro τ hτ u
    dsimp only
    by_cases hu : u = t
    · subst hu
      rw [Function.update_self]
      exact List.nodup_nil
    · rw [Function.update_of_ne hu]
      exact h.distinct τ hτ u
  case kept => exact fun τ hτ u i hi => h.kept τ hτ u i (hput u _ hi).2

end Steps

/-- What something else may commit: a new row, or in a table that need not grow one in the place of
another, or its removal. -/
def Respects (grows : D.Table → Prop) (db : Store D) (id : D.Id) : Change D → Prop
  | .put τ r => D.id τ r = id ∨ ¬grows τ ∧ ∃ r₀ ∈ db τ, D.id τ r = D.id τ r₀
  | .remove τ _ => ¬grows τ

theorem Minted.outside (hdistinct : Function.Injective fun n => (supply n).1)
    (h : Minted grows supply g ids) {c : Change D}
    (hc : Respects grows g.store (supply g.drawn).1 c) :
    Minted grows supply ⟨g.store.apply c, g.tx, g.drawn + 1⟩ ids := by
  -- a row from outside has the id that is drawn, or the id of a row that is there
  have hrow : ∀ τ r, r ∈ g.store.apply c τ → r ∈ g.store τ ∨ D.id τ r = (supply g.drawn).1 ∨
      ∃ r₀ ∈ g.store τ, D.id τ r = D.id τ r₀ := by
    intro τ r hr
    rcases Store.mem_apply hr with hr | rfl
    · exact .inl hr
    · exact .inr (hc.imp_right And.right)
  constructor
  case undrawn =>
    intro τ r hr n hn
    have hn' : g.drawn ≤ n := Nat.le_of_succ_le hn
    -- what has not been drawn yet is none of these ids
    rcases hr with hr | hput
    · rcases hrow τ r hr with hr | hid | ⟨r₀, hr₀, hid⟩
      · exact h.undrawn τ r (.inl hr) n hn'
      · rw [hid]
        exact fun heq => absurd (hdistinct heq) (Nat.ne_of_lt hn)
      · rw [hid]
        exact h.undrawn τ r₀ (.inl hr₀) n hn'
    · exact h.undrawn τ r (.inr hput) n hn'
  case spent => exact fun u i hi n hn => h.spent u i hi n (Nat.le_of_succ_le hn)
  case stored =>
    intro u i hi τ r hr
    rcases hrow τ r hr with hr | hid | ⟨r₀, hr₀, hid⟩
    · exact h.stored u i hi τ r hr
    · rw [hid]
      exact fun heq => h.spent u i hi g.drawn (Nat.le_refl _) heq.symm
    · rw [hid]
      exact h.stored u i hi τ r₀ hr₀
  case foreign => exact h.foreign
  case mine => exact h.mine
  case distinct => exact h.distinct
  case kept => exact h.kept

/-- Such a change appends to a table that grows, or leaves it as it is. -/
theorem Minted.prefix_outside (h : Minted grows supply g ids) (hτ : grows τ) {c : Change D}
    (hc : Respects grows g.store (supply g.drawn).1 c) : g.store τ <+: g.store.apply c τ := by
  by_cases htable : c.table = τ
  · rcases Change.cases_of_table htable with ⟨r, rfl⟩ | ⟨id, rfl⟩
    · rcases hc with hid | ⟨hnot, -⟩
      · -- the id is new, so that the row is added at the end
        refine ⟨[r], ?_⟩
        rw [Store.apply_put_self]
        apply Eq.symm
        apply upsert_of_fresh
        intro r' hr'
        rw [hid]
        exact h.undrawn τ r' (.inl hr') g.drawn (Nat.le_refl _)
      · exact absurd hτ hnot
    · exact absurd hτ hc
  · refine ⟨[], ?_⟩
    rw [List.append_nil, Store.apply_of_ne htable]

end Minted

end BookingPlatform.Library
