import BookingPlatform.Library.Confinement
import BookingPlatform.Library.StoreServer

/-!
# One Store for Many Owners

Sessions over one store, each of them for an owner. Some tables are guarded: their rows have one
owner each. The rows of the other tables are everybody's, and nobody writes them. If every session
is confined to the rows of its owner, then an owner cannot tell the store from one of its own:
whatever the other sessions do, and wherever their statements come in between, the sessions of the
owner get the answers that they would get alone.

The owner still notices that time passes, and that ids have been drawn.

## Main definitions

- `Owners`: who may see which rows.
- `Owners.Alone`: a world that has only the sessions and the rows of one owner.

## Main results

- `Owners.alone_of_run`: for every run there is one of each owner alone.
- `Owners.Held.ownRows_call`: a session changes no rows of another owner.
-/

namespace BookingPlatform.Library

variable {D : Schema}

/-! ## Changes -/

/-- The table that is written. -/
def Change.table : Change D → D.Table
  | .put τ _ => τ
  | .remove τ _ => τ

section Changes

variable {db : Store D} {τ : D.Table}

theorem Store.apply_of_ne {c : Change D} (h : c.table ≠ τ) : db.apply c τ = db τ := by
  cases c with
  | put σ r => exact Store.apply_put_of_ne _ _ (Ne.symm h)
  | remove σ id => exact Function.update_of_ne (Ne.symm h) _ _

theorem Store.applyAll_of_ne {cs : List (Change D)} (h : ∀ c ∈ cs, c.table ≠ τ) :
    db.applyAll cs τ = db τ := by
  induction cs generalizing db with
  | nil => rfl
  | cons c cs ih =>
    have hrest : (db.apply c).applyAll cs τ = db.apply c τ := ih fun c' hc' =>
      h c' (List.mem_cons_of_mem c hc')
    exact hrest.trans (Store.apply_of_ne (h c List.mem_cons_self))

theorem keyed_upsert {r : D.Row τ} {rows : List (D.Row τ)} (h : (rows.map (D.id τ)).Nodup) :
    ((upsert r rows).map (D.id τ)).Nodup := by
  induction rows with
  | nil => simp [upsert]
  | cons x rows ih =>
    obtain ⟨hx, hrows⟩ := List.nodup_cons.1 (List.map_cons ▸ h)
    by_cases hid : D.id τ x = D.id τ r
    · simp only [upsert, hid, if_true, List.map_cons]
      exact List.nodup_cons.2 ⟨hid ▸ hx, hrows⟩
    · simp only [upsert, hid, if_false, List.map_cons]
      refine List.nodup_cons.2 ⟨fun hmem => ?_, ih hrows⟩
      obtain ⟨y, hy, hyx⟩ := List.mem_map.1 hmem
      rcases mem_upsert hy with rfl | hy
      · exact hid hyx.symm
      · exact hx (List.mem_map.2 ⟨y, hy, hyx⟩)

theorem Store.Keyed.apply {c : Change D} (h : db.Keyed) : (db.apply c).Keyed := by
  intro σ
  by_cases hσ : c.table = σ
  · cases c with
    | put τ r =>
      obtain rfl : τ = σ := hσ
      rw [Store.apply_put_self]
      exact keyed_upsert (h τ)
    -- a part of the rows has no more ids than the whole
    | remove τ id =>
      obtain rfl : τ = σ := hσ
      have hrows : db.apply (.remove τ id) τ = (db τ).filter fun r => D.id τ r ≠ id :=
        Function.update_self _ _ _
      rw [hrows]
      exact (h τ).sublist (List.filter_sublist.map _)
  · rw [Store.apply_of_ne hσ]
    exact h σ

theorem Store.Keyed.applyAll {cs : List (Change D)} (h : db.Keyed) : (db.applyAll cs).Keyed := by
  induction cs generalizing db with
  | nil => exact h
  | cons c cs ih => exact ih h.apply

end Changes

/-! ## Owners -/

/-- Who may see which rows. A row of a guarded table is seen by one owner at most, a row of another
table by all of them. Sound rows of different owners do not conflict. -/
structure Owners (D : Schema) (O : Type) where
  own : O → (τ : D.Table) → D.Row τ → Bool
  sound : (τ : D.Table) → D.Row τ → Prop
  guarded : D.Table → Bool
  apart : ∀ o {τ : D.Table} {r f : D.Row τ}, own o τ r = true → own o τ f = false →
    sound τ r → sound τ f →
    D.id τ f ≠ D.id τ r → D.conflict τ f r = none
  open_own : ∀ {τ : D.Table}, guarded τ = false → ∀ o r, own o τ r = true
  owner_unique : ∀ {τ : D.Table}, guarded τ = true → ∀ {o o' : O} {r : D.Row τ}, own o τ r = true →
    own o' τ r = true → o = o'

/-- The statement writes guarded tables only. -/
def Stmt.WritesIn (guarded : D.Table → Bool) : Stmt D → Prop
  | .insert τ _ | .insertIgnore τ _ => guarded τ = true
  | .update τ p _ | .delete τ p => guarded τ = true ∨ ∀ r, p r = false
  | _ => True

/-- What a statement writes is in the tables in which it may write. -/
theorem guarded_of_writes {guarded : D.Table → Bool} {db : Store D} {id : D.Id} {time : ℤ}
    {s : Stmt D} (hs : s.WritesIn guarded) {v : s.Result} (hv : db.answer id time s = .ok v)
    {c : Change D} (hc : c ∈ db.writes s v) : guarded c.table = true := by
  cases s with
  | insert τ row =>
    obtain rfl := List.mem_singleton.1 hc
    exact hs
  | insertIgnore τ row =>
    obtain ⟨r, -, rfl⟩ := List.mem_map.1 hc
    exact hs
  | update τ p set =>
    obtain ⟨r', hr', rfl⟩ := List.mem_map.1 hc
    -- an update of a table that is not guarded matches no row
    rcases hs with hτ | hnone
    · exact hτ
    · obtain ⟨r, hr, -⟩ := mem_setRows hv hr'
      cases (hnone r).symm.trans (List.mem_filter.1 hr).2
  | delete τ p =>
    obtain ⟨r, hr, rfl⟩ := List.mem_map.1 hc
    rcases hs with hτ | hnone
    · exact hτ
    · cases (hnone r).symm.trans (List.mem_filter.1 hr).2
  | _ => exact absurd hc List.not_mem_nil

/-- The id is in a row that the transaction has written, or its program knows it. -/
def Touched (tx : Tx D) (ph : Domain.Ids D) (τ : D.Table) (id : D.Id) : Prop :=
  (∃ r, .put τ r ∈ tx.pending ∧ D.id τ r = id) ∨ .remove τ id ∈ tx.pending ∨ id ∈ ph τ

theorem not_touched_idle {τ : D.Table} {id : D.Id} : ¬Touched (.idle : Tx D) (fun _ => ∅) τ id := by
  rintro (⟨r, hr, -⟩ | hremove | hid)
  · cases hr
  · cases hremove
  · exact hid

namespace Owners

variable {O : Type} (Y : Owners D O)

/-- The rows of an owner. -/
def dom (o : O) : Domain D := ⟨Y.own o, Y.sound, Y.apart o⟩

/-- A transaction that concerns no rows of others. -/
structure Holds (o : O) (db : Store D) (tx : Tx D) (ph : Domain.Ids D) : Prop where
  put : ∀ τ r, .put τ r ∈ tx.pending → Y.own o τ r = true ∧ Y.sound τ r
  guarded : ∀ c ∈ tx.pending, Y.guarded c.table = true
  spare : ∀ τ id, Touched tx ph τ id → (Y.dom o).Spare db τ id

variable {Y} {o p : O} {db : Store D} {tx : Tx D} {ph : Domain.Ids D} {τ : D.Table} {id : D.Id}
  {time : ℤ}

/-- Tables that are not guarded have no rows of others. -/
theorem spare_of_open (h : Y.guarded τ = false) : (Y.dom o).Spare db τ id := by
  intro f _ hforeign
  cases (Y.open_own h o f).symm.trans hforeign

/-- A row of one owner is foreign to another. -/
theorem foreign_of_own (hτ : Y.guarded τ = true) (hne : p ≠ o) {r : D.Row τ}
    (hr : Y.own o τ r = true) :
    Y.own p τ r = false := by
  by_contra hown
  exact hne (Y.owner_unique hτ (Bool.not_eq_false _ ▸ hown) hr)

theorem Holds.within (h : Y.Holds o db tx ph) : ∀ c ∈ tx.pending, (Y.dom o).Within db c := by
  intro c hc
  cases c with
  | put τ r =>
    obtain ⟨hown, hsound⟩ := h.put τ r hc
    exact ⟨hown, hsound, h.spare τ _ (.inl ⟨r, hc, rfl⟩)⟩
  | remove τ id => exact h.spare τ id (.inr (.inl hc))

theorem Holds.known (h : Y.Holds o db tx ph) : (Y.dom o).Known db ph := fun τ id hid =>
  h.spare τ id (.inr (.inr hid))

theorem holds_idle : Y.Holds o db .idle fun _ => ∅ :=
  ⟨fun _ _ hr => absurd hr List.not_mem_nil, fun _ hc => absurd hc List.not_mem_nil,
    fun _ _ h => absurd h not_touched_idle⟩

/-- It stays so when the rows with the ids that it touches stay. -/
theorem Holds.congr {db' : Store D} (h : Y.Holds o db tx ph)
    (hnew : ∀ τ, ∀ f ∈ db' τ, Y.own o τ f = false → f ∈ db τ ∨ ¬Touched tx ph τ (D.id τ f)) :
    Y.Holds o db' tx ph := by
  refine ⟨h.put, h.guarded, fun τ id hid f hf hforeign heq => ?_⟩
  rcases hnew τ f hf hforeign with hold | huntouched
  · exact h.spare τ id hid f hold hforeign heq
  · exact huntouched (heq ▸ hid)

/-! ## One statement -/

/-- The rows that a transaction sees are those of the store, and the ones that it has put. -/
theorem mem_view {r : D.Row τ} (h : r ∈ tx.view db τ) : r ∈ db τ ∨ .put τ r ∈ tx.pending :=
  Store.mem_applyAll h

/-- An allowed statement writes a row with the id that is drawn, or rows of the owner that are
there. -/
theorem id_of_writes (hseparate : (Y.dom o).Separate db) (hknown : (Y.dom o).Known db ph)
    {s : Stmt D} (hallows : (Y.dom o).Allows ph s) {v : s.Result} (hv : db.answer id time s = .ok v)
    {c : Change D} (hc : c ∈ db.writes s v) {i : D.Id}
    (hi : (∃ r, c = .put τ r ∧ D.id τ r = i) ∨ c = .remove τ i) :
    i = id ∨ ∃ r ∈ db τ, Y.own o τ r = true ∧ D.id τ r = i := by
  cases s with
  -- the row that is inserted has the id that is drawn
  | insert σ row =>
    obtain rfl := List.mem_singleton.1 hc
    rcases hi with ⟨r, heq, hid⟩ | heq
    · cases heq
      cases hrow : row id time with
      | error code => simp only [Store.answer, hrow, reduceCtorEq] at hv
      | ok r' =>
        cases hrefusal : refusal (db τ) r' with
        | some code => simp only [Store.answer, hrow, hrefusal, reduceCtorEq] at hv
        | none =>
          simp only [Store.answer, hrow, hrefusal, Except.ok.injEq] at hv
          subst hv
          exact .inl (hid.symm.trans (hallows id time r' hrow).1)
    · cases heq
  | insertIgnore σ row =>
    obtain ⟨r', hr', rfl⟩ := List.mem_map.1 hc
    obtain rfl : v = some r' := Option.mem_toList.1 hr'
    rcases hi with ⟨r, heq, hid⟩ | heq
    · cases heq
      cases hrefusal : refusal (db τ) (row id time) with
      | some code => simp [Store.answer, hrefusal] at hv
      | none =>
        simp only [Store.answer, hrefusal, Except.ok.injEq, Option.some.injEq] at hv
        subst hv
        exact .inl (hid.symm.trans (hallows id time).1)
    · cases heq
  -- an update keeps the ids of the rows it finds, and these are the owner's
  | update σ q set =>
    obtain ⟨r', hr', rfl⟩ := List.mem_map.1 hc
    rcases hi with ⟨r, heq, hid⟩ | heq
    · cases heq
      obtain ⟨r₀, hr₀, hset⟩ := mem_setRows hv hr'
      obtain ⟨hr₀, hp⟩ := List.mem_filter.1 hr₀
      exact .inr ⟨r₀, hr₀, hallows.1.own hseparate hknown r₀ hr₀ hp,
        (hallows.2 time r₀ r hset).1.symm.trans hid⟩
    · cases heq
  | delete σ q =>
    obtain ⟨r₀, hr₀, rfl⟩ := List.mem_map.1 hc
    rcases hi with ⟨r, heq, -⟩ | heq
    · cases heq
    · cases heq
      obtain ⟨hr₀, hp⟩ := List.mem_filter.1 hr₀
      exact .inr ⟨r₀, hr₀, Domain.Finds.own hallows hseparate hknown r₀ hr₀ hp, rfl⟩
  | _ => exact absurd hc List.not_mem_nil

/-- The ids that become known are of such rows, too. -/
theorem id_of_nextIds (hseparate : (Y.dom o).Separate db) (hknown : (Y.dom o).Known db ph)
    {s : Stmt D} (hallows : (Y.dom o).Allows ph s) {a : Except String s.Result}
    (ha : ∀ v, a = .ok v → db.answer id time s = .ok v) {i : D.Id}
    (hi : i ∈ Domain.nextIds ph s a τ) :
    i ∈ ph τ ∨ i = id ∨ ∃ r ∈ db τ, Y.own o τ r = true ∧ D.id τ r = i := by
  cases a with
  | error code => cases s <;> exact .inl hi
  | ok v =>
    have hv := ha v rfl
    cases s with
    -- the ids that are found are those of the owner's rows
    | select σ q =>
      obtain rfl := Except.ok.inj hv
      rcases Domain.mem_update_union.1 hi with hi | ⟨rfl, r, hr, hid⟩
      · exact .inl hi
      · obtain ⟨hr, hp⟩ := List.mem_filter.1 hr
        exact .inr (.inr ⟨r, hr, Domain.Finds.own hallows hseparate hknown r hr hp, hid⟩)
    | insertIgnore σ row =>
      cases v with
      | none => exact .inl hi
      | some r =>
        rcases Domain.mem_update_union.1 hi with hi | ⟨rfl, hid⟩
        · exact .inl hi
        · have hwrites : Change.put τ r ∈ db.writes (.insertIgnore τ row) (some r) :=
            List.mem_singleton.2 rfl
          exact .inr (id_of_writes hseparate hknown hallows hv hwrites (.inl ⟨r, rfl, Eq.symm hid⟩))
    | _ => exact .inl hi

theorem mem_committed {s : Stmt D} {a : Except String s.Result} {r : D.Row τ}
    (h : r ∈ tx.committed db s a τ) :
    r ∈ db τ ∨ .put τ r ∈ tx.pending := by
  rcases committed_cases db tx s a with hstore | ⟨hstore, -⟩
  · exact .inl (hstore ▸ h)
  · exact mem_view (hstore ▸ h)

theorem guarded_after {s : Stmt D} (hs : s.WritesIn Y.guarded) {a : Except String s.Result}
    (ha : Answered db tx id time s a) (hpending : ∀ c ∈ tx.pending, Y.guarded c.table = true) :
    ∀ c ∈ (tx.after db s a).pending, Y.guarded c.table = true := by
  intro c hc
  rcases pending_after db tx s a with ⟨n, htake⟩ | ⟨v, rfl, happend⟩
  · exact hpending c (List.mem_of_mem_take (htake ▸ hc))
  · rcases List.mem_append.1 (happend ▸ hc) with hc | hc
    · exact hpending c hc
    · exact guarded_of_writes hs ha.view_answer hc

/-- A statement touches the id that is drawn, and ids of rows of the owner. -/
theorem touched_after (hseparate : (Y.dom o).Separate (tx.view db))
    (hknown : (Y.dom o).Known (tx.view db) ph) {s : Stmt D} (hallows : (Y.dom o).Allows ph s)
    {a : Except String s.Result} (ha : Answered db tx id time s a) {i : D.Id}
    (h : Touched (tx.after db s a) (Domain.nextIds ph s a) τ i) :
    Touched tx ph τ i ∨ i = id ∨ ∃ r ∈ db τ, Y.own o τ r = true ∧ D.id τ r = i := by
  -- a row that is seen is committed, or the transaction has put it itself
  have hseen : (∃ r ∈ tx.view db τ, Y.own o τ r = true ∧ D.id τ r = i) →
      Touched tx ph τ i ∨ i = id ∨ ∃ r ∈ db τ, Y.own o τ r = true ∧ D.id τ r = i := by
    rintro ⟨r, hr, hown, hid⟩
    rcases mem_view hr with hr | hput
    · exact .inr (.inr ⟨r, hr, hown, hid⟩)
    · exact .inl (.inl ⟨r, hput, hid⟩)
  -- a pending change was there before, or the statement has written it
  have hchange : ∀ c ∈ (tx.after db s a).pending, (∃ r, c = .put τ r ∧ D.id τ r = i) ∨
    c = .remove τ i →
      Touched tx ph τ i ∨ i = id ∨ ∃ r ∈ db τ, Y.own o τ r = true ∧ D.id τ r = i := by
    intro c hc hi
    have hold : c ∈ tx.pending → Touched tx ph τ i := by
      intro hc
      rcases hi with ⟨r, rfl, hid⟩ | rfl
      · exact .inl ⟨r, hc, hid⟩
      · exact .inr (.inl hc)
    rcases pending_after db tx s a with ⟨n, htake⟩ | ⟨v, rfl, happend⟩
    · exact .inl (hold (List.mem_of_mem_take (htake ▸ hc)))
    · rcases List.mem_append.1 (happend ▸ hc) with hc | hc
      · exact .inl (hold hc)
      · rcases id_of_writes hseparate hknown hallows ha.view_answer hc hi with hid | hrow
        · exact .inr (.inl hid)
        · exact hseen hrow
  have hanswer : ∀ v, a = .ok v → (tx.view db).answer id time s = .ok v := by
    rintro v rfl
    exact ha.view_answer
  rcases h with ⟨r, hr, hid⟩ | hremove | hi
  · exact hchange _ hr (.inl ⟨r, rfl, hid⟩)
  · exact hchange _ hremove (.inr rfl)
  · rcases id_of_nextIds hseparate hknown hallows hanswer hi with hi | hid | hrow
    · exact .inl (.inr (.inr hi))
    · exact .inr (.inl hid)
    · exact hseen hrow

/-! ## One session -/

section Sessions

variable {supply : ℕ → D.Id × ℤ} {others : Store D} {m m' : Machine D}

/-- A failure keeps the two machines side by side, too. -/
theorem beside_answered (h : (Y.dom o).Beside supply others m m' ph) {s : Stmt D}
    (hallows : (Y.dom o).Allows ph s) {a : Except String s.Result}
    (ha : Answered m.store m.tx (supply m.ticks).1 (supply m.ticks).2 s a) :
    Answered m'.store m'.tx (supply m'.ticks).1 (supply m'.ticks).2 s a ∧
      (Y.dom o).Beside supply others
        ⟨m.tx.committed m.store s a, m.tx.after m.store s a, m.ticks + 1⟩
        ⟨m'.tx.committed m'.store s a, m'.tx.after m'.store s a, m'.ticks + 1⟩
          (Domain.nextIds ph s a) := by
  refine ⟨?_, h.next hallows fun v hv => ?_⟩
  · rcases ha with hanswer | hfails
    · exact .inl (hanswer.trans (h.answer hallows).symm)
    · exact .inr hfails
  · subst hv
    exact ha.answer_eq

end Sessions

/-! ## Worlds -/

section Worlds

variable {T ρ ε α : Type} [DecidableEq T]

/-- Every session is confined to the rows of the owner whom it serves. What one owner's sessions
have touched, no other's have, and the ids that are still to be drawn are nobody's. -/
structure Held (Y : Owners D O) (owner : ρ → O) (supply : ℕ → D.Id × ℤ)
    (w : World (storeSignature D) T (SharedStore D T) ρ ε α) (ph : T → Domain.Ids D) : Prop where
  keyed : w.shared.store.Keyed
  sound : ∀ τ, ∀ r ∈ w.shared.store τ, Y.sound τ r
  idle : ∀ t, w.session t = none → w.shared.tx t = .idle ∧ ph t = fun _ => ∅
  confined : ∀ t σ, w.session t = some σ →
    σ.prog.Follows (Y.dom (owner σ.request)).confinement (fun _ _ => True) (ph t)
  writes : ∀ t σ, w.session t = some σ → σ.prog.Uses (Stmt.WritesIn Y.guarded)
  holds : ∀ t σ, w.session t = some σ →
    Y.Holds (owner σ.request) w.shared.store (w.shared.tx t) (ph t)
  cross : ∀ t u σ υ, w.session t = some σ → w.session u = some υ →
    owner σ.request ≠ owner υ.request →
    ∀ τ id, Y.guarded τ = true → Touched (w.shared.tx t) (ph t) τ id →
      ¬Touched (w.shared.tx u) (ph u) τ id
  undrawn : ∀ n, w.shared.drawn ≤ n → ∀ τ, Y.guarded τ = true →
    (∀ r ∈ w.shared.store τ, D.id τ r ≠ (supply n).1) ∧
      ∀ t, ¬Touched (w.shared.tx t) (ph t) τ (supply n).1

/-- The world has the sessions of the owner, and the rows of the owner. -/
structure Alone (Y : Owners D O) (owner : ρ → O) (o : O)
    (w w' : World (storeSignature D) T (SharedStore D T) ρ ε α) : Prop where
  store : w'.shared.store = (Y.dom o).ownRows w.shared.store
  drawn : w'.shared.drawn = w.shared.drawn
  mine : ∀ t σ, w.session t = some σ → owner σ.request = o →
    w'.session t = some σ ∧ w'.shared.tx t = w.shared.tx t
  rest : ∀ t, (∀ σ, w.session t = some σ → owner σ.request ≠ o) → w'.session t = none ∧
    w'.shared.tx t = .idle

/-- The server of an owner alone: ids are drawn while others are served. -/
def quietServer (supply : ℕ → D.Id × ℤ) (outside : Store D → D.Id → Change D → Prop)
    (program : ρ → Prog (storeSignature D) ε α) :
    Server (storeSignature D) T (SharedStore D T) ρ ε α :=
  { storeServer supply outside program with
    env := fun g g' => (storeServer supply outside program).env g g' ∨
      g' = { g with drawn := g.drawn + 1 } }

/-- Only requests of the owner arrive. -/
def ServesOnly (owner : ρ → O) (o : O) (_ : World (storeSignature D) T (SharedStore D T) ρ ε α) :
    Label (storeSignature D) T ρ → Prop
  | .start _ q => owner q = o
  | _ => True

/-- What else can be committed: sound rows with the id that is drawn for them, or in the place of a
row with the same owner. -/
def Outside (Y : Owners D O) (db : Store D) (id : D.Id) : Change D → Prop
  | .put τ r => Y.sound τ r ∧
    (D.id τ r = id ∨ ∃ r₀ ∈ db τ, D.id τ r₀ = D.id τ r ∧ ∀ o, Y.own o τ r₀ = Y.own o τ r)
  | .remove _ _ => False

variable {owner : ρ → O} {supply : ℕ → D.Id × ℤ} {outside : Store D → D.Id → Change D → Prop}
  {program : ρ → Prog (storeSignature D) ε α}
  {w w' w₁ : World (storeSignature D) T (SharedStore D T) ρ ε α} {ph' : T → Domain.Ids D}

omit [DecidableEq T] in
/-- A session, beside one that has only the rows of its owner. -/
theorem Held.beside (h : Held Y owner supply w ph') {t : T} {σ : Session (storeSignature D) ρ ε α}
    (hat : w.session t = some σ) :
    (Y.dom (owner σ.request)).Beside supply ((Y.dom (owner σ.request)).otherRows w.shared.store)
      (w.shared.machine t) ⟨(Y.dom (owner σ.request)).ownRows w.shared.store, w.shared.tx t,
        w.shared.drawn⟩ (ph' t) := by
  refine ⟨rfl, rfl, Domain.separate_of_keyed h.keyed h.sound, rfl, rfl, (h.holds t σ hat).within,
    (h.holds t σ hat).known, fun n hn τ => ?_⟩
  cases hτ : Y.guarded τ with
  | false => exact spare_of_open hτ
  | true => exact fun f hf _ => (h.undrawn n hn τ hτ).1 f hf

omit [DecidableEq T] in
/-- What a session has touched and what is committed by another stay apart. -/
theorem Held.holds_other (h : Held Y owner supply w ph') {t u : T}
    {σ υ : Session (storeSignature D) ρ ε α} (ht : w.session t = some σ) (hu : w.session u = some υ)
    {db : Store D}
    (hdb : ∀ τ, ∀ f ∈ db τ, f ∈ w.shared.store τ ∨ .put τ f ∈ (w.shared.tx t).pending) :
    Y.Holds (owner υ.request) db (w.shared.tx u) (ph' u) := by
  refine (h.holds u υ hu).congr fun τ f hf hforeign => (hdb τ f hf).imp_right fun hput => ?_
  have hguarded : Y.guarded τ = true := (h.holds t σ ht).guarded _ hput
  have hne : owner σ.request ≠ owner υ.request := by
    intro heq
    have hown := ((h.holds t σ ht).put τ f hput).1
    rw [heq, hforeign] at hown
    cases hown
  exact h.cross t u σ υ ht hu hne τ _ hguarded (.inl ⟨f, hput, rfl⟩)

theorem Held.call (hdistinct : Function.Injective fun n => (supply n).1)
    (h : Held Y owner supply w ph') {t : T} {q : ρ} {s : Stmt D}
    {k : Except String s.Result → Prog (storeSignature D) ε α}
    {tr : List (Exchange (storeSignature D))} (hat : w.session t = some ⟨q, .call s k, tr⟩)
    {a : Except String s.Result}
    (ha : (storeServer supply outside program).possible t w.shared s a) :
    Held Y owner supply (w.answered (storeServer supply outside program) t q (k a) tr s a)
      (Function.update ph' t (Domain.nextIds (ph' t) s a)) := by
  have hallows : (Y.dom (owner q)).Allows (ph' t) s := (h.confined t _ hat).1
  have hbeside := h.beside hat
  obtain ⟨-, hothers, hseparate⟩ := hbeside.view
  have hknown : (Y.dom (owner q)).Known ((w.shared.tx t).view w.shared.store) (ph' t) :=
    fun τ id hid => (hbeside.known τ id hid).congr hothers
  obtain ⟨-, hnext⟩ := beside_answered hbeside hallows ha
  have hrows : ∀ τ, ∀ f ∈ (w.shared.tx t).committed w.shared.store s a τ,
      f ∈ w.shared.store τ ∨ .put τ f ∈ (w.shared.tx t).pending := fun τ f => mem_committed
  have htouched := fun {τ : D.Table} {i : D.Id} =>
    @touched_after D O Y (owner q) w.shared.store (w.shared.tx t) (ph' t) τ
    (supply w.shared.drawn).1 (supply w.shared.drawn).2 hseparate hknown s hallows a ha i
  have hself : ∀ {σ}, (w.answered (storeServer supply outside program) t q (k a) tr s a).session t =
    some σ →
      σ = ⟨q, k a, tr ++ [⟨s, a⟩]⟩ := by
    intro σ hσ
    rw [World.answered_session, if_pos rfl] at hσ
    exact (Option.some.inj hσ).symm
  have hother : ∀ {u}, u ≠ t →
    (w.answered (storeServer supply outside program) t q (k a) tr s a).session u =
      w.session u := fun hu => by rw [World.answered_session, if_neg hu]
  have htx : ∀ {u}, u ≠ t →
    (w.answered (storeServer supply outside program) t q (k a) tr s a).shared.tx u =
      w.shared.tx u := fun hu => Function.update_of_ne hu _ _
  have htxself : (w.answered (storeServer supply outside program) t q (k a) tr s a).shared.tx t =
      (w.shared.tx t).after w.shared.store s a := Function.update_self _ _ _
  -- whatever the statement touches is new or of the owner, and of nobody else
  have hcross : ∀ u υ, w.session u = some υ → owner q ≠ owner υ.request →
    ∀ τ i, Y.guarded τ = true →
      Touched ((w.shared.tx t).after w.shared.store s a) (Domain.nextIds (ph' t) s a) τ i →
      ¬Touched (w.shared.tx u) (ph' u) τ i := by
    intro u υ hu hne τ i hτ hi hiu
    rcases htouched hi with hi | rfl | ⟨r, hr, hown, hid⟩
    · exact h.cross t u _ υ hat hu hne τ i hτ hi hiu
    · exact (h.undrawn _ (Nat.le_refl _) τ hτ).2 u hiu
    · exact (h.holds u υ hu).spare τ i hiu r hr (foreign_of_own hτ (Ne.symm hne) hown) hid
  constructor
  case keyed =>
    rcases committed_cases w.shared.store (w.shared.tx t) s a with hstore | ⟨hstore, -⟩
    · exact (congrArg Store.Keyed hstore).mpr h.keyed
    · exact (congrArg Store.Keyed hstore).mpr h.keyed.applyAll
  case sound => exact hnext.separate.sound
  case idle =>
    intro u hu
    have hut : u ≠ t := by
      rintro rfl
      rw [World.answered_session, if_pos rfl] at hu
      cases hu
    rw [htx hut, Function.update_of_ne hut]
    exact h.idle u (hother hut ▸ hu)
  case confined =>
    intro u υ hu
    by_cases hut : u = t
    · subst hut
      obtain rfl := hself hu
      rw [Function.update_self]
      exact (h.confined u _ hat).2 a trivial
    · rw [Function.update_of_ne hut]
      exact h.confined u υ (hother hut ▸ hu)
  case writes =>
    intro u υ hu
    by_cases hut : u = t
    · subst hut
      obtain rfl := hself hu
      exact fun ph => (h.writes u _ hat ph).2 a trivial
    · exact h.writes u υ (hother hut ▸ hu)
  case holds =>
    intro u υ hu
    by_cases hut : u = t
    · subst hut
      obtain rfl := hself hu
      rw [htxself, Function.update_self]
      refine ⟨fun τ r hr => ?_, ?_, fun τ i hi => ?_⟩
      · exact ⟨(hnext.within _ hr).1, (hnext.within _ hr).2.1⟩
      · exact guarded_after (h.writes u _ hat ()).1 ha (h.holds u _ hat).guarded
      · rcases hi with ⟨r, hr, rfl⟩ | hremove | hid
        · exact (hnext.within _ hr).2.2
        · exact hnext.within _ hremove
        · exact hnext.known τ i hid
    · rw [htx hut, Function.update_of_ne hut]
      exact h.holds_other hat (hother hut ▸ hu) hrows
  case cross =>
    intro u v υ ν hu hv hne τ i hτ hi
    by_cases hut : u = t
    · subst hut
      obtain rfl := hself hu
      have hvu : v ≠ u := by
        rintro rfl
        exact hne (congrArg (fun σ => owner σ.request) (hself hv).symm)
      rw [htxself, Function.update_self] at hi
      rw [htx hvu, Function.update_of_ne hvu]
      exact hcross v ν (hother hvu ▸ hv) hne τ i hτ hi
    · rw [htx hut, Function.update_of_ne hut] at hi
      by_cases hvt : v = t
      · subst hvt
        obtain rfl := hself hv
        rw [htxself, Function.update_self]
        exact fun hi' => hcross u υ (hother hut ▸ hu) (Ne.symm hne) τ i hτ hi' hi
      · rw [htx hvt, Function.update_of_ne hvt]
        exact h.cross u v υ ν (hother hut ▸ hu) (hother hvt ▸ hv) hne τ i hτ hi
  case undrawn =>
    intro n hn τ hτ
    have hdrawn : w.shared.drawn ≤ n := Nat.le_of_succ_le hn
    obtain ⟨hstore, htouch⟩ := h.undrawn n hdrawn τ hτ
    refine ⟨fun r hr => ?_, fun u => ?_⟩
    · rcases hrows τ r hr with hr | hput
      · exact hstore r hr
      · exact fun hid => htouch t (.inl ⟨r, hput, hid⟩)
    · by_cases hut : u = t
      · subst hut
        rw [htxself, Function.update_self]
        intro hi
        rcases htouched hi with hi | hid | ⟨r, hr, -, hid⟩
        · exact htouch u hi
        · -- the id has been drawn for this statement, and is not drawn again
          have hsame : n = w.shared.drawn := hdistinct hid
          subst hsame
          exact Nat.not_succ_le_self _ hn
        · exact hstore r hr hid
      · rw [htx hut, Function.update_of_ne hut]
        exact htouch u

theorem Held.start
    (hprogram : ∀ q, (program q).Follows (Y.dom (owner q)).confinement (fun _ _ => True) fun _ => ∅)
    (hwrites : ∀ q, (program q).Uses (Stmt.WritesIn Y.guarded)) (h : Held Y owner supply w ph')
    {t : T} {q : ρ} (hidle : w.session t = none) :
    Held Y owner supply (w.start (storeServer supply outside program) t q) ph' := by
  obtain ⟨htx, hph⟩ := h.idle t hidle
  -- the sessions are those that were there, and the new one
  have hsession : ∀ {u σ}, (w.start (storeServer supply outside program) t q).session u = some σ →
      u = t ∧ σ = ⟨q, program q, []⟩ ∨ w.session u = some σ := by
    intro u σ hu
    rw [World.start_session] at hu
    split at hu
    · exact .inl ⟨‹_›, (Option.some.inj hu).symm⟩
    · exact .inr hu
  -- the new session has touched no id
  have huntouched : ∀ τ id, ¬Touched (w.shared.tx t) (ph' t) τ id := fun τ id => by
    rw [htx, hph]
    exact not_touched_idle
  constructor
  case keyed => exact h.keyed
  case sound => exact h.sound
  case idle =>
    intro u hu
    apply h.idle u
    rw [World.start_session] at hu
    split at hu
    · cases hu
    · exact hu
  case confined =>
    intro u σ hu
    rcases hsession hu with ⟨rfl, rfl⟩ | hu
    · rw [hph]
      exact hprogram q
    · exact h.confined u σ hu
  case writes =>
    intro u σ hu
    rcases hsession hu with ⟨rfl, rfl⟩ | hu
    · exact hwrites q
    · exact h.writes u σ hu
  case holds =>
    intro u σ hu
    rcases hsession hu with ⟨rfl, rfl⟩ | hu
    · change Y.Holds _ w.shared.store (w.shared.tx u) (ph' u)
      rw [htx, hph]
      exact holds_idle
    · exact h.holds u σ hu
  case cross =>
    intro u v σ υ hu hv hne τ id hτ hid
    rcases hsession hu with ⟨rfl, rfl⟩ | hu
    · exact absurd hid (huntouched τ id)
    · rcases hsession hv with ⟨rfl, rfl⟩ | hv
      · exact huntouched τ id
      · exact h.cross u v σ υ hu hv hne τ id hτ hid
  case undrawn => exact h.undrawn

theorem Held.crash (h : Held Y owner supply w ph') (t : T) :
    Held Y owner supply (w.crashed (storeServer supply outside program) t)
      (Function.update ph' t fun _ => ∅) := by
  -- the sessions that are left have not moved
  have hsession : ∀ {u σ}, (w.crashed (storeServer supply outside program) t).session u = some σ →
      u ≠ t ∧ w.session u = some σ := by
    intro u σ hu
    rw [World.crashed_session] at hu
    split at hu
    · cases hu
    · exact ⟨‹_›, hu⟩
  have htx : ∀ {u}, u ≠ t →
      (w.crashed (storeServer supply outside program) t).shared.tx u = w.shared.tx u :=
    fun hu => Function.update_of_ne hu _ _
  have htxself : (w.crashed (storeServer supply outside program) t).shared.tx t = .idle :=
    Function.update_self _ _ _
  constructor
  case keyed => exact h.keyed
  case sound => exact h.sound
  case idle =>
    intro u hu
    by_cases hut : u = t
    · subst hut
      exact ⟨htxself, Function.update_self _ _ _⟩
    · rw [World.crashed_session, if_neg hut] at hu
      rw [htx hut, Function.update_of_ne hut]
      exact h.idle u hu
  case confined =>
    intro u σ hu
    obtain ⟨hut, hu⟩ := hsession hu
    rw [Function.update_of_ne hut]
    exact h.confined u σ hu
  case writes => exact fun u σ hu => h.writes u σ (hsession hu).2
  case holds =>
    intro u σ hu
    obtain ⟨hut, hu⟩ := hsession hu
    rw [htx hut, Function.update_of_ne hut]
    exact h.holds u σ hu
  case cross =>
    intro u v σ υ hu hv
    obtain ⟨hut, hu⟩ := hsession hu
    obtain ⟨hvt, hv⟩ := hsession hv
    rw [htx hut, htx hvt, Function.update_of_ne hut, Function.update_of_ne hvt]
    exact h.cross u v σ υ hu hv
  case undrawn =>
    intro n hn τ hτ
    obtain ⟨hstore, htouch⟩ := h.undrawn n hn τ hτ
    refine ⟨hstore, fun u => ?_⟩
    by_cases hut : u = t
    · subst hut
      rw [htxself, Function.update_self]
      exact not_touched_idle
    · rw [htx hut, Function.update_of_ne hut]
      exact htouch u

omit [DecidableEq T] in
/-- A row that something else commits takes the id of no row of another owner. -/
theorem Held.spare_of_outside (h : Held Y owner supply w ph') {τ : D.Table} {r : D.Row τ}
    (hc : Y.Outside w.shared.store (supply w.shared.drawn).1 (.put τ r)) {o : O}
    (hown : Y.own o τ r = true) :
    (Y.dom o).Spare w.shared.store τ (D.id τ r) := by
  intro f hf hforeign hid
  cases hτ : Y.guarded τ with
  | false => exact spare_of_open hτ f hf hforeign hid
  | true =>
    rcases hc.2 with hdrawn | ⟨r₀, hr₀, hid₀, howns⟩
    · exact (h.undrawn _ (Nat.le_refl _) τ hτ).1 f hf (hid.trans hdrawn)
    · obtain rfl : f = r₀ := List.inj_on_of_nodup_map (h.keyed τ) hf hr₀ (hid.trans hid₀.symm)
      have hforeign' : Y.own o τ f = false := hforeign
      rw [howns o, hown] at hforeign'
      cases hforeign'

omit [DecidableEq T] in
theorem Held.env (hdistinct : Function.Injective fun n => (supply n).1)
    (h : Held Y owner supply w ph') {c : Change D}
    (hc : Y.Outside w.shared.store (supply w.shared.drawn).1 c) :
    Held Y owner supply { w with
      shared := ⟨w.shared.store.apply c, w.shared.tx, w.shared.drawn + 1⟩ } ph' := by
  cases c with
  | remove τ id => exact hc.elim
  | put τ r =>
    have hrows : ∀ σ, ∀ f ∈ w.shared.store.apply (.put τ r) σ, f ∈ w.shared.store σ ∨
        Change.put τ r = .put σ f :=
      fun σ f => Store.mem_apply
    -- the row takes the drawn id, or that of a row that its owner had before
    have huntouched : ∀ t σ, w.session t = some σ → Y.guarded τ = true →
      Y.own (owner σ.request) τ r = false →
        ¬Touched (w.shared.tx t) (ph' t) τ (D.id τ r) := by
      intro t σ ht hτ hforeign hid
      rcases hc.2 with hdrawn | ⟨r₀, hr₀, hid₀, howns⟩
      · exact (h.undrawn _ (Nat.le_refl _) τ hτ).2 t (hdrawn ▸ hid)
      · exact (h.holds t σ ht).spare τ _ hid r₀ hr₀ ((howns _).trans hforeign) hid₀
    refine ⟨Store.Keyed.apply (c := .put τ r) h.keyed, fun σ f hf => ?_, h.idle, h.confined,
      h.writes, fun t σ ht => ?_, h.cross, ?_⟩
    · rcases hrows σ f hf with hf | heq
      · exact h.sound σ f hf
      · cases heq
        exact hc.1
    · refine (h.holds t σ ht).congr fun υ f hf hforeign => (hrows υ f hf).imp_right fun heq => ?_
      cases heq
      cases hτ : Y.guarded τ with
      | false => cases (Y.open_own hτ (owner σ.request) r).symm.trans hforeign
      | true => exact huntouched t σ ht hτ hforeign
    · intro n hn υ hυ
      obtain ⟨hstore, htouch⟩ := h.undrawn n (Nat.le_of_succ_le hn) υ hυ
      refine ⟨fun f hf => ?_, htouch⟩
      rcases hrows υ f hf with hf | heq
      · exact hstore f hf
      · cases heq
        rcases hc.2 with hdrawn | ⟨r₀, hr₀, hid₀, -⟩
        · intro hid
          have hsame : w.shared.drawn = n := hdistinct (hdrawn.symm.trans hid)
          subst hsame
          exact Nat.not_succ_le_self _ hn
        · exact fun hid => hstore r₀ hr₀ (hid₀.trans hid)

/-- One step keeps every session to its owner. -/
theorem Held.step (hdistinct : Function.Injective fun n => (supply n).1)
    (houtside : ∀ db id c, outside db id c → Y.Outside db id c)
    (hprogram : ∀ q, (program q).Follows (Y.dom (owner q)).confinement (fun _ _ => True) fun _ => ∅)
    (hwrites : ∀ q, (program q).Uses (Stmt.WritesIn Y.guarded)) (h : Held Y owner supply w ph')
    {l : Label (storeSignature D) T ρ}
    (hs : World.Step (storeServer supply outside program) w l w') :
    ∃ ph₁, Held Y owner supply w' ph₁ := by
  cases hs with
  | start q hidle => exact ⟨_, h.start hprogram hwrites hidle⟩
  | call a hat ha => exact ⟨_, h.call hdistinct hat ha⟩
  | @crash t σ hat hrun => exact ⟨_, h.crash t⟩
  | env hg =>
    obtain ⟨c, hc, rfl⟩ := hg
    exact ⟨_, h.env hdistinct (houtside _ _ c hc)⟩

omit [DecidableEq T] in
/-- A store with primary keys and sound rows, in which nobody has an id that is still to be
drawn. -/
theorem Held.initial {db : Store D} (hkeyed : db.Keyed) (hsound : ∀ τ, ∀ r ∈ db τ, Y.sound τ r)
    (hundrawn : ∀ n τ, Y.guarded τ = true → ∀ r ∈ db τ, D.id τ r ≠ (supply n).1) :
    Held Y owner supply (World.fresh (SharedStore.initial T db) :
      World (storeSignature D) T (SharedStore D T) ρ ε α) fun _ _ => ∅ :=
  ⟨hkeyed, hsound, fun _ _ => ⟨rfl, rfl⟩, nofun, nofun, nofun, nofun,
    fun n _ τ hτ => ⟨hundrawn n τ hτ, fun _ => not_touched_idle⟩⟩

/-! ## The sessions of one owner -/

omit [DecidableEq T] in
/-- A statement of a session writes no rows of another owner. -/
theorem Held.ownRows_call (h : Held Y owner supply w ph') {t : T} {q : ρ} {s : Stmt D}
    {k : Except String s.Result → Prog (storeSignature D) ε α}
    {tr : List (Exchange (storeSignature D))} (hat : w.session t = some ⟨q, .call s k, tr⟩) {o : O}
    (hne : owner q ≠ o) (a : Except String s.Result) :
    (Y.dom o).ownRows ((w.shared.tx t).committed w.shared.store s a) =
      (Y.dom o).ownRows w.shared.store := by
  rcases committed_cases w.shared.store (w.shared.tx t) s a with hstore | ⟨hstore, -⟩
  · rw [hstore]
  · rw [hstore]
    funext τ
    cases hτ : Y.guarded τ with
    | false =>
      have hsame : (w.shared.tx t).view w.shared.store τ = w.shared.store τ := by
        refine Store.applyAll_of_ne fun c hc heq => ?_
        have hguarded := (h.holds t _ hat).guarded c hc
        rw [heq, hτ] at hguarded
        cases hguarded
      exact congrArg (List.filter (Y.own o τ)) hsame
    | true =>
      have hothers : (Y.dom (owner q)).otherRows ((w.shared.tx t).view w.shared.store) =
          (Y.dom (owner q)).otherRows w.shared.store := (h.beside hat).view.2.1
      -- the rows of the owner are among those that are foreign to the session
      have hamong : ∀ rows : List (D.Row τ), rows.filter (Y.own o τ) =
          (rows.filter fun r => !Y.own (owner q) τ r).filter (Y.own o τ) := by
        intro rows
        rw [List.filter_filter]
        refine List.filter_congr fun r _ => ?_
        cases hr : Y.own o τ r with
        | false => rfl
        | true => simp [foreign_of_own hτ hne hr]
      change List.filter (Y.own o τ) _ = List.filter (Y.own o τ) _
      rw [hamong, hamong (w.shared.store τ)]
      exact congrArg (List.filter (Y.own o τ)) (congrFun hothers τ)

theorem Alone.start (h : Held Y owner supply w ph') {o : O} (halone : Alone Y owner o w w') {t : T}
    {q : ρ} (hidle : w.session t = none) :
    ∃ w₁', Runs (World.Step (quietServer supply outside program)) (ServesOnly owner o) w' w₁' ∧
      Alone Y owner o (w.start (storeServer supply outside program) t q) w₁' := by
  obtain ⟨hidle', htx'⟩ := halone.rest t fun σ hσ => by rw [hidle] at hσ; cases hσ
  -- a session of the owner starts in both worlds, that of another in the shared world only
  by_cases howner : owner q = o
  · refine ⟨w'.start (quietServer supply outside program) t q,
      .single ⟨.start t q, howner, .start q hidle'⟩,
      halone.store, halone.drawn, fun u σ hu hσ => ?_, fun u hu => ?_⟩
    · rw [World.start_session] at hu ⊢
      split at hu
      · obtain rfl := Option.some.inj hu
        subst u
        rw [if_pos rfl]
        exact ⟨rfl, htx'.trans (h.idle t hidle).1.symm⟩
      · rw [if_neg ‹_›]
        exact halone.mine u σ hu hσ
    · rw [World.start_session] at hu ⊢
      split at hu
      · exact absurd howner (hu _ rfl)
      · rw [if_neg ‹_›]
        exact halone.rest u hu
  · refine ⟨w', .refl, halone.store, halone.drawn, fun u σ hu hσ => ?_, fun u hu => ?_⟩
    · rw [World.start_session] at hu
      split at hu
      · obtain rfl := Option.some.inj hu
        exact absurd hσ howner
      · exact halone.mine u σ hu hσ
    · rw [World.start_session] at hu
      split at hu
      · subst u
        exact ⟨hidle', htx'⟩
      · exact halone.rest u hu

/-- The world goes on while others are served. -/
theorem Alone.wait {o : O} {w' : World (storeSignature D) T (SharedStore D T) ρ ε α} :
    Runs (World.Step (quietServer supply outside program)) (ServesOnly owner o) w'
      { w' with shared := { w'.shared with drawn := w'.shared.drawn + 1 } } :=
  .single ⟨.env, trivial, .env (.inr rfl)⟩

theorem Alone.call (h : Held Y owner supply w ph') {o : O} (halone : Alone Y owner o w w') {t : T}
    {q : ρ} {s : Stmt D} {k : Except String s.Result → Prog (storeSignature D) ε α}
    {tr : List (Exchange (storeSignature D))} (hat : w.session t = some ⟨q, .call s k, tr⟩)
    {a : Except String s.Result}
    (ha : (storeServer supply outside program).possible t w.shared s a) :
    ∃ w₁', Runs (World.Step (quietServer supply outside program)) (ServesOnly owner o) w' w₁' ∧
      Alone Y owner o (w.answered (storeServer supply outside program) t q (k a) tr s a) w₁' := by
  -- a statement of the owner gets the same answer in both worlds
  by_cases howner : owner q = o
  · subst howner
    obtain ⟨hat', htx'⟩ := halone.mine t _ hat rfl
    have hmachine : w'.shared.machine t =
        ⟨(Y.dom (owner q)).ownRows w.shared.store, w.shared.tx t, w.shared.drawn⟩ := by
      rw [SharedStore.machine, halone.store, htx', halone.drawn]
    have hbeside := h.beside hat
    rw [← hmachine] at hbeside
    obtain ⟨ha', hnext⟩ := beside_answered hbeside (h.confined t _ hat).1 ha
    refine ⟨w'.answered (quietServer supply outside program) t q (k a) tr s a,
      .single ⟨.call t ⟨s, a⟩, trivial, .call a hat' ha'⟩, hnext.store, hnext.ticks,
      fun u σ hu hσ => ?_, fun u hu => ?_⟩
    · rw [World.answered_session] at hu ⊢
      split at hu
      · subst u
        rw [if_pos rfl]
        refine ⟨hu, ?_⟩
        change Function.update _ t _ t = Function.update _ t _ t
        rw [Function.update_self, Function.update_self]
        exact hnext.tx
      · rename_i hut
        rw [if_neg hut]
        change _ ∧ Function.update _ t _ u = Function.update _ t _ u
        rw [Function.update_of_ne hut, Function.update_of_ne hut]
        exact halone.mine u σ hu hσ
    · rw [World.answered_session] at hu ⊢
      split at hu
      · exact absurd rfl (hu _ rfl)
      · rename_i hut
        rw [if_neg hut]
        change _ ∧ Function.update _ t _ u = _
        rw [Function.update_of_ne hut]
        exact halone.rest u hu
  · -- that of another leaves the rows of the owner as they are, and the owner alone waits
    refine ⟨_, Alone.wait, ?_, congrArg (· + 1) halone.drawn, fun u σ hu hσ => ?_, fun u hu => ?_⟩
    · exact halone.store.trans (h.ownRows_call hat howner a).symm
    · rw [World.answered_session] at hu
      split at hu
      · obtain rfl := Option.some.inj hu
        exact absurd hσ howner
      · rename_i hut
        have htx :
            (w.answered (storeServer supply outside program) t q (k a) tr s a).shared.tx u =
              w.shared.tx u :=
          Function.update_of_ne hut _ _
        rw [htx]
        exact halone.mine u σ hu hσ
    · rw [World.answered_session] at hu
      split at hu
      · subst u
        refine halone.rest t fun σ hσ => ?_
        obtain rfl := Option.some.inj (hat.symm.trans hσ)
        exact howner
      · exact halone.rest u hu

theorem Alone.crash {o : O} (halone : Alone Y owner o w w') {t : T}
    {σ : Session (storeSignature D) ρ ε α} (hat : w.session t = some σ)
    (hopen : σ.prog.outcome = none) :
    ∃ w₁', Runs (World.Step (quietServer supply outside program)) (ServesOnly owner o) w' w₁' ∧
      Alone Y owner o (w.crashed (storeServer supply outside program) t) w₁' := by
  -- a session of the owner dies in both worlds
  by_cases howner : owner σ.request = o
  · obtain ⟨hat', -⟩ := halone.mine t σ hat howner
    refine ⟨w'.crashed (quietServer supply outside program) t,
      .single ⟨.crash t, trivial, .crash hat' hopen⟩,
      halone.store, halone.drawn, fun u υ hu hυ => ?_, fun u hu => ?_⟩
    · rw [World.crashed_session] at hu ⊢
      split at hu
      · cases hu
      · rename_i hut
        rw [if_neg hut]
        change _ ∧ Function.update _ t _ u = Function.update _ t _ u
        rw [Function.update_of_ne hut, Function.update_of_ne hut]
        exact halone.mine u υ hu hυ
    · rw [World.crashed_session] at hu ⊢
      change _ ∧ Function.update _ t _ u = _
      split at hu
      · subst u
        rw [if_pos rfl, Function.update_self]
        exact ⟨rfl, rfl⟩
      · rename_i hut
        rw [if_neg hut, Function.update_of_ne hut]
        exact halone.rest u hu
  · -- what another had not committed is in neither world
    refine ⟨w', .refl, halone.store, halone.drawn, fun u υ hu hυ => ?_, fun u hu => ?_⟩
    · rw [World.crashed_session] at hu
      split at hu
      · cases hu
      · rename_i hut
        have htx : (w.crashed (storeServer supply outside program) t).shared.tx u = w.shared.tx u :=
          Function.update_of_ne hut _ _
        rw [htx]
        exact halone.mine u υ hu hυ
    · rw [World.crashed_session] at hu
      split at hu
      · subst u
        refine halone.rest t fun υ hυ => ?_
        obtain rfl := Option.some.inj (hat.symm.trans hυ)
        exact howner
      · exact halone.rest u hu

/-- Something else commits a row of the owner, which then has it too, or a row of another. -/
theorem Alone.env (h : Held Y owner supply w ph') {o : O} (halone : Alone Y owner o w w')
    {c : Change D} (hc : Y.Outside w.shared.store (supply w.shared.drawn).1 c)
    (hstable : ∀ τ r, c = .put τ r → Y.own o τ r = true →
      outside ((Y.dom o).ownRows w.shared.store) (supply w.shared.drawn).1 c) :
    ∃ w₁', Runs (World.Step (quietServer supply outside program)) (ServesOnly owner o) w' w₁' ∧
      Alone Y owner o { w with
        shared := ⟨w.shared.store.apply c, w.shared.tx, w.shared.drawn + 1⟩ } w₁' := by
  cases c with
  | remove τ id => exact hc.elim
  | put τ r =>
    cases hown : Y.own o τ r with
    | true =>
      have hstep : World.Step (quietServer supply outside program) w' .env
          { w' with shared := ⟨w'.shared.store.apply (.put τ r), w'.shared.tx,
            w'.shared.drawn + 1⟩ } := by
        refine .env (.inl ⟨.put τ r, ?_, rfl⟩)
        rw [halone.store, halone.drawn]
        exact hstable τ r rfl hown
      refine ⟨_, .single ⟨.env, trivial, hstep⟩, ?_, congrArg (· + 1) halone.drawn,
        halone.mine, halone.rest⟩
      have hwithin : (Y.dom o).Within w.shared.store (.put τ r) :=
        ⟨hown, hc.1, h.spare_of_outside hc hown⟩
      exact (congrArg (Store.apply · _) halone.store).trans (Domain.ownRows_apply hwithin).symm
    | false =>
      -- the row of another is put among the rows of others
      refine ⟨_, Alone.wait, ?_, congrArg (· + 1) halone.drawn, halone.mine, halone.rest⟩
      refine halone.store.trans (funext fun σ => ?_)
      by_cases hσ : σ = τ
      · subst hσ
        change List.filter (Y.own o σ) _ =
          List.filter (Y.own o σ) (w.shared.store.apply (.put σ r) σ)
        rw [Store.apply_put_self]
        refine (filter_upsert_of_not hown fun f hf hid => ?_).symm
        have hguarded : Y.guarded σ = true := by
          by_contra hopen
          cases (Y.open_own (Bool.not_eq_true _ ▸ hopen) o r).symm.trans hown
        rcases hc.2 with hdrawn | ⟨r₀, hr₀, hid₀, howns⟩
        · exact absurd (hid.trans hdrawn) ((h.undrawn _ (Nat.le_refl _) σ hguarded).1 f hf)
        · obtain rfl : f = r₀ := List.inj_on_of_nodup_map (h.keyed σ) hf hr₀ (hid.trans hid₀.symm)
          exact (howns o).trans hown
      · change List.filter (Y.own o σ) _ =
          List.filter (Y.own o σ) (w.shared.store.apply (.put τ r) σ)
        rw [Store.apply_put_of_ne _ _ hσ]

/-- For every run there is a run of an owner alone: its sessions get the same answers, and its rows
are the same, as if nobody else had been served. -/
theorem alone_of_run (hdistinct : Function.Injective fun n => (supply n).1)
    (houtside : ∀ db id c, outside db id c → Y.Outside db id c)
    (hstable : ∀ o db id τ r, outside db id (.put τ r) → Y.own o τ r = true →
      outside ((Y.dom o).ownRows db) id (.put τ r))
    (hprogram : ∀ q, (program q).Follows (Y.dom (owner q)).confinement (fun _ _ => True) fun _ => ∅)
    (hwrites : ∀ q, (program q).Uses (Stmt.WritesIn Y.guarded)) {db : Store D}
    (h₀ : Held Y owner supply (World.fresh (SharedStore.initial T db) :
      World (storeSignature D) T (SharedStore D T) ρ ε α) fun _ _ => ∅)
    (hrun : Runs (World.Step (storeServer supply outside program)) anyStep
      (World.fresh (SharedStore.initial T db)) w) (o : O) :
    (∃ ph, Held Y owner supply w ph) ∧
      ∃ w', Runs (World.Step (quietServer supply outside program)) (ServesOnly owner o)
        (World.fresh (SharedStore.initial T ((Y.dom o).ownRows db))) w' ∧ Alone Y owner o w w' := by
  -- induction on the run: the owner's run alone follows it step by step
  refine hrun.invariant (I := fun w =>
    (∃ ph, Held Y owner supply w ph) ∧ ∃ w', Runs _ _ _ w' ∧ Alone Y owner o w w')
    ?_ ⟨⟨_, h₀⟩, _, .refl, ⟨rfl, rfl, nofun, fun _ _ => ⟨rfl, rfl⟩⟩⟩
  rintro w l w₁ ⟨⟨ph, hheld⟩, w', hrun', halone⟩ - hs
  refine ⟨hheld.step hdistinct houtside hprogram hwrites hs, ?_⟩
  -- a step of the owner is taken along, any other leaves the owner's rows as they are
  have hnext : ∃ w₁', Runs (World.Step (quietServer supply outside program))
    (ServesOnly owner o) w' w₁' ∧
      Alone Y owner o w₁ w₁' := by
    cases hs with
    | start q hidle => exact halone.start hheld hidle
    | call a hat ha => exact halone.call hheld hat ha
    | crash hat hopen => exact halone.crash hat hopen
    | env hg =>
      obtain ⟨c, hc, rfl⟩ := hg
      refine halone.env hheld (houtside _ _ c hc) fun τ r heq hown => ?_
      subst heq
      exact hstable o _ _ τ r hc hown
  obtain ⟨w₁', hrun₁, halone₁⟩ := hnext
  exact ⟨w₁', hrun'.trans hrun₁, halone₁⟩

end Worlds

end Owners

end BookingPlatform.Library
