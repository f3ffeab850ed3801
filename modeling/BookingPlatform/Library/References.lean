import BookingPlatform.Library.StoreServer
import Mathlib.Data.Set.Basic

/-!
# References among the Rows of a Store

Rows that provide keys, and rows that need keys of others. Nothing in the store checks a need: a
program may only insert a row when it has read rows that provide what it needs, or that need the
same. If every program keeps to that, then no row of the store ever needs a key that no row
provides, in whatever order transactions run.

## Main definitions

- `Dependencies`: the keys of rows.
- `Dependencies.discipline`: which statements a program may issue, by the keys it knows.

## Main results

- `Dependencies.intact_run`: disciplined programs keep the needs of all rows met.
-/

namespace BookingPlatform.Library

variable {D : Schema}

/-- What the rows of a schema provide and need. Rows that provide a key are in tables that lose no
rows, and `sound` is what is to hold of a row by itself. -/
structure Dependencies (D : Schema) where
  Key : Type
  provides : (τ : D.Table) → D.Row τ → List Key
  needs : (τ : D.Table) → D.Row τ → List Key
  sound : (τ : D.Table) → D.Row τ → Prop
  lasting : D.Table → Prop
  lasting_of_provides : ∀ {τ : D.Table} {r : D.Row τ} {k : Key}, k ∈ provides τ r → lasting τ

theorem mem_upsert_of_ne {τ : D.Table} {r r' : D.Row τ} {rows : List (D.Row τ)} (hr : r ∈ rows)
    (hid : D.id τ r ≠ D.id τ r') : r ∈ upsert r' rows := by
  induction rows with
  | nil => exact absurd hr List.not_mem_nil
  | cons x rows ih =>
    unfold upsert
    split
    case isTrue hsame =>
      rcases List.mem_cons.1 hr with rfl | hr
      · exact absurd hsame hid
      · exact List.mem_cons_of_mem r' hr
    case isFalse =>
      rcases List.mem_cons.1 hr with rfl | hr
      · exact List.mem_cons_self
      · exact List.mem_cons_of_mem x (ih hr)

namespace Dependencies

variable (X : Dependencies D)

/-! ## Keys -/

/-- A row of the store provides the key. -/
def Held (db : Store D) (k : X.Key) : Prop := ∃ τ, ∃ r ∈ db τ, k ∈ X.provides τ r

/-- A row of the store provides the key, or one that is put. -/
def Supplied (db : Store D) (cs : List (Change D)) (k : X.Key) : Prop :=
  X.Held db k ∨ ∃ τ r, .put τ r ∈ cs ∧ k ∈ X.provides τ r

/-- After the changes `cs` the next one needs nothing that is not supplied, and removes nothing that
others may need. -/
def Fits (db : Store D) (cs : List (Change D)) : Change D → Prop
  | .put τ r => X.sound τ r ∧ ∀ k ∈ X.needs τ r, X.Supplied db cs k
  | .remove τ _ => ¬X.lasting τ

/-- Changes each of which fits after those before it. -/
inductive Grounded (db : Store D) : List (Change D) → Prop
  | nil : Grounded db []
  | snoc {cs : List (Change D)} {c : Change D} (h : Grounded db cs) (hfits : X.Fits db cs c) :
    Grounded db (cs ++ [c])

variable {X} {db db' : Store D} {cs ds : List (Change D)} {k : X.Key}

theorem Supplied.store (hheld : ∀ k, X.Held db k → X.Held db' k) (h : X.Supplied db cs k) :
    X.Supplied db' cs k := h.imp_left (hheld k)

theorem Supplied.subset (hsub : cs ⊆ ds) (h : X.Supplied db cs k) : X.Supplied db ds k :=
  h.imp_right fun ⟨τ, r, hput, hk⟩ => ⟨τ, r, hsub hput, hk⟩

theorem Fits.store (hheld : ∀ k, X.Held db k → X.Held db' k) {c : Change D} (h : X.Fits db cs c) :
    X.Fits db' cs c := by
  cases c with
  | put τ r => exact ⟨h.1, fun k hk => (h.2 k hk).store hheld⟩
  | remove τ id => exact h

theorem Fits.subset (hsub : cs ⊆ ds) {c : Change D} (h : X.Fits db cs c) : X.Fits db ds c := by
  cases c with
  | put τ r => exact ⟨h.1, fun k hk => (h.2 k hk).subset hsub⟩
  | remove τ id => exact h

theorem Grounded.store (hheld : ∀ k, X.Held db k → X.Held db' k) (h : X.Grounded db cs) :
    X.Grounded db' cs := by
  induction h with
  | nil => exact .nil
  | snoc h hfits ih => exact .snoc ih (hfits.store hheld)

/-- What a savepoint goes back to is grounded. -/
theorem Grounded.take (h : X.Grounded db cs) (n : ℕ) : X.Grounded db (cs.take n) := by
  induction h with
  | nil =>
    rw [List.take_nil]
    exact .nil
  | @snoc cs c h hfits ih =>
    by_cases hn : n ≤ cs.length
    · rw [List.take_append_of_le_length hn]
      exact ih
    · have hall : (cs ++ [c]).length ≤ n := by
        rw [List.length_append, List.length_singleton]
        omega
      rw [List.take_of_length_le hall]
      exact .snoc h hfits

/-- Changes that fit one by one are grounded together. -/
theorem Grounded.append (h : X.Grounded db cs) (hds : ∀ c ∈ ds, X.Fits db cs c) :
    X.Grounded db (cs ++ ds) := by
  induction ds generalizing cs with
  | nil =>
    rw [List.append_nil]
    exact h
  | cons c ds ih =>
    rw [List.append_cons]
    have hsub : cs ⊆ cs ++ [c] := List.subset_append_left cs [c]
    have hfirst : X.Grounded db (cs ++ [c]) := .snoc h (hds c List.mem_cons_self)
    exact ih hfirst fun d hd => (hds d (List.mem_cons_of_mem c hd)).subset hsub

/-- A row that is put needs only what is supplied. -/
theorem Grounded.fits (h : X.Grounded db cs) {c : Change D} (hc : c ∈ cs) : X.Fits db cs c := by
  induction h with
  | nil => exact absurd hc List.not_mem_nil
  | @snoc cs c' h hfits ih =>
    have hsub : cs ⊆ cs ++ [c'] := List.subset_append_left cs [c']
    rcases List.mem_append.1 hc with hc | hc
    · exact (ih hc).subset hsub
    · obtain rfl := List.mem_singleton.1 hc
      exact hfits.subset hsub

/-- A row of the store, or one that is put. -/
def Among (db : Store D) (cs : List (Change D)) (τ : D.Table) (r : D.Row τ) : Prop :=
  r ∈ db τ ∨ .put τ r ∈ cs

/-- Rows with one id provide the same keys. -/
def Agree (X : Dependencies D) (db : Store D) (cs : List (Change D)) : Prop :=
  ∀ τ r r', Among db cs τ r → Among db cs τ r' → D.id τ r = D.id τ r' →
    X.provides τ r = X.provides τ r'

theorem Agree.of_among {db' : Store D} (hamong : ∀ τ r, Among db' ds τ r → Among db cs τ r)
    (h : X.Agree db cs) : X.Agree db' ds :=
  fun τ r r' hr hr' hid => h τ r r' (hamong τ r hr) (hamong τ r' hr') hid

/-- A change keeps the keys that are held. -/
theorem Held.apply {c : Change D} (hagree : X.Agree db [c])
    (hremove : ∀ τ id, c = .remove τ id → ¬X.lasting τ) (h : X.Held db k) :
    X.Held (db.apply c) k := by
  obtain ⟨τ, r, hr, hk⟩ := h
  cases c with
  | put τ' r' =>
    by_cases hτ : τ = τ'
    · subst hτ
      by_cases hid : D.id τ r = D.id τ r'
      · -- the row is replaced by one that provides the same
        have hsame : X.provides τ r = X.provides τ r' :=
          hagree τ r r' (.inl hr) (.inr List.mem_cons_self) hid
        refine ⟨τ, r', ?_, hsame ▸ hk⟩
        rw [Store.apply_put_self]
        exact mem_upsert_self r' (db τ)
      · refine ⟨τ, r, ?_, hk⟩
        rw [Store.apply_put_self]
        exact mem_upsert_of_ne hr hid
    · refine ⟨τ, r, ?_, hk⟩
      rwa [Store.apply_put_of_ne _ _ hτ]
  | remove τ' id =>
    have hτ : τ ≠ τ' := by
      rintro rfl
      exact hremove τ id rfl (X.lasting_of_provides hk)
    refine ⟨τ, r, ?_, hk⟩
    simpa [Store.apply, Function.update_of_ne hτ] using hr

/-- What is supplied is held once the changes are applied. -/
theorem Supplied.applyAll (hagree : X.Agree db cs)
    (hremove : ∀ τ id, .remove τ id ∈ cs → ¬X.lasting τ) (h : X.Supplied db cs k) :
    X.Held (db.applyAll cs) k := by
  induction cs generalizing db with
  | nil =>
    rcases h with hheld | ⟨τ, r, hput, -⟩
    · exact hheld
    · exact absurd hput List.not_mem_nil
  | cons c cs ih =>
    have hfirst : X.Agree db [c] := hagree.of_among fun τ r hr => hr.imp_right fun hput =>
      List.mem_cons.2 (.inl (List.mem_singleton.1 hput))
    have hrest : X.Agree (db.apply c) cs := hagree.of_among fun τ r hr => by
      rcases hr with hr | hput
      · rcases Store.mem_apply hr with hr | rfl
        · exact .inl hr
        · exact .inr List.mem_cons_self
      · exact .inr (List.mem_cons_of_mem c hput)
    refine ih hrest (fun τ id hmem => hremove τ id (List.mem_cons_of_mem c hmem)) ?_
    -- it was held already, or one of the changes supplies it
    rcases h with hheld | ⟨τ, r, hput, hk⟩
    · have hnot : ∀ τ id, c = .remove τ id → ¬X.lasting τ := by
        rintro τ id rfl
        exact hremove τ id List.mem_cons_self
      exact .inl (hheld.apply hfirst hnot)
    · rcases List.mem_cons.1 hput with rfl | hput
      · refine .inl ⟨τ, r, ?_, hk⟩
        rw [Store.apply_put_self]
        exact mem_upsert_self r (db τ)
      · exact .inr ⟨τ, r, hput, hk⟩

/-! ## The discipline of a transaction -/

/-- The keys that a program knows to be supplied, and those it knew at each savepoint. -/
structure Knowledge (X : Dependencies D) where
  keys : Set X.Key
  marks : List (ℕ × Set X.Key)

/-- A program that knows nothing. -/
def Knowledge.empty : X.Knowledge := ⟨∅, []⟩

/-- The keys of a row: one that is read is one whose needs are met. -/
def keysOf (X : Dependencies D) {τ : D.Table} (r : D.Row τ) : Set X.Key :=
  {k | k ∈ X.provides τ r ∨ k ∈ X.needs τ r}

def Knowledge.learn (ph : X.Knowledge) (keys : Set X.Key) : X.Knowledge :=
  { ph with keys := ph.keys ∪ keys }

/-- The savepoints from the last one named `i` on. -/
def Knowledge.marksFrom (ph : X.Knowledge) (i : ℕ) : List (ℕ × Set X.Key) :=
  ph.marks.dropWhile (·.1 ≠ i)

/-- What a program knows after a statement. -/
def Knowledge.next (ph : X.Knowledge) : (s : Stmt D) → Except String s.Result → X.Knowledge
  | .select _ _, .ok rows => ph.learn {k | ∃ r ∈ rows, k ∈ X.keysOf r}
  | .insert _ _, .ok r => ph.learn (X.keysOf r)
  | .savepoint i, .ok _ => { ph with marks := (i, ph.keys) :: ph.marks }
  | .release i, .ok _ => { ph with marks := (ph.marksFrom i).tail }
  | .rollbackTo i, .ok _ =>
    match ph.marksFrom i with
    | [] => ph
    | m :: ms => ⟨m.2, m :: ms⟩
  | .commit, _ | .rollback, _ => .empty
  | _, _ => ph

/-- A program only inserts rows that need what it knows, and only updates rows to need no more. -/
def Knowledge.Allows (ph : X.Knowledge) : Stmt D → Prop
  | .insert τ row => ∀ id time r, row id time = .ok r →
    D.id τ r = id ∧ X.sound τ r ∧ ∀ k ∈ X.needs τ r, k ∈ ph.keys
  | .insertIgnore τ row => ∀ id time,
    D.id τ (row id time) = id ∧ X.sound τ (row id time) ∧ ∀ k ∈ X.needs τ (row id time), k ∈ ph.keys
  | .update τ _ set => ∀ time r r', set time r = .ok r' →
    D.id τ r' = D.id τ r ∧ X.provides τ r' = X.provides τ r ∧ (X.sound τ r → X.sound τ r') ∧
      X.needs τ r' ⊆ X.needs τ r
  | .delete τ _ => ¬X.lasting τ
  | _ => True

/-- What a program can rely on of the answer to a statement. -/
def Answers : (s : Stmt D) → Except String s.Result → Prop
  | .select _ p, .ok rows => ∀ r ∈ rows, p r = true
  | .insert _ row, .ok r => ∃ id time, row id time = .ok r
  | _, _ => True

def discipline (X : Dependencies D) : Protocol (storeSignature D) X.Knowledge where
  allows := Knowledge.Allows
  answers _ := Answers
  next := Knowledge.next

/-- The transaction bears out what its program knows. -/
structure Supports (X : Dependencies D) (db : Store D) (tx : Tx D) (ph : X.Knowledge) : Prop where
  keys : ∀ k ∈ ph.keys, X.Supplied db tx.pending k
  marks : List.Forall₂ (fun sp m => sp.1 = m.1 ∧ ∀ k ∈ m.2, X.Supplied db (tx.pending.take sp.2) k)
    tx.savepoints ph.marks

/-- The rows of the store are sound, and what they need is held. -/
def Met (X : Dependencies D) (db : Store D) : Prop :=
  ∀ τ, ∀ r ∈ db τ, X.sound τ r ∧ ∀ k ∈ X.needs τ r, X.Held db k

section Statements

variable {tx : Tx D} {ph : X.Knowledge} {id : D.Id} {time : ℤ}

theorem Supports.store {db' : Store D} (hheld : ∀ k, X.Held db k → X.Held db' k)
    (h : X.Supports db tx ph) :
    X.Supports db' tx ph :=
  ⟨fun k hk => (h.keys k hk).store hheld,
    h.marks.imp fun _ _ ⟨hname, hkeys⟩ => ⟨hname, fun k hk => (hkeys k hk).store hheld⟩⟩

theorem supports_idle : X.Supports db .idle .empty := ⟨fun _ hk => hk.elim, .nil⟩

/-- A row that the transaction sees is sound, and what it needs is supplied. -/
theorem Met.view (hmet : X.Met db) (hgrounded : X.Grounded db tx.pending) {τ : D.Table}
    {r : D.Row τ} (hr : r ∈ tx.view db τ) :
    X.sound τ r ∧ ∀ k ∈ X.needs τ r, X.Supplied db tx.pending k := by
  rcases Store.mem_applyAll hr with hr | hput
  · obtain ⟨hsound, hneeds⟩ := hmet τ r hr
    exact ⟨hsound, fun k hk => .inl (hneeds k hk)⟩
  · exact hgrounded.fits hput

/-- What is read of such a row is supplied. -/
theorem Met.keysOf (hmet : X.Met db) (hgrounded : X.Grounded db tx.pending) {τ : D.Table}
    {r : D.Row τ} (hr : r ∈ tx.view db τ) : ∀ k ∈ X.keysOf r, X.Supplied db tx.pending k := by
  rintro k (hk | hk)
  · rcases Store.mem_applyAll hr with hr | hput
    · exact .inl ⟨τ, r, hr, hk⟩
    · exact .inr ⟨τ, r, hput, hk⟩
  · exact (hmet.view hgrounded hr).2 k hk

/-- The changes of a statement that the discipline allows: one row with the id that is drawn, or
rows that provide what they provided before. -/
theorem fits_of_allowed (hmet : X.Met db) (hgrounded : X.Grounded db tx.pending)
    (hkeys : ∀ k ∈ ph.keys, X.Supplied db tx.pending k) {s : Stmt D} (hallows : ph.Allows s)
    {v : s.Result} (ha : Answered db tx id time s (.ok v)) {c : Change D}
    (hc : c ∈ (tx.view db).writes s v) :
    X.Fits db tx.pending c ∧ ∀ τ r, c = .put τ r →
      (D.id τ r = id ∧ (tx.view db).writes s v = [c]) ∨
        ∃ r₀ ∈ tx.view db τ, D.id τ r = D.id τ r₀ ∧ X.provides τ r = X.provides τ r₀ := by
  cases s with
  -- an insert: the new row needs only what the session knows
  | insert τ row =>
    obtain rfl := List.mem_singleton.1 hc
    obtain ⟨hid, hsound, hneeds⟩ := hallows id time v ha.insert
    refine ⟨⟨hsound, fun k hk => hkeys k (hneeds k hk)⟩, ?_⟩
    rintro τ' r' ⟨⟩
    exact .inl ⟨hid, rfl⟩
  | insertIgnore τ row =>
    obtain ⟨r, hr, rfl⟩ := List.mem_map.1 hc
    obtain rfl : v = some r := Option.mem_toList.1 hr
    obtain ⟨hid, hsound, hneeds⟩ := hallows id time
    rw [← ha.insertIgnore] at hid hsound hneeds
    refine ⟨⟨hsound, fun k hk => hkeys k (hneeds k hk)⟩, ?_⟩
    rintro τ' r' ⟨⟩
    exact .inl ⟨hid, rfl⟩
  -- an update: the row provides what it did, and needs no more than it did
  | update τ p set =>
    obtain ⟨r', hr', rfl⟩ := List.mem_map.1 hc
    obtain ⟨r, hr, hset⟩ := mem_setRows ha.view_answer hr'
    have hview : r ∈ tx.view db τ := (List.mem_filter.1 hr).1
    obtain ⟨hid, hprovides, hsound, hneeds⟩ := hallows time r r' hset
    obtain ⟨hsound₀, hneeds₀⟩ := hmet.view hgrounded hview
    refine ⟨⟨hsound hsound₀, fun k hk => hneeds₀ k (hneeds hk)⟩, ?_⟩
    rintro τ' r'' ⟨⟩
    exact .inr ⟨r, hview, hid, hprovides⟩
  | delete τ p =>
    obtain ⟨r, -, rfl⟩ := List.mem_map.1 hc
    exact ⟨hallows, fun τ r h => by cases h⟩
  | _ => exact absurd hc List.not_mem_nil

/-! ### Savepoints -/

/-- Later savepoints have more changes before them, and none has more than there are. -/
structure Ordered (tx : Tx D) : Prop where
  sorted : tx.savepoints.Pairwise fun sp sp' => sp'.2 ≤ sp.2
  bounded : ∀ sp ∈ tx.savepoints, sp.2 ≤ tx.pending.length

theorem ordered_idle : Ordered (.idle : Tx D) := ⟨.nil, fun _ h => absurd h List.not_mem_nil⟩

theorem Ordered.after (h : Ordered tx) (s : Stmt D) (a : Except String s.Result) :
    Ordered (tx.after db s a) := by
  have hfrom : ∀ i, (tx.from? i).Sublist tx.savepoints := fun i => List.dropWhile_sublist _
  cases s with
  | commit => exact ordered_idle
  | rollback => exact ordered_idle
  | now => exact h
  | draw => exact h
  | savepoint i =>
    cases a with
    | error code => exact ⟨h.sorted, h.bounded⟩
    | ok v =>
      refine ⟨List.pairwise_cons.2 ⟨fun sp hsp => h.bounded sp hsp, h.sorted⟩, ?_⟩
      intro sp hsp
      -- the new savepoint is at the end of what is pending
      rcases List.mem_cons.1 hsp with rfl | hsp
      · exact Nat.le_refl _
      · exact h.bounded sp hsp
  | release i =>
    cases a with
    | error code => exact ⟨h.sorted, h.bounded⟩
    | ok v =>
      have hsub : (tx.from? i).tail.Sublist tx.savepoints := (List.tail_sublist _).trans (hfrom i)
      exact ⟨h.sorted.sublist hsub, fun sp hsp => h.bounded sp (hsub.subset hsp)⟩
  | rollbackTo i =>
    cases a with
    | error code => exact ⟨h.sorted, h.bounded⟩
    | ok v =>
      simp only [Tx.after]
      split
      case h_1 => exact h
      case h_2 sp sps hsp =>
        have hsub : (sp :: sps).Sublist tx.savepoints := hsp ▸ hfrom i
        have hsorted := h.sorted.sublist hsub
        refine ⟨hsorted, fun sp' hsp' => ?_⟩
        -- what is pending is cut at the savepoint, and the earlier ones are not beyond it
        rw [List.length_take_of_le (h.bounded sp (hsub.subset List.mem_cons_self))]
        rcases List.mem_cons.1 hsp' with rfl | hsp'
        · exact Nat.le_refl _
        · exact (List.pairwise_cons.1 hsorted).1 sp' hsp'
  | _ =>
    cases a with
    | error code => exact ⟨h.sorted, h.bounded⟩
    | ok v =>
      refine ⟨h.sorted, fun sp hsp => (h.bounded sp hsp).trans ?_⟩
      simp only [Tx.after, List.length_append]
      omega

/-! ### What a statement keeps -/

theorem Grounded.after (hmet : X.Met db) (hgrounded : X.Grounded db tx.pending)
    (h : X.Supports db tx ph) {s : Stmt D} (hallows : ph.Allows s) {a : Except String s.Result}
    (ha : Answered db tx id time s a) :
    X.Grounded db (tx.after db s a).pending := by
  rcases pending_after db tx s a with ⟨n, htake⟩ | ⟨v, rfl, happend⟩
  · rw [htake]
    exact hgrounded.take n
  · rw [happend]
    exact hgrounded.append fun c hc => (fits_of_allowed hmet hgrounded h.keys hallows ha hc).1

theorem Supports.learn (h : X.Supports db tx ph) {keys : Set X.Key}
    (hkeys : ∀ k ∈ keys, X.Supplied db tx.pending k) : X.Supports db tx (ph.learn keys) := by
  refine ⟨?_, h.marks⟩
  rintro k (hk | hk)
  · exact h.keys k hk
  · exact hkeys k hk

/-- Further changes take nothing away of what is supplied. -/
theorem Supports.append (h : X.Supports db tx ph) (ws : List (Change D)) :
    X.Supports db { tx with pending := tx.pending ++ ws } ph := by
  refine ⟨fun k hk => (h.keys k hk).subset (List.subset_append_left _ _), ?_⟩
  refine h.marks.imp fun sp m ⟨hname, hkeys⟩ => ⟨hname, fun k hk => (hkeys k hk).subset ?_⟩
  rw [List.take_append]
  exact List.subset_append_left _ _

/-- The savepoints and what was known at them, from the last one with a name on. -/
theorem Supports.marksFrom (h : X.Supports db tx ph) (i : ℕ) :
    List.Forall₂ (fun sp m => sp.1 = m.1 ∧ ∀ k ∈ m.2, X.Supplied db (tx.pending.take sp.2) k)
      (tx.from? i) (ph.marksFrom i) := by
  unfold Tx.from? Knowledge.marksFrom
  have hmarks := h.marks
  generalize tx.savepoints = sps at hmarks ⊢
  generalize ph.marks = ms at hmarks ⊢
  induction hmarks with
  | nil => exact .nil
  | @cons sp m sps ms hfirst hrest ih =>
    rw [List.dropWhile_cons, List.dropWhile_cons, hfirst.1]
    split
    · exact ih
    · exact .cons hfirst hrest

theorem Supports.after (hmet : X.Met db) (hgrounded : X.Grounded db tx.pending)
    (hordered : Ordered tx) (h : X.Supports db tx ph) {s : Stmt D} (hallows : ph.Allows s)
    {a : Except String s.Result} (ha : Answered db tx id time s a) :
    X.Supports db (tx.after db s a) (ph.next s a) := by
  have hgrounded' : X.Grounded db (tx.after db s a).pending := hgrounded.after hmet h hallows ha
  cases s with
  | commit => exact supports_idle
  | rollback => exact supports_idle
  | now => exact h
  | draw => exact h
  | select τ p =>
    cases a with
    | error code => exact ⟨h.keys, h.marks⟩
    | ok rows =>
      refine (h.append []).learn ?_
      rintro k ⟨r, hr, hk⟩
      have hview : r ∈ tx.view db τ := (ha.select r hr).1
      exact (hmet.keysOf hgrounded hview k hk).subset (List.subset_append_left _ _)
  | insert τ row =>
    cases a with
    | error code => exact ⟨h.keys, h.marks⟩
    | ok r =>
      refine (h.append [.put τ r]).learn ?_
      have hput : .put τ r ∈ tx.pending ++ [.put τ r] :=
        List.mem_append_right _ (List.mem_singleton.2 rfl)
      rintro k (hk | hk)
      · exact .inr ⟨τ, r, hput, hk⟩
      · exact (hgrounded'.fits hput).2 k hk
  | savepoint i =>
    cases a with
    | error code => exact ⟨h.keys, h.marks⟩
    | ok v =>
      refine ⟨h.keys, .cons ⟨rfl, fun k hk => ?_⟩ h.marks⟩
      have hall : X.Supplied db (tx.pending.take tx.pending.length) k := by
        rw [List.take_length]
        exact h.keys k hk
      exact hall
  | release i =>
    cases a with
    | error code => exact ⟨h.keys, h.marks⟩
    | ok v =>
      refine ⟨h.keys, ?_⟩
      have hfrom := h.marksFrom i
      change List.Forall₂ _ (tx.from? i).tail (ph.marksFrom i).tail
      generalize tx.from? i = sps at hfrom ⊢
      generalize ph.marksFrom i = ms at hfrom ⊢
      cases hfrom with
      | nil => exact .nil
      | cons hfirst hrest => exact hrest
  | rollbackTo i =>
    cases a with
    | error code => exact ⟨h.keys, h.marks⟩
    | ok v =>
      have hfrom := h.marksFrom i
      have hsub : (tx.from? i).Sublist tx.savepoints := List.dropWhile_sublist _
      have hsorted := hordered.sorted.sublist hsub
      simp only [Tx.after, Knowledge.next]
      generalize tx.from? i = sps at hfrom hsorted ⊢
      generalize ph.marksFrom i = ms at hfrom ⊢
      cases hfrom with
      | nil => exact h
      | @cons sp m sps ms hfirst hrest =>
        -- an older savepoint has fewer changes before it
        have hback : ∀ n, n ≤ sp.2 → (tx.pending.take sp.2).take n = tx.pending.take n := by
          intro n hn
          rw [List.take_take, Nat.min_eq_left hn]
        refine ⟨hfirst.2, .cons ⟨hfirst.1, fun k hk => ?_⟩ ?_⟩
        · exact (hfirst.2 k hk).subset (hback sp.2 (Nat.le_refl _) ▸ List.Subset.refl _)
        · have holder := (List.pairwise_cons.1 hsorted).1
          refine ((List.forall₂_and_left sps ms).2 ⟨holder, hrest⟩).imp ?_
          rintro sp' m' ⟨hle, hname, hkeys⟩
          exact ⟨hname, fun k hk => (hkeys k hk).subset (hback sp'.2 hle ▸ List.Subset.refl _)⟩
  | _ =>
    cases a with
    | error code => exact ⟨h.keys, h.marks⟩
    | ok v => exact h.append _

end Statements

/-! ## Rules for programs -/

section Programs

variable {ε α : Type} {ph ph' ph'' : X.Knowledge} {keys : Set X.Key}

/-- Whoever knows `ph'` knows at least as much as with `ph`, and has the same savepoints. -/
structure Knowledge.Extends (ph ph' : X.Knowledge) : Prop where
  keys : ph.keys ⊆ ph'.keys
  marks : ph'.marks = ph.marks

theorem Knowledge.Extends.refl (ph : X.Knowledge) : ph.Extends ph := ⟨fun _ h => h, rfl⟩

theorem Knowledge.Extends.trans (h : ph.Extends ph') (h' : ph'.Extends ph'') : ph.Extends ph'' :=
  ⟨h.keys.trans h'.keys, h'.marks.trans h.marks⟩

theorem Knowledge.extends_learn (ph : X.Knowledge) (keys : Set X.Key) :
    ph.Extends (ph.learn keys) :=
  ⟨fun _ h => .inl h, rfl⟩

/-- The statement is allowed whatever the program knows. -/
def Always (X : Dependencies D) (s : Stmt D) : Prop := ∀ ph : X.Knowledge, ph.Allows s

/-- Programs that only issue such statements keep to the discipline. -/
theorem follows_of_uses {p : Prog (storeSignature D) ε α} (h : p.Uses X.Always) :
    p.Follows X.discipline (fun _ _ => True) ph :=
  Prog.Uses.follows (I := fun _ => True) (fun ph _ hs _ => ⟨hs ph, fun _ => trivial⟩) h trivial

/-- Programs that only read know more and more. -/
theorem follows_of_reads {p : Prog (storeSignature D) ε α}
    (h : p.Uses fun s => ∃ τ q, s = Stmt.select τ q) :
    p.Follows X.discipline (fun ph' _ => ph.Extends ph') ph := by
  refine Prog.Uses.follows (I := fun ph' => ph.Extends ph') ?_ h (.refl ph)
  rintro ph' s ⟨τ, q, rfl⟩ hph'
  refine ⟨trivial, fun a => ?_⟩
  cases a with
  | error code => exact hph'
  | ok rows => exact hph'.trans (ph'.extends_learn _)

/-- What is read is known from then on. -/
theorem issues_select {τ : D.Table} {p : D.Row τ → Bool}
    {Q : X.Knowledge → Except String (List (D.Row τ)) → Prop}
    (hok : ∀ rows ph', ph.Extends ph' → (∀ r ∈ rows, p r = true ∧ X.keysOf r ⊆ ph'.keys) →
      Q ph' (.ok rows))
    (hfail : ∀ code, Q ph (.error code)) : X.discipline.Issues ph (.select τ p) Q := by
  refine ⟨trivial, fun a ha => ?_⟩
  cases a with
  | error code => exact hfail code
  | ok rows =>
    refine hok rows _ (ph.extends_learn _) fun r hr => ⟨ha r hr, fun k hk => ?_⟩
    exact .inr ⟨r, hr, hk⟩

/-- So is what is inserted. -/
theorem issues_insert {τ : D.Table} {row : D.Id → ℤ → Except String (D.Row τ)}
    {Q : X.Knowledge → Except String (D.Row τ) → Prop} (hallows : ph.Allows (.insert τ row))
    (hok : ∀ r ph', ph.Extends ph' → (∃ id time, row id time = .ok r) → X.keysOf r ⊆ ph'.keys →
      Q ph' (.ok r))
    (hfail : ∀ code, Q ph (.error code)) : X.discipline.Issues ph (.insert τ row) Q := by
  refine ⟨hallows, fun a ha => ?_⟩
  cases a with
  | error code => exact hfail code
  | ok r => exact hok r _ (ph.extends_learn _) ha fun k hk => .inr hk

end Programs

end Dependencies

end BookingPlatform.Library
