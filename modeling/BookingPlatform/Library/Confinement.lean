import BookingPlatform.Library.Session
import Mathlib.Data.Set.Basic

/-!
# Programs Confined to a Part of the Store

Some rows of a store are a program's own. If every statement that it issues only finds rows of its
own, and only writes such rows, then it computes the same as on the store that has nothing else, and
the other rows stay as they are. A statement that names a row by its id is confined when the program
has got the id from a row of its own.

## Main definitions

- `Domain`: which rows are a program's own.
- `Domain.confinement`: the statements that it may issue, by the ids that it knows.

## Main results

- `Domain.Beside.run`: a confined program runs as on its own rows.
-/

namespace BookingPlatform.Library

variable {D : Schema}

/-- A row that a filter leaves out is put among rows that it leaves out. -/
theorem filter_upsert_of_not {τ : D.Table} {q : D.Row τ → Bool} {r : D.Row τ}
    {rows : List (D.Row τ)} (hr : q r = false)
    (hrows : ∀ x ∈ rows, D.id τ x = D.id τ r → q x = false) :
    (upsert r rows).filter q = rows.filter q := by
  induction rows with
  | nil => simp [upsert, hr]
  | cons x rows ih =>
    have hrest := ih fun y hy => hrows y (List.mem_cons_of_mem x hy)
    by_cases hid : D.id τ x = D.id τ r
    · have hx : q x = false := hrows x List.mem_cons_self hid
      simp [upsert, hid, hr, hx]
    · simp [upsert, hid, List.filter_cons, hrest]

/-- The rows of a program. Sound rows of its own and of others do not conflict, unless they have one
id. -/
structure Domain (D : Schema) where
  own : (τ : D.Table) → D.Row τ → Bool
  sound : (τ : D.Table) → D.Row τ → Prop
  apart : ∀ {τ : D.Table} {r f : D.Row τ}, own τ r = true → own τ f = false →
    sound τ r → sound τ f →
    D.id τ f ≠ D.id τ r → D.conflict τ f r = none

namespace Domain

variable (X : Domain D)

/-! ## Stores -/

/-- The rows of the program. -/
def ownRows (db : Store D) : Store D := fun τ => (db τ).filter (X.own τ)

/-- The rows of others. -/
def otherRows (db : Store D) : Store D := fun τ => (db τ).filter fun r => !X.own τ r

/-- None of the rows of others in the table has the id. -/
def Spare (db : Store D) (τ : D.Table) (id : D.Id) : Prop :=
  ∀ f ∈ db τ, X.own τ f = false → D.id τ f ≠ id

/-- All rows are sound, and rows of the program and rows of others have different ids. -/
structure Separate (db : Store D) : Prop where
  sound : ∀ τ, ∀ r ∈ db τ, X.sound τ r
  spare : ∀ τ, ∀ r ∈ db τ, X.own τ r = true → X.Spare db τ (D.id τ r)

/-- A change that concerns no row of others. -/
def Within (db : Store D) : Change D → Prop
  | .put τ r => X.own τ r = true ∧ X.sound τ r ∧ X.Spare db τ (D.id τ r)
  | .remove τ id => X.Spare db τ id

variable {X} {db db' : Store D} {τ : D.Table} {r : D.Row τ} {rows : List (D.Row τ)}

theorem mem_otherRows {f : D.Row τ} : f ∈ X.otherRows db τ ↔ f ∈ db τ ∧ X.own τ f = false := by
  simp [otherRows]

/-- It depends on the rows of others only. -/
theorem Spare.congr {id : D.Id} (h : X.Spare db τ id) (hothers : X.otherRows db' = X.otherRows db) :
    X.Spare db' τ id := by
  intro f hf hforeign
  have hmem : f ∈ X.otherRows db τ := hothers ▸ mem_otherRows.2 ⟨hf, hforeign⟩
  exact h f (mem_otherRows.1 hmem).1 hforeign

theorem Within.congr {c : Change D} (h : X.Within db c)
    (hothers : X.otherRows db' = X.otherRows db) :
    X.Within db' c := by
  cases c with
  | put τ r => exact ⟨h.1, h.2.1, h.2.2.congr hothers⟩
  | remove τ id => exact Spare.congr h hothers

/-- A store with primary keys whose rows are sound. -/
theorem separate_of_keyed (hkeyed : db.Keyed) (hsound : ∀ τ, ∀ r ∈ db τ, X.sound τ r) :
    X.Separate db := by
  refine ⟨hsound, fun τ r hr hown f hf hforeign hid => ?_⟩
  obtain rfl : f = r := List.inj_on_of_nodup_map (hkeyed τ) hf hr hid
  cases hown.symm.trans hforeign

/-- A row is put among the rows of the program. -/
theorem filter_own_upsert (hown : X.own τ r = true)
    (hspare : ∀ f ∈ rows, X.own τ f = false → D.id τ f ≠ D.id τ r) :
    (upsert r rows).filter (X.own τ) = upsert r (rows.filter (X.own τ)) := by
  induction rows with
  | nil => simp [upsert, hown]
  | cons x rows ih =>
    have hrest := ih fun f hf => hspare f (List.mem_cons_of_mem x hf)
    by_cases hid : D.id τ x = D.id τ r
    · have hx : X.own τ x = true := by
        by_contra hforeign
        exact hspare x List.mem_cons_self (Bool.not_eq_true _ ▸ hforeign) hid
      simp [upsert, hid, hx, hown]
    · cases hx : X.own τ x with
      | true => simp [upsert, hid, hx, hrest]
      | false => simp [upsert, hid, hx, hrest]

/-- The rows of others stay. -/
theorem filter_other_upsert (hown : X.own τ r = true)
    (hspare : ∀ f ∈ rows, X.own τ f = false → D.id τ f ≠ D.id τ r) :
    ((upsert r rows).filter fun x => !X.own τ x) = rows.filter fun x => !X.own τ x := by
  apply filter_upsert_of_not
  · simp [hown]
  · intro x hx hid
    by_contra hforeign
    exact hspare x hx (by simpa using hforeign) hid

theorem ownRows_apply {c : Change D} (h : X.Within db c) :
    X.ownRows (db.apply c) = (X.ownRows db).apply c := by
  funext σ
  cases c with
  | put τ r =>
    -- a change of one table leaves the others alone
    by_cases hσ : σ = τ
    · subst hσ
      rw [ownRows, Store.apply_put_self, Store.apply_put_self]
      exact filter_own_upsert h.1 h.2.2
    · rw [ownRows, Store.apply_put_of_ne _ _ hσ, Store.apply_put_of_ne _ _ hσ]
      rfl
  | remove τ id =>
    by_cases hσ : σ = τ
    · subst hσ
      simp only [ownRows, Store.apply, Function.update_self, List.filter_filter]
      exact List.filter_congr fun r _ => Bool.and_comm _ _
    · simp only [ownRows, Store.apply, Function.update_of_ne hσ]

theorem otherRows_apply {c : Change D} (h : X.Within db c) :
    X.otherRows (db.apply c) = X.otherRows db := by
  funext σ
  cases c with
  | put τ r =>
    by_cases hσ : σ = τ
    · subst hσ
      rw [otherRows, Store.apply_put_self]
      exact filter_other_upsert h.1 h.2.2
    · rw [otherRows, Store.apply_put_of_ne _ _ hσ]
      rfl
  | remove τ id =>
    by_cases hσ : σ = τ
    · subst hσ
      simp only [otherRows, Store.apply, Function.update_self, List.filter_filter]
      refine List.filter_congr fun f hf => ?_
      -- a foreign row does not have the id that is removed
      cases hforeign : X.own σ f with
      | true => simp
      | false => simpa using h f hf hforeign
    · simp only [otherRows, Store.apply, Function.update_of_ne hσ]

theorem Separate.apply {c : Change D} (h : X.Separate db) (hc : X.Within db c) :
    X.Separate (db.apply c) := by
  have hmem : ∀ σ, ∀ x ∈ db.apply c σ, x ∈ db σ ∨ c = .put σ x := fun σ x hx => Store.mem_apply hx
  refine ⟨fun σ x hx => ?_, fun σ x hx hown => ?_⟩
  · rcases hmem σ x hx with hx | rfl
    · exact h.sound σ x hx
    · exact hc.2.1
  · refine Spare.congr ?_ (otherRows_apply hc)
    rcases hmem σ x hx with hx | rfl
    · exact h.spare σ x hx hown
    · exact hc.2.2

/-- The changes of a transaction, one after the other. -/
theorem applyAll_within {cs : List (Change D)} (h : X.Separate db) (hcs : ∀ c ∈ cs, X.Within db c) :
    X.ownRows (db.applyAll cs) = (X.ownRows db).applyAll cs ∧
      X.otherRows (db.applyAll cs) = X.otherRows db ∧ X.Separate (db.applyAll cs) := by
  induction cs generalizing db with
  | nil => exact ⟨rfl, rfl, h⟩
  | cons c cs ih =>
    have hc : X.Within db c := hcs c List.mem_cons_self
    have hrest : ∀ c' ∈ cs, X.Within (db.apply c) c' := fun c' hc' =>
      (hcs c' (List.mem_cons_of_mem c hc')).congr (otherRows_apply hc)
    obtain ⟨hown, hother, hseparate⟩ := ih (h.apply hc) hrest
    refine ⟨?_, hother.trans (otherRows_apply hc), hseparate⟩
    exact hown.trans (congrArg (Store.applyAll · cs) (ownRows_apply hc))

/-! ## The discipline -/

/-- The ids that a program has got from rows of its own. -/
abbrev Ids (D : Schema) : Type := (τ : D.Table) → Set D.Id

/-- The ids of rows that are read or inserted are known from then on. -/
def nextIds (ph : Ids D) : (s : Stmt D) → Except String s.Result → Ids D
  | .select τ _, .ok rows => Function.update ph τ (ph τ ∪ {id | ∃ r ∈ rows, D.id τ r = id})
  | .insertIgnore τ _, .ok (some r) => Function.update ph τ (ph τ ∪ {D.id τ r})
  | _, _ => ph

theorem mem_update_union {ph : Ids D} {σ : D.Table} {ids : Set D.Id} {id : D.Id} :
    id ∈ Function.update ph σ (ph σ ∪ ids) τ ↔ id ∈ ph τ ∨ τ = σ ∧ id ∈ ids := by
  by_cases hσ : τ = σ
  · subst hσ
    simp
  · simp [hσ]

/-- Ids stay known. -/
theorem mem_nextIds {ph : Ids D} {s : Stmt D} {a : Except String s.Result} {id : D.Id}
    (h : id ∈ ph τ) :
    id ∈ nextIds ph s a τ := by
  cases a with
  | error code => cases s <;> exact h
  | ok v =>
    cases s with
    | select σ p => exact mem_update_union.2 (.inl h)
    | insertIgnore σ row =>
      cases v with
      | none => exact h
      | some r => exact mem_update_union.2 (.inl h)
    | _ => exact h

theorem mem_nextIds_select {ph : Ids D} {p : D.Row τ → Bool} (hr : r ∈ rows) :
    D.id τ r ∈ nextIds ph (.select τ p) (.ok rows) τ :=
  mem_update_union.2 (.inr ⟨rfl, r, hr, rfl⟩)

theorem mem_nextIds_insertIgnore {ph : Ids D} {row : D.Id → ℤ → D.Row τ} :
    D.id τ r ∈ nextIds ph (.insertIgnore τ row) (.ok (some r)) τ :=
  mem_update_union.2 (.inr ⟨rfl, rfl⟩)

/-- A where clause that finds rows of the program only. -/
def Finds (X : Domain D) (ph : Ids D) (τ : D.Table) (p : D.Row τ → Bool) : Prop :=
  ∀ r, X.sound τ r → p r = true → X.own τ r = true ∨ D.id τ r ∈ ph τ

/-- A program finds its own rows, by what they are or by ids that it knows, and writes such rows. -/
def Allows (X : Domain D) (ph : Ids D) : Stmt D → Prop
  | .select τ p => X.Finds ph τ p
  | .insert τ row => ∀ id time r, row id time = .ok r → D.id τ r = id ∧
    X.own τ r = true ∧ X.sound τ r
  | .insertIgnore τ row => ∀ id time,
    D.id τ (row id time) = id ∧ X.own τ (row id time) = true ∧ X.sound τ (row id time)
  | .update τ p set => X.Finds ph τ p ∧ ∀ time r r', set time r = .ok r' →
    D.id τ r' = D.id τ r ∧ X.own τ r' = X.own τ r ∧ (X.sound τ r → X.sound τ r')
  | .delete τ p => X.Finds ph τ p
  | _ => True

def confinement (X : Domain D) : Protocol (storeSignature D) (Ids D) where
  allows := X.Allows
  answers _ _ _ := True
  next := nextIds

/-- The ids that are known are in no row of others. -/
def Known (X : Domain D) (db : Store D) (ph : Ids D) : Prop := ∀ τ, ∀ id ∈ ph τ, X.Spare db τ id

/-! ## Statements -/

section Statements

variable {ph : Ids D} {id : D.Id} {time : ℤ} {p : D.Row τ → Bool}

/-- A where clause that finds own rows only finds the same among them. -/
theorem Finds.own (hfinds : X.Finds ph τ p) (h : X.Separate db) (hknown : X.Known db ph) :
    ∀ r ∈ db τ, p r = true → X.own τ r = true := by
  intro r hr hp
  rcases hfinds r (h.sound τ r hr) hp with hown | hid
  · exact hown
  · by_contra hforeign
    exact hknown τ _ hid r hr (Bool.not_eq_true _ ▸ hforeign) rfl

theorem Finds.filter (hfinds : X.Finds ph τ p) (h : X.Separate db) (hknown : X.Known db ph) :
    (X.ownRows db τ).filter p = (db τ).filter p := by
  rw [ownRows, List.filter_filter]
  refine List.filter_congr fun r hr => ?_
  cases hp : p r with
  | false => rfl
  | true => simp [hfinds.own h hknown r hr hp]

/-- Rows of others do not get in the way of a row. -/
theorem refusal_own (hown : X.own τ r = true) (hsound : X.sound τ r)
    (hrows : ∀ f ∈ rows, X.own τ f = false → X.sound τ f ∧ D.id τ f ≠ D.id τ r) :
    refusal (rows.filter (X.own τ)) r = refusal rows r := by
  unfold refusal
  induction rows with
  | nil => rfl
  | cons x rows ih =>
    have hrest := ih fun f hf => hrows f (List.mem_cons_of_mem x hf)
    cases hx : X.own τ x with
    | true => rw [List.filter_cons_of_pos hx, List.findSome?_cons, List.findSome?_cons, hrest]
    | false =>
      obtain ⟨hfsound, hid⟩ := hrows x List.mem_cons_self hx
      simp [hx, hrest, X.apart hown hx hsound hfsound hid]

/-- Neither do they get in the way of an update, row by row. -/
theorem setRows_own {set : D.Row τ → Except String (D.Row τ)} {matching : List (D.Row τ)}
    (hset : ∀ r r', set r = .ok r' → D.id τ r' = D.id τ r ∧ X.own τ r' = X.own τ r ∧
      (X.sound τ r → X.sound τ r'))
    (hmatching : ∀ r ∈ matching, X.own τ r = true ∧ X.sound τ r ∧
      ∀ f ∈ rows, X.own τ f = false → D.id τ f ≠ D.id τ r)
    (hrows : ∀ f ∈ rows, X.own τ f = false → X.sound τ f) :
    setRows set matching (rows.filter (X.own τ)) = setRows set matching rows := by
  induction matching generalizing rows with
  | nil => rfl
  | cons r matching ih =>
    obtain ⟨hown, hsound, hspare⟩ := hmatching r List.mem_cons_self
    unfold setRows
    cases hr : set r with
    | error code => rfl
    | ok r' =>
      obtain ⟨hid, hown', hsound'⟩ := hset r r' hr
      have hownr' : X.own τ r' = true := hown'.trans hown
      have hsparer' : ∀ f ∈ rows, X.own τ f = false → D.id τ f ≠ D.id τ r' := by
        intro f hf hforeign
        rw [hid]
        exact hspare f hf hforeign
      have hswap : ((rows.filter (X.own τ)).filter fun x => D.id τ x ≠ D.id τ r') =
          (rows.filter fun x => D.id τ x ≠ D.id τ r').filter (X.own τ) := by
        rw [List.filter_filter, List.filter_filter]
        exact List.filter_congr fun x _ => Bool.and_comm _ _
      have hrefusal : refusal ((rows.filter (X.own τ)).filter fun x => D.id τ x ≠ D.id τ r') r' =
          refusal (rows.filter fun x => D.id τ x ≠ D.id τ r') r' := by
        rw [hswap]
        refine refusal_own hownr' (hsound' hsound) fun f hf hforeign => ?_
        have hf := (List.mem_filter.1 hf).1
        exact ⟨hrows f hf hforeign, hsparer' f hf hforeign⟩
      -- the rows of others are the same after the row is set
      have hforeign : ∀ f ∈ upsert r' rows, X.own τ f = false → f ∈ rows := by
        intro f hf hother
        rcases mem_upsert hf with rfl | hf
        · cases hownr'.symm.trans hother
        · exact hf
      have hrest := @ih (upsert r' rows)
        (fun x hx => by
          obtain ⟨hx₁, hx₂, hx₃⟩ := hmatching x (List.mem_cons_of_mem r hx)
          exact ⟨hx₁, hx₂, fun f hf hother => hx₃ f (hforeign f hf hother) hother⟩)
        fun f hf hother => hrows f (hforeign f hf hother) hother
      rw [filter_own_upsert hownr' hsparer'] at hrest
      simp only [hrefusal, hrest]

/-- A statement that the discipline allows has the same answer on the own rows. -/
theorem answer_ownRows (h : X.Separate db) (hknown : X.Known db ph) (hfresh : ∀ τ, X.Spare db τ id)
    {s : Stmt D} (hallows : X.Allows ph s) :
    (X.ownRows db).answer id time s = db.answer id time s := by
  cases s with
  | select τ p => exact congrArg Except.ok (Finds.filter hallows h hknown)
  | insert τ row =>
    cases hrow : row id time with
    | error code => simp only [Store.answer, hrow]
    | ok r =>
      obtain ⟨hid, hown, hsound⟩ := hallows id time r hrow
      -- foreign rows refuse nothing: their ids differ, and they do not conflict
      have hrefusal : refusal (X.ownRows db τ) r = refusal (db τ) r :=
        refusal_own hown hsound fun f hf hforeign => ⟨h.sound τ f hf, hid ▸ hfresh τ f hf hforeign⟩
      simp only [Store.answer, hrow, hrefusal]
  | insertIgnore τ row =>
    obtain ⟨hid, hown, hsound⟩ := hallows id time
    have hrefusal : refusal (X.ownRows db τ) (row id time) = refusal (db τ) (row id time) :=
      refusal_own hown hsound fun f hf hforeign =>
        ⟨h.sound τ f hf, fun hf' => hfresh τ f hf hforeign (hf'.trans hid)⟩
    simp only [Store.answer, hrefusal]
  | update τ p set =>
    obtain ⟨hfinds, hset⟩ := hallows
    have hown := hfinds.own h hknown
    -- the rows that are set are the own ones, and no constraint sees the rest
    have hrows : setRows (set time) ((X.ownRows db τ).filter p) (X.ownRows db τ) =
        setRows (set time) ((db τ).filter p) (db τ) := by
      rw [hfinds.filter h hknown]
      refine setRows_own (fun r r' hr => hset time r r' hr) (fun r hr => ?_) fun f hf _ =>
        h.sound τ f hf
      obtain ⟨hr, hp⟩ := List.mem_filter.1 hr
      exact ⟨hown r hr hp, h.sound τ r hr, fun f hf hforeign =>
        h.spare τ r hr (hown r hr hp) f hf hforeign⟩
    exact hrows
  | delete τ p =>
    exact congrArg (fun rows : List (D.Row τ) =>
      Except.ok rows.length) (Finds.filter hallows h hknown)
  | _ => rfl

/-- So it writes the same, and nothing that concerns rows of others. -/
theorem writes_ownRows (h : X.Separate db) (hknown : X.Known db ph) {s : Stmt D}
    (hallows : X.Allows ph s) (v : s.Result) : (X.ownRows db).writes s v = db.writes s v := by
  cases s with
  | delete τ p =>
    exact congrArg (List.map fun r => Change.remove τ (D.id τ r)) (Finds.filter hallows h hknown)
  | _ => rfl

theorem within_of_writes (h : X.Separate db) (hknown : X.Known db ph)
    (hfresh : ∀ τ, X.Spare db τ id) {s : Stmt D} (hallows : X.Allows ph s) {v : s.Result}
    (hv : db.answer id time s = .ok v) {c : Change D} (hc : c ∈ db.writes s v) : X.Within db c := by
  cases s with
  | insert τ row =>
    obtain rfl := List.mem_singleton.1 hc
    cases hrow : row id time with
    | error code => simp only [Store.answer, hrow, reduceCtorEq] at hv
    | ok r =>
      obtain ⟨hid, hown, hsound⟩ := hallows id time r hrow
      -- only an accepted row is written
      cases hrefusal : refusal (db τ) r with
      | some code => simp only [Store.answer, hrow, hrefusal, reduceCtorEq] at hv
      | none =>
        simp only [Store.answer, hrow, hrefusal, Except.ok.injEq] at hv
        subst hv
        exact ⟨hown, hsound, hid.symm ▸ hfresh τ⟩
  | insertIgnore τ row =>
    obtain ⟨r, hr, rfl⟩ := List.mem_map.1 hc
    obtain rfl : v = some r := Option.mem_toList.1 hr
    obtain ⟨hid, hown, hsound⟩ := hallows id time
    cases hrefusal : refusal (db τ) (row id time) with
    | some code => simp [Store.answer, hrefusal] at hv
    | none =>
      simp only [Store.answer, hrefusal, Except.ok.injEq, Option.some.injEq] at hv
      subst hv
      refine ⟨hown, hsound, ?_⟩
      rw [hid]
      exact hfresh τ
  | update τ p set =>
    obtain ⟨r', hr', rfl⟩ := List.mem_map.1 hc
    obtain ⟨r, hr, hset⟩ := mem_setRows hv hr'
    obtain ⟨hr, hp⟩ := List.mem_filter.1 hr
    -- an update keeps the id and the owner of its row
    obtain ⟨hid, hown, hsound⟩ := hallows.2 time r r' hset
    have hown₀ : X.own τ r = true := hallows.1.own h hknown r hr hp
    refine ⟨hown.trans hown₀, hsound (h.sound τ r hr), ?_⟩
    rw [hid]
    exact h.spare τ r hr hown₀
  | delete τ p =>
    obtain ⟨r, hr, rfl⟩ := List.mem_map.1 hc
    obtain ⟨hr, hp⟩ := List.mem_filter.1 hr
    exact h.spare τ r hr (Finds.own hallows h hknown r hr hp)
  | _ => exact absurd hc List.not_mem_nil

theorem Known.union (hknown : X.Known db ph) {ids : Set D.Id} (hids : ∀ id ∈ ids, X.Spare db τ id) :
    X.Known db (Function.update ph τ (ph τ ∪ ids)) := by
  intro σ i hmem
  rcases mem_update_union.1 hmem with hi | ⟨rfl, hi⟩
  · exact hknown σ i hi
  · exact hids i hi

/-- The ids that a statement makes known are in no row of others. -/
theorem Known.next (hknown : X.Known db ph) (h : X.Separate db) (hfresh : ∀ τ, X.Spare db τ id)
    {s : Stmt D} (hallows : X.Allows ph s) {a : Except String s.Result}
    (ha : ∀ v, a = .ok v → db.answer id time s = .ok v) : X.Known db (nextIds ph s a) := by
  cases a with
  | error code => cases s <;> exact hknown
  | ok v =>
    have hv := ha v rfl
    cases s with
    -- what has been found is the session's own
    | select τ p =>
      obtain rfl := Except.ok.inj hv
      apply hknown.union
      rintro i ⟨r, hr, rfl⟩
      obtain ⟨hr, hp⟩ := List.mem_filter.1 hr
      exact h.spare τ r hr (Finds.own hallows h hknown r hr hp)
    | insertIgnore τ row =>
      cases v with
      | none => exact hknown
      -- the id that has been drawn is in no row of others
      | some r =>
        have hwithin : X.Within db (.put τ r) :=
          within_of_writes h hknown hfresh hallows hv (List.mem_singleton.2 rfl)
        apply hknown.union
        rintro i rfl
        exact hwithin.2.2
    | _ => exact hknown

end Statements

/-! ## Machines -/

section Machines

variable {supply : ℕ → D.Id × ℤ} {ph : Ids D} {m m' : Machine D} {others : Store D}

/-- The ids that are still to be drawn are in no row of others. -/
def Unclaimed (X : Domain D) (supply : ℕ → D.Id × ℤ) (m : Machine D) : Prop :=
  ∀ n, m.ticks ≤ n → ∀ τ, X.Spare m.store τ (supply n).1

/-- A machine, beside the one that has only the rows of the program. Its transaction concerns no
rows of others, which are `others`. -/
structure Beside (X : Domain D) (supply : ℕ → D.Id × ℤ) (others : Store D) (m m' : Machine D)
    (ph : Ids D) :
    Prop where
  store : m'.store = X.ownRows m.store
  others : X.otherRows m.store = others
  separate : X.Separate m.store
  tx : m'.tx = m.tx
  ticks : m'.ticks = m.ticks
  within : ∀ c ∈ m.tx.pending, X.Within m.store c
  known : X.Known m.store ph
  unclaimed : X.Unclaimed supply m

theorem tx_answer_congr {db db' : Store D} (tx : Tx D) {id : D.Id} {time : ℤ} {s : Stmt D}
    (h : (tx.view db').answer id time s = (tx.view db).answer id time s) :
    tx.answer db' id time s = tx.answer db id time s := by
  cases s with
  | _ => first | rfl | simp only [Tx.answer, h]

theorem tx_after_congr {db db' : Store D} (tx : Tx D) {s : Stmt D}
    (h : ∀ v, (tx.view db').writes s v = (tx.view db).writes s v) (a : Except String s.Result) :
    tx.after db' s a = tx.after db s a := by
  cases s with
  | _ => cases a with
    | error code => rfl
    | ok v => first | rfl | simp only [Tx.after, h]

/-- The rows that the transaction sees. -/
theorem Beside.view (h : X.Beside supply others m m' ph) :
    m'.tx.view m'.store = X.ownRows (m.tx.view m.store) ∧
      X.otherRows (m.tx.view m.store) = X.otherRows m.store ∧ X.Separate (m.tx.view m.store) := by
  obtain ⟨hown, hother, hseparate⟩ := applyAll_within h.separate h.within
  refine ⟨?_, hother, hseparate⟩
  rw [h.tx, h.store]
  exact hown.symm

theorem Beside.view_known (h : X.Beside supply others m m' ph) : X.Known (m.tx.view m.store) ph :=
  fun τ id hid => (h.known τ id hid).congr h.view.2.1

theorem Beside.view_fresh (h : X.Beside supply others m m' ph) (τ : D.Table) :
    X.Spare (m.tx.view m.store) τ (supply m.ticks).1 :=
  (h.unclaimed m.ticks (Nat.le_refl _) τ).congr h.view.2.1

theorem Beside.answer (h : X.Beside supply others m m' ph) {s : Stmt D} (hallows : X.Allows ph s) :
    m'.tx.answer m'.store (supply m'.ticks).1 (supply m'.ticks).2 s =
      m.tx.answer m.store (supply m.ticks).1 (supply m.ticks).2 s := by
  obtain ⟨hview, -, hseparate⟩ := h.view
  rw [h.tx] at hview
  rw [h.tx, h.ticks]
  apply tx_answer_congr m.tx
  rw [hview]
  exact answer_ownRows hseparate h.view_known h.view_fresh hallows

theorem Beside.after (h : X.Beside supply others m m' ph) {s : Stmt D} (hallows : X.Allows ph s)
    (a : Except String s.Result) : m'.tx.after m'.store s a = m.tx.after m.store s a := by
  obtain ⟨hview, -, hseparate⟩ := h.view
  rw [h.tx] at hview
  rw [h.tx]
  apply tx_after_congr m.tx
  intro v
  rw [hview]
  exact writes_ownRows hseparate h.view_known hallows v

/-- What is committed on one machine is, of the own rows, what is committed on the other. -/
theorem Beside.committed (h : X.Beside supply others m m' ph) (s : Stmt D)
    (a : Except String s.Result) :
    m'.tx.committed m'.store s a = X.ownRows (m.tx.committed m.store s a) ∧
      X.otherRows (m.tx.committed m.store s a) = X.otherRows m.store ∧
      X.Separate (m.tx.committed m.store s a) := by
  cases s with
  | commit =>
    cases a with
    | error code => exact ⟨h.store, rfl, h.separate⟩
    | ok v =>
      obtain ⟨hview, hothers, hseparate⟩ := h.view
      rw [h.tx] at hview
      simp only [Tx.committed, h.tx]
      split
      -- an aborted transaction is rolled back
      · exact ⟨h.store, rfl, h.separate⟩
      · exact ⟨hview, hothers, hseparate⟩
  | _ => exact ⟨h.store, rfl, h.separate⟩

/-- What a transaction has pending after a statement concerns no rows of others. -/
theorem Beside.within_after (h : X.Beside supply others m m' ph) {s : Stmt D}
    (hallows : X.Allows ph s) {a : Except String s.Result}
    (ha : ∀ v, a = .ok v → m.tx.answer m.store (supply m.ticks).1 (supply m.ticks).2 s = .ok v) :
    ∀ c ∈ (m.tx.after m.store s a).pending, X.Within m.store c := by
  obtain ⟨-, hothers, hseparate⟩ := h.view
  intro c hc
  rcases pending_after m.store m.tx s a with ⟨n, htake⟩ | ⟨v, rfl, happend⟩
  · -- a savepoint keeps a part of it
    rw [htake] at hc
    exact h.within c (List.mem_of_mem_take hc)
  · rw [happend] at hc
    rcases List.mem_append.1 hc with hc | hc
    · exact h.within c hc
    · have hwithin : X.Within (m.tx.view m.store) c :=
        within_of_writes hseparate h.view_known h.view_fresh hallows (Tx.view_answer (ha v rfl)) hc
      exact hwithin.congr hothers.symm

theorem Beside.known_next (h : X.Beside supply others m m' ph) {s : Stmt D}
    (hallows : X.Allows ph s) {a : Except String s.Result}
    (ha : ∀ v, a = .ok v → m.tx.answer m.store (supply m.ticks).1 (supply m.ticks).2 s = .ok v) :
    X.Known m.store (nextIds ph s a) := by
  obtain ⟨-, hothers, hseparate⟩ := h.view
  have hok : ∀ v, a = .ok v →
      (m.tx.view m.store).answer (supply m.ticks).1 (supply m.ticks).2 s = .ok v :=
    fun v hv => Tx.view_answer (ha v hv)
  have hnext : X.Known (m.tx.view m.store) (nextIds ph s a) :=
    h.view_known.next hseparate h.view_fresh hallows hok
  exact fun τ id hid => (hnext τ id hid).congr hothers.symm

/-- The machines are side by side after the statement, also if it has failed for another reason. -/
theorem Beside.next (h : X.Beside supply others m m' ph) {s : Stmt D} (hallows : X.Allows ph s)
    {a : Except String s.Result}
    (ha : ∀ v, a = .ok v → m.tx.answer m.store (supply m.ticks).1 (supply m.ticks).2 s = .ok v) :
    X.Beside supply others ⟨m.tx.committed m.store s a, m.tx.after m.store s a, m.ticks + 1⟩
      ⟨m'.tx.committed m'.store s a, m'.tx.after m'.store s a, m'.ticks + 1⟩ (nextIds ph s a) := by
  obtain ⟨hstore, hothers, hseparate⟩ := h.committed s a
  constructor
  case store => exact hstore
  case others => exact hothers.trans h.others
  case separate => exact hseparate
  case tx => exact h.after hallows a
  case ticks => exact congrArg (· + 1) h.ticks
  case within => exact fun c hc => (h.within_after hallows ha c hc).congr hothers
  case known => exact fun τ id hid => (h.known_next hallows ha τ id hid).congr hothers
  case unclaimed => exact fun n hn τ => (h.unclaimed n (Nat.le_of_succ_le hn) τ).congr hothers

/-- A statement that is allowed has the same answer on both machines, and keeps them side by
side. -/
theorem Beside.step (h : X.Beside supply others m m' ph) {s : Stmt D} (hallows : X.Allows ph s) :
    (Machine.step supply s m').1 = (Machine.step supply s m).1 ∧
      X.Beside supply others (Machine.step supply s m).2 (Machine.step supply s m').2
        (nextIds ph s (Machine.step supply s m).1) := by
  have hanswer : (Machine.step supply s m').1 = (Machine.step supply s m).1 := h.answer hallows
  have hstep' : (Machine.step supply s m').2 =
      ⟨m'.tx.committed m'.store s (Machine.step supply s m').1,
        m'.tx.after m'.store s (Machine.step supply s m').1, m'.ticks + 1⟩ := rfl
  rw [hstep', hanswer]
  exact ⟨rfl, h.next hallows fun v hv => hv⟩

variable {ε α : Type}

/-- A confined program does on its own rows what it does on all. -/
theorem Beside.run {p : Prog (storeSignature D) ε α} {post : Ids D → Except ε α → Prop}
    (hp : p.Follows X.confinement post ph) (h : X.Beside supply others m m' ph) :
    (p.run (Machine.step supply) m').1 = (p.run (Machine.step supply) m).1 ∧
      ∃ ph', X.Beside supply others (p.run (Machine.step supply) m).2
        (p.run (Machine.step supply) m').2 ph' := by
  induction p generalizing m m' ph with
  | ret a => exact ⟨rfl, ph, h⟩
  | raise e => exact ⟨rfl, ph, h⟩
  | call s k ih =>
    obtain ⟨hanswer, hnext⟩ := h.step hp.1
    rw [Prog.run_call, Prog.run_call, hanswer]
    exact ih _ (hp.2 _ trivial) hnext

/-- It knows nothing at its start, and no transaction is open. -/
theorem Beside.initial {db : Store D} {n : ℕ} (hseparate : X.Separate db)
    (hunclaimed : X.Unclaimed supply ⟨db, .idle, n⟩) :
    X.Beside supply (X.otherRows db) ⟨db, .idle, n⟩ ⟨X.ownRows db, .idle, n⟩ fun _ => ∅ :=
  ⟨rfl, rfl, hseparate, rfl, rfl, fun _ hc => absurd hc List.not_mem_nil, fun _ _ hid =>
    hid.elim, hunclaimed⟩

/-- What was known can be forgotten. -/
theorem Beside.forget (h : X.Beside supply others m m' ph) :
    X.Beside supply others m m' fun _ => ∅ :=
  { h with known := fun _ _ hid => hid.elim }

end Machines

end Domain

end BookingPlatform.Library
