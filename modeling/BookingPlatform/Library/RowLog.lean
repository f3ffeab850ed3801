import Mathlib.Algebra.Order.BigOperators.Group.List
import Mathlib.Algebra.Order.Group.Nat
import Mathlib.Data.List.Nodup
import Mathlib.Logic.Function.Basic

/-!
# Tables as Logs of Row Versions

A table under READ COMMITTED, kept as the list of row versions written to it, newest
first. The log has a committed part and, for every open transaction, the writes it has
not committed yet. A transaction sees its own writes on top of the committed ones, and a
row with an uncommitted write is locked: only its writer may write it again.

## Main definitions

- `Table.row`: the version of a row that a log makes current.
- `Table.Linked`: every write of a log relates to the row version it replaced.
- `LogStore`: the committed log with the pending writes of each transaction, and the
  operations `pushAll`, `commit`, `rollback` and `truncate` (savepoint rollback).
- `LogStore.Serial`: no row is pending in two transactions, and what each transaction
  sees is linked.

## Main results

- `Table.Linked.insert`: writes of other rows can be slid below a linked log.
- `Table.Linked.row_rel`: along a linked log a row only moves up a preorder that every
  write respects.
- `LogStore.Serial.pushAll`, `commit`, `rollback`, `truncate`: all operations keep a store
  serial.
- `LogStore.Bounded.moves`: after any operations there are numbers that no write has used.
-/

namespace BookingPlatform.Library

/-- How a log is read as a table: which row a write is about, the version it writes, and
the rows present before the first write. -/
structure Table (E K V : Type*) where
  key : E → K
  val : E → V
  base : K → Option V

namespace Table

variable {E K V : Type*} [DecidableEq K] (tb : Table E K V)

/-- The current version of row `k` after the log, newest write first. -/
def row : List E → K → Option V
  | [], k => tb.base k
  | e :: log, k => if tb.key e = k then some (tb.val e) else row log k

/-- Every write of the log stands in the relation `P` to the row version it replaced. -/
def Linked (P : Option V → E → Prop) : List E → Prop
  | [] => True
  | e :: log => P (tb.row log (tb.key e)) e ∧ Linked P log

@[simp] theorem linked_nil (P : Option V → E → Prop) : tb.Linked P [] := trivial

theorem linked_cons_append (P : Option V → E → Prop) (e : E) (l c : List E) :
    tb.Linked P (e :: l ++ c) ↔ P (tb.row (l ++ c) (tb.key e)) e ∧ tb.Linked P (l ++ c) :=
  Iff.rfl

@[simp] theorem row_nil (k : K) : tb.row [] k = tb.base k := rfl

theorem row_cons (e : E) (log : List E) (k : K) :
    tb.row (e :: log) k = if tb.key e = k then some (tb.val e) else tb.row log k := rfl

@[simp] theorem row_cons_self (e : E) (log : List E) :
    tb.row (e :: log) (tb.key e) = some (tb.val e) := by
  simp [row_cons]

theorem row_cons_ne {e : E} {k : K} (h : tb.key e ≠ k) (log : List E) :
    tb.row (e :: log) k = tb.row log k := by
  simp [row_cons, h]

/-- The newest write of a row decides what it is. -/
theorem row_of_find {log : List E} {k : K} {e : E} (h : log.find? (fun e => tb.key e = k) = some e)
    (older : List E) : tb.row (log ++ older) k = some (tb.val e) := by
  induction log with
  | nil => cases h
  | cons f log ih =>
    by_cases hf : tb.key f = k
    · rw [List.find?_cons_of_pos (by simpa using hf)] at h
      cases h
      rw [List.cons_append, row_cons, if_pos hf]
    · rw [List.find?_cons_of_neg (by simpa using hf)] at h
      rw [List.cons_append, row_cons_ne tb hf]
      exact ih h

/-- Among writes of different rows each one decides what its row is. -/
theorem row_of_mem_nodup {l : List E} (hnd : (l.map tb.key).Nodup) {e : E} (he : e ∈ l)
    (c : List E) : tb.row (l ++ c) (tb.key e) = some (tb.val e) := by
  induction l with
  | nil => cases he
  | cons f l ih =>
    rw [List.map_cons, List.nodup_cons] at hnd
    rcases List.mem_cons.1 he with rfl | hmem
    · exact tb.row_cons_self e _
    · have hne : tb.key f ≠ tb.key e := fun heq => hnd.1 (heq ▸ List.mem_map_of_mem hmem)
      rw [List.cons_append, row_cons_ne tb hne]
      exact ih hnd.2 hmem

/-- Writes of other rows do not change what row `k` is. -/
theorem row_append_of_ne {m : List E} {k : K} (h : ∀ e ∈ m, tb.key e ≠ k) (log : List E) :
    tb.row (m ++ log) k = tb.row log k := by
  induction m with
  | nil => rfl
  | cons e m ih =>
    have he : tb.key e ≠ k := h e List.mem_cons_self
    rw [List.cons_append, row_cons_ne tb he]
    exact ih fun f hf => h f (List.mem_cons_of_mem _ hf)

/-- A row without a write in the log is what it was before the first write. -/
theorem row_of_ne {log : List E} {k : K} (h : ∀ e ∈ log, tb.key e ≠ k) :
    tb.row log k = tb.base k := by
  simpa using row_append_of_ne tb h []

/-- What the row is after `l` depends on the older log only through that row. -/
theorem row_append_congr (l : List E) {c c' : List E} {k : K} (h : tb.row c k = tb.row c' k) :
    tb.row (l ++ c) k = tb.row (l ++ c') k := by
  induction l with
  | nil => exact h
  | cons e l ih => simp only [List.cons_append, row_cons, ih]

/-- A row that is written in `l` is the same on top of every older log. -/
theorem row_append_of_mem {l : List E} {e : E} (he : e ∈ l) (c c' : List E) :
    tb.row (l ++ c) (tb.key e) = tb.row (l ++ c') (tb.key e) := by
  induction l with
  | nil => cases he
  | cons f l ih =>
    by_cases hf : tb.key f = tb.key e
    · simp [row_cons, hf]
    · rw [List.cons_append, List.cons_append, row_cons_ne tb hf, row_cons_ne tb hf]
      rcases List.mem_cons.1 he with rfl | hmem
      · exact absurd rfl hf
      · exact ih hmem

/-- A current row either has a write that made it, or was there before the first one. -/
theorem row_eq_some {log : List E} {k : K} {v : V} (h : tb.row log k = some v) :
    (∃ e ∈ log, tb.key e = k ∧ tb.val e = v) ∨ tb.base k = some v := by
  induction log with
  | nil => exact .inr h
  | cons e log ih =>
    by_cases he : tb.key e = k
    · refine .inl ⟨e, List.mem_cons_self, he, ?_⟩
      simpa [row_cons, he] using h
    · rw [row_cons_ne tb he] at h
      rcases ih h with ⟨f, hf, hfk⟩ | hb
      · exact .inl ⟨f, List.mem_cons_of_mem _ hf, hfk⟩
      · exact .inr hb

/-- A row that is written in the log is there. -/
theorem row_isSome_of_mem {log : List E} {e : E} (he : e ∈ log) :
    (tb.row log (tb.key e)).isSome := by
  induction log with
  | nil => cases he
  | cons f log ih =>
    by_cases hf : tb.key f = tb.key e
    · simp [row_cons, hf]
    · rw [row_cons_ne tb hf]
      rcases List.mem_cons.1 he with rfl | hmem
      · exact absurd rfl hf
      · exact ih hmem

namespace Linked

variable {tb} {P P' : Option V → E → Prop}

theorem mono (hP : ∀ v e, P v e → P' v e) {log : List E} (h : tb.Linked P log) :
    tb.Linked P' log := by
  induction log with
  | nil => trivial
  | cons e log ih => exact ⟨hP _ _ h.1, ih h.2⟩

/-- A log of first writes is linked. -/
theorem of_nodup {log : List E} (hnd : (log.map tb.key).Nodup)
    (hP : ∀ e ∈ log, P (tb.base (tb.key e)) e) : tb.Linked P log := by
  induction log with
  | nil => trivial
  | cons e log ih =>
    rw [List.map_cons, List.nodup_cons] at hnd
    have hfirst : tb.row log (tb.key e) = tb.base (tb.key e) :=
      tb.row_of_ne fun f hf heq => hnd.1 (heq ▸ List.mem_map_of_mem hf)
    refine ⟨?_, ih hnd.2 fun f hf => hP f (List.mem_cons_of_mem _ hf)⟩
    rw [hfirst]
    exact hP e List.mem_cons_self

/-- Where every write finds no row, no row is written twice. -/
theorem nodup {log : List E} (h : tb.Linked P log) (hP : ∀ v e, P v e → v = none) :
    (log.map tb.key).Nodup := by
  induction log with
  | nil => exact List.nodup_nil
  | cons e log ih =>
    rw [List.map_cons, List.nodup_cons]
    refine ⟨fun hmem => ?_, ih h.2⟩
    obtain ⟨f, hf, hkey⟩ := List.mem_map.1 hmem
    have hsome := tb.row_isSome_of_mem hf
    rw [hkey, hP _ _ h.1] at hsome
    cases hsome

/-- The older part of a linked log is linked. -/
theorem suffix {l c : List E} (h : tb.Linked P (l ++ c)) : tb.Linked P c := by
  induction l with
  | nil => exact h
  | cons e l ih => exact ih h.2

/-- Every write of a linked log relates to the row version it replaced. -/
theorem at_split {l c : List E} {e : E} (h : tb.Linked P (l ++ e :: c)) :
    P (tb.row c (tb.key e)) e :=
  h.suffix.1

/-- Writes `m` of other rows can be slid below the writes `l`. -/
theorem insert {l m c : List E} (hdisj : ∀ e ∈ l, ∀ f ∈ m, tb.key f ≠ tb.key e)
    (hl : tb.Linked P (l ++ c)) (hm : tb.Linked P (m ++ c)) :
    tb.Linked P (l ++ (m ++ c)) := by
  induction l with
  | nil => exact hm
  | cons e l ih =>
    have hskip : tb.row (m ++ c) (tb.key e) = tb.row c (tb.key e) :=
      tb.row_append_of_ne (hdisj e List.mem_cons_self) c
    rw [linked_cons_append] at hl ⊢
    refine ⟨?_, ih (fun f hf => hdisj f (List.mem_cons_of_mem _ hf)) hl.2⟩
    rw [tb.row_append_congr l hskip]
    exact hl.1

/-- If every write moves its row up the preorder `R`, the newer log has each row at or
above where the older log had it. -/
theorem row_rel {R : V → V → Prop} (hrefl : ∀ v, R v v)
    (htrans : ∀ u v w, R u v → R v w → R u w)
    (hstep : ∀ v e, P (some v) e → R v (tb.val e)) {l c : List E} {k : K} {v : V}
    (h : tb.Linked P (l ++ c)) (hc : tb.row c k = some v) :
    ∃ v', tb.row (l ++ c) k = some v' ∧ R v v' := by
  induction l with
  | nil => exact ⟨v, hc, hrefl v⟩
  | cons e l ih =>
    obtain ⟨v', hv', hR⟩ := ih h.2
    by_cases he : tb.key e = k
    · subst he
      refine ⟨tb.val e, tb.row_cons_self e _, htrans _ _ _ hR (hstep _ _ ?_)⟩
      rw [← hv']
      exact h.1
    · exact ⟨v', by rw [List.cons_append, tb.row_cons_ne he]; exact hv', hR⟩

end Linked

end Table

/-! ## Stores -/

/-- The committed writes of a table and the uncommitted ones of each transaction, newest
first. -/
structure LogStore (T E : Type*) where
  committed : List E
  pending : T → List E

namespace LogStore

variable {T E : Type*}

/-- No transaction has written yet. -/
def empty : LogStore T E := ⟨[], fun _ => []⟩

/-- What transaction `t` sees: its own writes on top of the committed ones. -/
def visible (s : LogStore T E) (t : T) : List E := s.pending t ++ s.committed

@[simp] theorem empty_committed : (empty : LogStore T E).committed = [] := rfl

@[simp] theorem empty_pending (t : T) : (empty : LogStore T E).pending t = [] := rfl

variable [DecidableEq T]

/-- Transaction `t` writes `es`, in this order. -/
def pushAll (s : LogStore T E) (t : T) (es : List E) : LogStore T E :=
  { s with pending := Function.update s.pending t (es.reverse ++ s.pending t) }

/-- Transaction `t` commits. -/
def commit (s : LogStore T E) (t : T) : LogStore T E where
  committed := s.pending t ++ s.committed
  pending := Function.update s.pending t []

/-- Transaction `t` rolls back. -/
def rollback (s : LogStore T E) (t : T) : LogStore T E :=
  { s with pending := Function.update s.pending t [] }

/-- Transaction `t` rolls back to the moment when it had `n` uncommitted writes. -/
def truncate (s : LogStore T E) (t : T) (n : ℕ) : LogStore T E :=
  { s with pending :=
      Function.update s.pending t ((s.pending t).drop ((s.pending t).length - n)) }

@[simp] theorem pushAll_committed (s : LogStore T E) (t : T) (es : List E) :
    (s.pushAll t es).committed = s.committed := rfl

@[simp] theorem commit_committed (s : LogStore T E) (t : T) :
    (s.commit t).committed = s.pending t ++ s.committed := rfl

@[simp] theorem rollback_committed (s : LogStore T E) (t : T) :
    (s.rollback t).committed = s.committed := rfl

@[simp] theorem truncate_committed (s : LogStore T E) (t : T) (n : ℕ) :
    (s.truncate t n).committed = s.committed := rfl

@[simp] theorem pushAll_pending_self (s : LogStore T E) (t : T) (es : List E) :
    (s.pushAll t es).pending t = es.reverse ++ s.pending t := by
  simp [pushAll]

@[simp] theorem commit_pending_self (s : LogStore T E) (t : T) :
    (s.commit t).pending t = [] := by
  simp [commit]

@[simp] theorem rollback_pending_self (s : LogStore T E) (t : T) :
    (s.rollback t).pending t = [] := by
  simp [rollback]

@[simp] theorem truncate_pending_self (s : LogStore T E) (t : T) (n : ℕ) :
    (s.truncate t n).pending t = (s.pending t).drop ((s.pending t).length - n) := by
  simp [truncate]

@[simp] theorem pushAll_pending_ne (s : LogStore T E) {t u : T} (h : u ≠ t) (es : List E) :
    (s.pushAll t es).pending u = s.pending u := by
  simp [pushAll, h]

@[simp] theorem commit_pending_ne (s : LogStore T E) {t u : T} (h : u ≠ t) :
    (s.commit t).pending u = s.pending u := by
  simp [commit, h]

@[simp] theorem rollback_pending_ne (s : LogStore T E) {t u : T} (h : u ≠ t) :
    (s.rollback t).pending u = s.pending u := by
  simp [rollback, h]

@[simp] theorem truncate_pending_ne (s : LogStore T E) {t u : T} (h : u ≠ t) (n : ℕ) :
    (s.truncate t n).pending u = s.pending u := by
  simp [truncate, h]

@[simp] theorem pushAll_nil (s : LogStore T E) (t : T) : s.pushAll t [] = s := by
  simp [pushAll]

@[simp] theorem pushAll_visible_self (s : LogStore T E) (t : T) (es : List E) :
    (s.pushAll t es).visible t = es.reverse ++ s.visible t := by
  simp [visible]

@[simp] theorem pushAll_visible_ne (s : LogStore T E) {t u : T} (h : u ≠ t) (es : List E) :
    (s.pushAll t es).visible u = s.visible u := by
  simp [visible, h]

@[simp] theorem rollback_visible_ne (s : LogStore T E) {t u : T} (h : u ≠ t) :
    (s.rollback t).visible u = s.visible u := by
  simp [visible, h]

@[simp] theorem truncate_visible_ne (s : LogStore T E) {t u : T} (h : u ≠ t) (n : ℕ) :
    (s.truncate t n).visible u = s.visible u := by
  simp [visible, h]

theorem commit_visible_ne (s : LogStore T E) {t u : T} (h : u ≠ t) :
    (s.commit t).visible u = s.pending u ++ (s.pending t ++ s.committed) := by
  simp [visible, h]

@[simp] theorem commit_visible_self (s : LogStore T E) (t : T) :
    (s.commit t).visible t = s.visible t := by
  simp [visible]

/-- Ending a transaction without writes changes nothing. -/
theorem commit_of_empty {s : LogStore T E} {t : T} (h : s.pending t = []) : s.commit t = s := by
  have hcommitted : s.pending t ++ s.committed = s.committed := by simp [h]
  have hpending : Function.update s.pending t [] = s.pending := by simp [← h]
  rw [commit, hcommitted, hpending]

theorem rollback_of_empty {s : LogStore T E} {t : T} (h : s.pending t = []) :
    s.rollback t = s := by
  simp [rollback, ← h]

theorem truncate_of_empty {s : LogStore T E} {t : T} (h : s.pending t = []) (n : ℕ) :
    s.truncate t n = s := by
  have hdrop : (s.pending t).drop ((s.pending t).length - n) = s.pending t := by simp [h]
  simp [truncate, hdrop]

variable {K V : Type*} [DecidableEq K] (tb : Table E K V)

/-- No other transaction holds an uncommitted write of row `k`. -/
def Free (s : LogStore T E) (t : T) (k : K) : Prop :=
  ∀ u, u ≠ t → ∀ e ∈ s.pending u, tb.key e ≠ k

/-- Row locks are respected, the committed log is linked, and so is what every
transaction sees. -/
structure Serial (P : Option V → E → Prop) (s : LogStore T E) : Prop where
  committed : tb.Linked P s.committed
  exclusive : ∀ t u, t ≠ u → ∀ e ∈ s.pending t, ∀ f ∈ s.pending u, tb.key e ≠ tb.key f
  linked : ∀ t, tb.Linked P (s.visible t)

namespace Serial

variable {tb} {P P' : Option V → E → Prop} {s : LogStore T E}

omit [DecidableEq T] in
theorem empty : Serial tb P (LogStore.empty : LogStore T E) where
  committed := trivial
  exclusive _ _ _ _ he := by simp at he
  linked _ := trivial

omit [DecidableEq T] in
/-- Without pending writes only the committed log counts. -/
theorem of_idle (hcommitted : tb.Linked P s.committed) (hidle : ∀ t, s.pending t = []) :
    Serial tb P s where
  committed := hcommitted
  exclusive t _ _ e he := by
    rw [hidle t] at he
    cases he
  linked t := by
    rw [visible, hidle t]
    exact hcommitted

/-- What every write of a statement has to satisfy: its row is not locked by another
transaction, no two writes are of the same row, and each relates to the row it replaces. -/
theorem pushAll (h : Serial tb P s) {t : T} {es : List E}
    (hfree : ∀ e ∈ es, s.Free tb t (tb.key e)) (hnd : (es.map tb.key).Nodup)
    (hP : ∀ e ∈ es, P (tb.row (s.visible t) (tb.key e)) e) :
    Serial tb P (s.pushAll t es) where
  committed := h.committed
  exclusive u v huv e he f hf := by
    -- a pending write is one of the new ones, or it was there before
    have split : ∀ {w : T} {x : E}, x ∈ (s.pushAll t es).pending w →
        (w = t ∧ x ∈ es) ∨ x ∈ s.pending w := by
      intro w x hx
      by_cases hw : w = t
      · subst hw
        simpa using hx
      · exact .inr (by simpa [hw] using hx)
    rcases split he with ⟨rfl, hees⟩ | he'
    · rcases split hf with ⟨rfl, _⟩ | hf'
      · exact absurd rfl huv
      · exact (hfree e hees v huv.symm f hf').symm
    · rcases split hf with ⟨rfl, hfes⟩ | hf'
      · exact hfree f hfes u huv e he'
      · exact h.exclusive u v huv e he' f hf'
  linked u := by
    by_cases hu : u = t
    · subst hu
      -- the new writes are of different rows, so that each relates to the row from before
      have hlog : ∀ rs : List E, (∀ e ∈ rs, e ∈ es) → (rs.map tb.key).Nodup →
          tb.Linked P (rs ++ s.visible u) := by
        intro rs
        induction rs with
        | nil => exact fun _ _ => h.linked u
        | cons e rs ih =>
          intro hsub hnd'
          rw [List.map_cons, List.nodup_cons] at hnd'
          have hne : ∀ f ∈ rs, tb.key f ≠ tb.key e := fun f hf heq =>
            hnd'.1 (heq ▸ List.mem_map_of_mem hf)
          rw [tb.linked_cons_append]
          refine ⟨?_, ih (fun f hf => hsub f (List.mem_cons_of_mem _ hf)) hnd'.2⟩
          rw [tb.row_append_of_ne hne]
          exact hP e (hsub e List.mem_cons_self)
      have := hlog es.reverse (fun e he => List.mem_reverse.1 he)
        (by rw [List.map_reverse]; exact List.nodup_reverse.2 hnd)
      simpa [LogStore.visible] using this
    · simpa [LogStore.visible, hu] using h.linked u

theorem commit (h : Serial tb P s) (t : T) : Serial tb P (s.commit t) where
  committed := h.linked t
  exclusive u v huv e he f hf := by
    -- the rows of the one who commits are locked for the others
    by_cases hu : u = t
    · subst hu
      simp at he
    · by_cases hv : v = t
      · subst hv
        simp at hf
      · rw [commit_pending_ne s hu] at he
        rw [commit_pending_ne s hv] at hf
        exact h.exclusive u v huv e he f hf
  linked u := by
    by_cases hu : u = t
    · subst hu
      rw [commit_visible_self]
      exact h.linked u
    · simp only [LogStore.visible, commit_committed, commit_pending_ne s hu]
      exact Table.Linked.insert
        (fun e he f hf => (h.exclusive u t hu e he f hf).symm) (h.linked u) (h.linked t)

/-- The commit of another transaction moves what `u` sees only up a preorder that every
write respects. -/
theorem row_commit_rel (h : Serial tb P s) {R : V → V → Prop} (hrefl : ∀ v, R v v)
    (htrans : ∀ u v w, R u v → R v w → R u w)
    (hstep : ∀ v e, P (some v) e → R v (tb.val e)) {t u : T} (hu : u ≠ t) {k : K} {v : V}
    (hrow : tb.row (s.visible u) k = some v) :
    ∃ v', tb.row ((s.commit t).visible u) k = some v' ∧ R v v' := by
  rw [commit_visible_ne s hu]
  by_cases hmem : ∃ e ∈ s.pending u, tb.key e = k
  · obtain ⟨e, he, rfl⟩ := hmem
    refine ⟨v, ?_, hrefl v⟩
    rw [← hrow]
    exact tb.row_append_of_mem he _ _
  · have hne : ∀ e ∈ s.pending u, tb.key e ≠ k := fun e he hk => hmem ⟨e, he, hk⟩
    rw [LogStore.visible, tb.row_append_of_ne hne] at hrow
    rw [tb.row_append_of_ne hne]
    exact (h.linked t).row_rel hrefl htrans hstep hrow

/-- Dropping the newest writes of one transaction keeps the store serial. -/
theorem of_suffix (h : Serial tb P s) {t : T} {s' : LogStore T E}
    (hc : s'.committed = s.committed) (hsuf : s'.pending t <:+ s.pending t)
    (hne : ∀ u, u ≠ t → s'.pending u = s.pending u) : Serial tb P s' where
  committed := by
    rw [hc]
    exact h.committed
  exclusive u v huv e he f hf := by
    -- what is pending now was pending before
    have sub : ∀ {w : T} {x : E}, x ∈ s'.pending w → x ∈ s.pending w := by
      intro w x hx
      by_cases hw : w = t
      · subst hw
        exact hsuf.subset hx
      · rwa [hne w hw] at hx
    exact h.exclusive u v huv e (sub he) f (sub hf)
  linked u := by
    by_cases hu : u = t
    · subst hu
      obtain ⟨l, hl⟩ := hsuf
      have := h.linked u
      rw [LogStore.visible, ← hl, List.append_assoc] at this
      rw [LogStore.visible, hc]
      exact this.suffix
    · rw [LogStore.visible, hne u hu, hc]
      exact h.linked u

omit [DecidableEq T] in
/-- A write that is committed at once, to a row that no transaction has written. -/
theorem record (h : Serial tb P s) {e : E} (hfree : ∀ u, ∀ f ∈ s.pending u, tb.key f ≠ tb.key e)
    (hP : P (tb.row s.committed (tb.key e)) e) :
    Serial tb P { s with committed := e :: s.committed } where
  committed := ⟨hP, h.committed⟩
  exclusive := h.exclusive
  linked u := by
    have hnew : tb.Linked P ([e] ++ s.committed) := ⟨hP, h.committed⟩
    refine Table.Linked.insert (m := [e]) (fun f hf e' he' => ?_) (h.linked u) hnew
    rw [List.mem_singleton.1 he']
    exact (hfree u f hf).symm

theorem rollback (h : Serial tb P s) (t : T) : Serial tb P (s.rollback t) :=
  h.of_suffix (t := t) rfl (by simp) fun u hu => rollback_pending_ne s hu

theorem truncate (h : Serial tb P s) (t : T) (n : ℕ) : Serial tb P (s.truncate t n) :=
  h.of_suffix (t := t) rfl (by simpa using List.drop_suffix _ _)
    fun u hu => truncate_pending_ne s hu n

end Serial

/-! ## Unused numbers -/

/-- What one operation of transaction `t` makes of a store. -/
inductive Moves (s : LogStore T E) (t : T) : LogStore T E → Prop where
  | write (es : List E) : Moves s t (s.pushAll t es)
  | commit : Moves s t (s.commit t)
  | rollback : Moves s t (s.rollback t)
  | truncate (n : ℕ) : Moves s t (s.truncate t n)

theorem Moves.same (s : LogStore T E) (t : T) : Moves s t s := by
  have h := Moves.write (s := s) (t := t) []
  rwa [pushAll_nil] at h

omit [DecidableEq T] in
/-- The numbers of all writes, committed or not, are below some bound. -/
def Bounded (f : E → ℕ) (s : LogStore T E) : Prop :=
  ∃ n, (∀ e ∈ s.committed, f e < n) ∧ ∀ t, ∀ e ∈ s.pending t, f e < n

variable {f : E → ℕ} {s s' : LogStore T E} {t : T}

omit [DecidableEq T] in
theorem bounded_empty : (empty : LogStore T E).Bounded f := ⟨0, by simp, by simp⟩

omit [DecidableEq T] in
/-- A store whose writes are all in a bounded one is bounded. -/
theorem Bounded.of_subset (h : s.Bounded f)
    (hc : ∀ e ∈ s'.committed, e ∈ s.committed ∨ ∃ u, e ∈ s.pending u)
    (hp : ∀ u, s'.pending u ⊆ s.pending u) : s'.Bounded f := by
  obtain ⟨n, hn, hn'⟩ := h
  refine ⟨n, fun e he => ?_, fun u e he => hn' u e (hp u he)⟩
  rcases hc e he with hmem | ⟨u, hmem⟩
  · exact hn e hmem
  · exact hn' u e hmem

/-- Every operation writes finitely many rows, so there is always a bound. -/
theorem Bounded.moves (h : s.Bounded f) (hm : s.Moves t s') : s'.Bounded f := by
  have hpend : ∀ {s' : LogStore T E}, (∀ u, u ≠ t → s'.pending u = s.pending u) →
      s'.pending t ⊆ s.pending t → ∀ u, s'.pending u ⊆ s.pending u := by
    intro s' hne hself u
    by_cases hu : u = t
    · subst hu
      exact hself
    · rw [hne u hu]
      exact List.Subset.refl _
  cases hm with
  | write es =>
    obtain ⟨n, hn, hn'⟩ := h
    -- a bound that exceeds the sum exceeds each of the new ones
    have hbelow : ∀ e ∈ es, f e < n + (es.map f).sum + 1 := fun e he => by
      have := List.single_le_sum (l := es.map f) (by simp) (f e) (List.mem_map_of_mem he)
      omega
    refine ⟨n + (es.map f).sum + 1, fun e he => ?_, fun u e he => ?_⟩
    · have := hn e he
      omega
    · by_cases hu : u = t
      · subst hu
        rw [pushAll_pending_self, List.mem_append, List.mem_reverse] at he
        rcases he with hnew | hold
        · exact hbelow e hnew
        · have := hn' u e hold
          omega
      · rw [pushAll_pending_ne s hu] at he
        have := hn' u e he
        omega
  -- no operation but the first writes anything new
  | commit =>
    refine h.of_subset (fun e he => ?_) (hpend (fun u hu => commit_pending_ne s hu) (by simp))
    rcases List.mem_append.1 he with hmem | hmem
    · exact .inr ⟨t, hmem⟩
    · exact .inl hmem
  | rollback =>
    exact h.of_subset (fun e he => .inl he)
      (hpend (fun u hu => rollback_pending_ne s hu) (by simp))
  | truncate n =>
    refine h.of_subset (fun e he => .inl he) (hpend (fun u hu => truncate_pending_ne s hu n) ?_)
    rw [truncate_pending_self]
    exact List.drop_subset _ _

end LogStore

end BookingPlatform.Library
