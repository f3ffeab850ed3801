import BookingPlatform.Booking.Attempt

/-!
# Attempts and the Key Table

How the attempts of any number of sessions stand to the table of idempotency keys. A
claim waits for an uncommitted row of its key, so of the attempts that have claimed one
key all but one have been rolled back.

## Main results

- `KeysInv.statement`: one statement of an attempt keeps the keys in order.
- `KeysInv.row_origin`: a committed row is complete and belongs to a committed attempt.
-/

namespace BookingPlatform

open Library

variable {T : Type} {rt : Runtime}

/-! ## Attempts and the database -/

/-- Attempt `a` has claimed row `r`, and has not been rolled back. -/
def Attempt.Holds (a : Attempt) (r : IdempotencyKey) : Prop :=
  a.claimed = some r ∧ a.committed ≠ some false

/-- What attempt `a` of transaction `t` has to do with the database. -/
structure Attempt.Sound (rt : Runtime) (g : Db T) (t : T) (a : Attempt) : Prop where
  pending : g.keys.pending t = a.pendingKeys
  aborted : g.aborted t = a.failed
  claim : ∀ r, a.claimed = some r → r = ⟨r.id, a.tenantId, a.key, a.requestHash, none⟩
  untouched : a.claimed = none → a.Untouched
  completed : ∀ r, a.stored = some r → a.Completed rt
  done : a.committed = some true → a.Untouched ∨ a.Completed rt
  current : ∀ r, a.committed = some true → a.stored = some r →
    keyTable.row g.keys.committed r.id = some r
  found : ∀ r, a.found = some (some r) → keyTable.row g.keys.committed r.id = some r ∧
    r.tenantId = a.tenantId ∧ r.key = a.key
  inserted : ∀ b, a.created = some b → a.committed = none →
    ⟨.created, b⟩ ∈ g.bookings.pending t
  booked : ∀ b, a.created = some b → a.committed = some true →
    ⟨.created, b⟩ ∈ g.bookings.committed

/-- The keys are in order: every uncommitted row belongs to an open attempt, every
committed row to a committed one, and no two attempts hold rows of one id or one key. -/
structure KeysInv (rt : Runtime) (g : Db T) (attempt : T → Option Attempt) : Prop where
  sound : ∀ t a, attempt t = some a → a.Sound rt g t
  other : ∀ t, attempt t = none → g.keys.pending t = []
  origin : ∀ r ∈ g.keys.committed, ∃ t a r₀, attempt t = some a ∧ a.claimed = some r₀ ∧
    a.committed = some true ∧ (r = r₀ ∨ a.stored = some r)
  unique : ∀ t u a a' r r', attempt t = some a → attempt u = some a' → a.Holds r →
    a'.Holds r' → (r.id = r'.id ∨ a.tenantId = a'.tenantId ∧ a.key = a'.key) → t = u

variable {g g' : Db T} {t u : T} {a a' : Attempt} {attempt : T → Option Attempt}

/-- A completed row has the id of the row the attempt has claimed. -/
theorem Attempt.Sound.stored_eq (h : a.Sound rt g t) {r : IdempotencyKey}
    (hr : a.stored = some r) : ∃ r₀ b, a.claimed = some r₀ ∧ a.created = some b ∧
      r = { r₀ with responseBody := some (rt.instanceToPlain b) } := by
  obtain ⟨r₀, b, hclaimed, hcreated, hstored⟩ := h.completed r hr
  exact ⟨r₀, b, hclaimed, hcreated, Option.some.inj (hr.symm.trans hstored)⟩

/-- Every uncommitted row of an open attempt has the id and the key of its claim. -/
theorem Attempt.Sound.mem_pending (h : a.Sound rt g t) (hopen : a.committed = none)
    {r : IdempotencyKey} (hr : r ∈ g.keys.pending t) :
    ∃ r₀, a.claimed = some r₀ ∧ r.id = r₀.id ∧ (r = r₀ ∨ a.stored = some r) := by
  have hmem : a.stored = some r ∨ a.claimed = some r := by
    simpa [h.pending, Attempt.pendingKeys, hopen] using hr
  rcases hmem with hstored | hclaimed
  · obtain ⟨r₀, b, hr₀, -, hrow⟩ := h.stored_eq hstored
    exact ⟨r₀, hr₀, by rw [hrow], .inr hstored⟩
  · exact ⟨r, hclaimed, rfl, .inl rfl⟩

/-- A row that an attempt holds is uncommitted in its transaction, or committed with the
response filled in. -/
theorem Attempt.Sound.holds (h : a.Sound rt g t) {r : IdempotencyKey} (hr : a.Holds r) :
    ∃ r', (r' ∈ g.keys.pending t ∨ r' ∈ g.keys.committed) ∧ r'.id = r.id ∧
      r'.tenantId = a.tenantId ∧ r'.key = a.key := by
  obtain ⟨hclaimed, hcommitted⟩ := hr
  have hrow := h.claim r hclaimed
  cases hopen : a.committed with
  -- under way: the row is pending as it was claimed
  | none =>
    refine ⟨r, .inl ?_, rfl, by rw [hrow], by rw [hrow]⟩
    simp [h.pending, Attempt.pendingKeys, hopen, hclaimed]
  -- over: it has committed, with the answer in the row
  | some done =>
    obtain rfl : done = true := by
      cases done
      · exact absurd hopen hcommitted
      · rfl
    rcases h.done hopen with huntouched | ⟨r₀, b, hr₀, -, hstored⟩
    · cases huntouched.1.symm.trans hclaimed
    · obtain rfl : r₀ = r := Option.some.inj (hr₀.symm.trans hclaimed)
      have hcurrent := h.current _ hopen hstored
      refine ⟨{ r₀ with responseBody := some (rt.instanceToPlain b) }, .inr ?_, rfl,
        by rw [hrow], by rw [hrow]⟩
      rcases keyTable.row_eq_some hcurrent with ⟨e, he, -, hval⟩ | hbase
      · rw [← hval]
        exact he
      · cases hbase

/-- What an attempt has to do with the database does not depend on other transactions, as
long as committed rows stay as they are. -/
theorem Attempt.Sound.frame (h : a.Sound rt g u)
    (hkeys : g'.keys.pending u = g.keys.pending u)
    (hbookings : g'.bookings.pending u = g.bookings.pending u)
    (haborted : g'.aborted u = g.aborted u)
    (hsub : g.bookings.committed ⊆ g'.bookings.committed)
    (hrows : ∀ r, keyTable.row g.keys.committed r.id = some r →
      keyTable.row g'.keys.committed r.id = some r) : a.Sound rt g' u where
  pending := hkeys.trans h.pending
  aborted := haborted.trans h.aborted
  claim := h.claim
  untouched := h.untouched
  completed := h.completed
  done := h.done
  current r hc hr := hrows r (h.current r hc hr)
  found r hr := ⟨hrows r (h.found r hr).1, (h.found r hr).2⟩
  inserted b hb hopen := hbookings ▸ h.inserted b hb hopen
  booked b hb hc := hsub (h.booked b hb hc)

namespace KeysInv

/-- The rows of an open attempt are not among the committed ones. -/
theorem pending_fresh (h : KeysInv rt g attempt) (ht : attempt t = some a)
    (hopen : a.committed = none) {r r' : IdempotencyKey} (hr : r ∈ g.keys.pending t)
    (hr' : r' ∈ g.keys.committed) : r.id ≠ r'.id := by
  intro hid
  obtain ⟨r₀, hclaimed, hr₀, -⟩ := (h.sound t a ht).mem_pending hopen hr
  obtain ⟨u, a', r₁, hu, hclaimed', hcommitted, hor⟩ := h.origin r' hr'
  have hr₁ : r'.id = r₁.id := by
    rcases hor with rfl | hstored
    · rfl
    · obtain ⟨r₂, b, hr₂, -, hrow⟩ := (h.sound u a' hu).stored_eq hstored
      rw [hrow, Option.some.inj (hr₂.symm.trans hclaimed')]
  -- two attempts would hold rows of the same id
  obtain rfl : t = u := h.unique t u a a' r₀ r₁ ht hu ⟨hclaimed, by simp [hopen]⟩
    ⟨hclaimed', by simp [hcommitted]⟩ (.inl (hr₀.symm.trans (hid.trans hr₁)))
  obtain rfl : a = a' := Option.some.inj (ht.symm.trans hu)
  exact absurd (hopen.symm.trans hcommitted) nofun

/-- Committing an open attempt leaves the committed rows as they are. -/
theorem row_commit (h : KeysInv rt g attempt) (ht : attempt t = some a)
    (hopen : a.committed = none) {r : IdempotencyKey}
    (hr : keyTable.row g.keys.committed r.id = some r) :
    keyTable.row (g.keys.pending t ++ g.keys.committed) r.id = some r := by
  rcases keyTable.row_eq_some hr with ⟨e, he, hid, -⟩ | hbase
  · rw [keyTable.row_append_of_ne fun f hf => ?_, hr]
    exact fun hf' => h.pending_fresh ht hopen hf he (hf'.trans hid.symm)
  · cases hbase

/-- Changes outside the keys that leave the transactions of attempts alone. -/
theorem frame (h : KeysInv rt g attempt) (hkeys : g'.keys = g.keys)
    (hne : ∀ u a, attempt u = some a →
      g'.bookings.pending u = g.bookings.pending u ∧ g'.aborted u = g.aborted u)
    (hsub : g.bookings.committed ⊆ g'.bookings.committed) : KeysInv rt g' attempt where
  sound u a hu := (h.sound u a hu).frame (by rw [hkeys]) (hne u a hu).1 (hne u a hu).2 hsub
    fun r hr => by rw [hkeys]; exact hr
  other u hu := by
    rw [hkeys]
    exact h.other u hu
  origin r hr := h.origin r (hkeys ▸ hr)
  unique := h.unique

variable [DecidableEq T]

/-- A transaction gets an attempt that has done nothing yet, or none at all. -/
theorem start (h : KeysInv rt g attempt) (hidle : attempt t = none) (haborted : g.aborted t = false)
    (q : Request) : KeysInv rt g (Function.update attempt t (startAttempt rt q)) := by
  have hfresh : ∀ a, startAttempt rt q = some a →
      a = ⟨a.tenantId, a.key, a.requestHash, none, none, none, none, false, none⟩ := by
    intro a ha
    unfold startAttempt at ha
    split at ha
    · split at ha
      · cases ha
      · cases ha
        rfl
    · cases ha
  have hsplit : ∀ {u a}, Function.update attempt t (startAttempt rt q) u = some a →
      u = t ∧ startAttempt rt q = some a ∨ u ≠ t ∧ attempt u = some a := by
    intro u a hu
    by_cases hut : u = t
    · subst hut
      exact .inl ⟨rfl, by simpa using hu⟩
    · exact .inr ⟨hut, by simpa [hut] using hu⟩
  -- a new attempt holds no row
  have hold : ∀ {u a r}, Function.update attempt t (startAttempt rt q) u = some a → a.Holds r →
      attempt u = some a := by
    intro u a r hu hr
    rcases hsplit hu with ⟨-, ha⟩ | ⟨-, ha⟩
    · rw [hfresh a ha] at hr
      cases hr.1
    · exact ha
  refine ⟨fun u a hu => ?_, fun u hu => ?_, fun r hr => ?_, fun u v a a' r r' hu hv hr hr' => ?_⟩
  · rcases hsplit hu with ⟨rfl, ha⟩ | ⟨-, ha⟩
    · rw [hfresh a ha]
      exact ⟨h.other u hidle, haborted, nofun, fun _ => ⟨rfl, rfl, rfl⟩, nofun, nofun, nofun,
        nofun, nofun, nofun⟩
    · exact h.sound u a ha
  · by_cases hut : u = t
    · subst hut
      exact h.other u hidle
    · exact h.other u (by simpa [hut] using hu)
  · obtain ⟨u, a, r₀, hu, hrest⟩ := h.origin r hr
    have hut : u ≠ t := by
      rintro rfl
      rw [hidle] at hu
      cases hu
    exact ⟨u, a, r₀, by simpa [hut] using hu, hrest⟩
  · exact h.unique u v a a' r r' (hold hu hr) (hold hv hr') hr hr'

/-- A transaction that has not committed an attempt is rolled back. -/
theorem crash (h : KeysInv rt g attempt)
    (hopen : ∀ a, attempt t = some a → a.committed ≠ some true) :
    KeysInv rt (g.rollback t) (Function.update attempt t none) := by
  -- the other attempts go on as before
  have hsplit : ∀ {u a}, Function.update attempt t none u = some a →
      u ≠ t ∧ attempt u = some a := by
    intro u a hu
    by_cases hut : u = t
    · subst hut
      simp at hu
    · exact ⟨hut, by simpa [hut] using hu⟩
  refine ⟨fun u a hu => ?_, fun u hu => ?_, fun r hr => ?_, fun u v a a' r r' hu hv hr hr' => ?_⟩
  · obtain ⟨hut, hu⟩ := hsplit hu
    exact (h.sound u a hu).frame (by simp [Db.rollback, hut]) (by simp [Db.rollback, hut])
      (by simp [Db.rollback, hut]) (List.Subset.refl _) fun r hr => hr
  · by_cases hut : u = t
    · subst hut
      simp [Db.rollback]
    · simpa [Db.rollback, hut] using h.other u (by simpa [hut] using hu)
  · obtain ⟨u, a, r₀, hu, hclaimed, hcommitted, hor⟩ := h.origin r hr
    have hut : u ≠ t := by
      rintro rfl
      exact hopen a hu hcommitted
    exact ⟨u, a, r₀, by simpa [hut] using hu, hclaimed, hcommitted, hor⟩
  · exact h.unique u v a a' r r' (hsplit hu).2 (hsplit hv).2 hr hr'

end KeysInv

/-! ## One statement of an attempt -/

section Step

variable [DecidableEq T]

/-- A statement of an attempt leaves its own attempt in order. -/
theorem Attempt.Sound.step (h : a.Sound rt g t) (hopen : a.committed = none)
    (hstep : AttemptStep rt g t a a' g'.keys g'.bookings) (haborted : g'.aborted t = a'.failed)
    (hrows : ∀ r, keyTable.row g.keys.committed r.id = some r →
      keyTable.row g'.keys.committed r.id = some r) : a'.Sound rt g' t := by
  have hpend : g.keys.pending t = a.stored.toList ++ a.claimed.toList := by
    rw [h.pending, Attempt.pendingKeys, hopen]
  have hcompleted : ∀ {r}, a.stored = some r → a.Completed rt := fun hr => h.completed _ hr
  generalize hkeys : g'.keys = keys at hstep hrows
  generalize hbookings : g'.bookings = bookings at hstep
  cases hstep with
  | quiet failed =>
    exact ⟨by rw [hkeys]; exact h.pending, haborted, h.claim, h.untouched, h.completed, h.done,
      by rw [hkeys]; exact h.current, by rw [hkeys]; exact h.found,
      by rw [hbookings]; exact h.inserted, by rw [hbookings]; exact h.booked⟩
  | looked v hv huntouched =>
    obtain ⟨hclaimed, hcreated, hstored⟩ := huntouched
    have hvisible : g.keys.visible t = g.keys.committed := by
      simp [LogStore.visible, hpend, hclaimed, hstored]
    refine ⟨by rw [hkeys]; exact h.pending, haborted, h.claim, h.untouched, h.completed, h.done,
      by rw [hkeys]; exact h.current, fun r hr => ?_,
      by rw [hbookings]; exact h.inserted, by rw [hbookings]; exact h.booked⟩
    rw [hkeys, ← hvisible]
    exact hv r (Option.some.inj hr)
  | claimed r huntouched hrow hfresh hcommitted hpending =>
    obtain ⟨hclaimed, hcreated, hstored⟩ := huntouched
    refine ⟨?_, haborted, fun r' hr' => ?_, fun hc => ?_, fun r' hr' => ?_, fun hc => ?_,
      fun r' hc => ?_, by rw [hkeys]; exact h.found, fun b hb => ?_, fun b hb => ?_⟩
    · simp [hkeys, Attempt.pendingKeys, hopen, hpend, hclaimed, hstored]
    · obtain rfl := Option.some.inj hr'
      exact hrow
    · cases hc
    · cases hstored.symm.trans hr'
    · cases hopen.symm.trans hc
    · cases hopen.symm.trans hc
    · cases hcreated.symm.trans hb
    · cases hcreated.symm.trans hb
  | created b hclaimed hnew =>
    have hnone : a.stored = none := by
      cases hs : a.stored with
      | none => rfl
      | some r =>
        obtain ⟨r₀, b', -, hb', -⟩ := hcompleted hs
        cases hnew.symm.trans hb'
    refine ⟨by rw [hkeys]; exact h.pending, haborted, h.claim, fun hc => ?_, fun r hr => ?_,
      fun hc => ?_, by rw [hkeys]; exact h.current, by rw [hkeys]; exact h.found,
      fun b' hb' _ => ?_, fun b' _ hc => ?_⟩
    · exact absurd hclaimed (by simp [show a.claimed = none from hc])
    · cases hnone.symm.trans hr
    · cases hopen.symm.trans hc
    · obtain rfl := Option.some.inj hb'
      simp [hbookings]
    · cases hopen.symm.trans hc
  | stored r b hclaimed hcreated hnew =>
    refine ⟨?_, haborted, h.claim, fun hc => ?_, fun _ _ => ⟨r, b, hclaimed, hcreated, rfl⟩,
      fun _ => .inr ⟨r, b, hclaimed, hcreated, rfl⟩, fun _ hc => ?_, by rw [hkeys]; exact h.found,
      by rw [hbookings]; exact h.inserted, by rw [hbookings]; exact h.booked⟩
    · simp [hkeys, Attempt.pendingKeys, hopen, hpend, hclaimed, hnew]
    · cases hclaimed.symm.trans hc
    · cases hopen.symm.trans hc
  | committed hdone =>
    refine ⟨by simp [hkeys, Attempt.pendingKeys], haborted, h.claim, h.untouched, h.completed,
      fun _ => hdone, fun r _ hr => ?_, fun r hr => ?_, fun _ _ hc =>
        (by cases hc), fun b hb _ => ?_⟩
    · -- the completed row is the newest one of its transaction
      have hr : a.stored = some r := hr
      rw [hkeys, LogStore.commit_committed, hpend, hr]
      exact keyTable.row_cons_self r _
    · rw [hkeys]
      exact ⟨hrows r (h.found r hr).1, (h.found r hr).2⟩
    · rw [hbookings]
      exact List.mem_append_left _ (h.inserted b hb hopen)
  | ended =>
    exact ⟨by simp [hkeys, Attempt.pendingKeys], haborted, h.claim, h.untouched, h.completed,
      fun hc => (by cases hc), fun _ hc => (by cases hc), by rw [hkeys]; exact h.found,
      fun _ _ hc => (by cases hc), fun _ _ hc => by cases hc⟩

/-- One statement of an attempt leaves the committed rows of all keys as they are. -/
theorem KeysInv.rows (h : KeysInv rt g attempt) (ht : attempt t = some a)
    (hopen : a.committed = none) {keys : LogStore T IdempotencyKey}
    {bookings : LogStore T BookingChange} (hstep : AttemptStep rt g t a a' keys bookings)
    {r : IdempotencyKey} (hr : keyTable.row g.keys.committed r.id = some r) :
    keyTable.row keys.committed r.id = some r := by
  cases hstep with
  | committed => exact h.row_commit ht hopen hr
  | _ => exact hr

/-- One statement of an attempt keeps the keys in order. -/
theorem KeysInv.statement (h : KeysInv rt g attempt) (ht : attempt t = some a)
    (hopen : a.committed = none) (hstep : AttemptStep rt g t a a' g'.keys g'.bookings)
    (haborted : g'.aborted t = a'.failed)
    (hne : ∀ u, u ≠ t → g'.keys.pending u = g.keys.pending u ∧
      g'.bookings.pending u = g.bookings.pending u ∧ g'.aborted u = g.aborted u)
    (hsub : g.bookings.committed ⊆ g'.bookings.committed) :
    KeysInv rt g' (Function.update attempt t (some a')) := by
  have hsound := h.sound t a ht
  have hrows : ∀ r, keyTable.row g.keys.committed r.id = some r →
      keyTable.row g'.keys.committed r.id = some r := fun r => h.rows ht hopen hstep
  have hsplit : ∀ {u a''}, Function.update attempt t (some a') u = some a'' →
      u = t ∧ a'' = a' ∨ u ≠ t ∧ attempt u = some a'' := by
    intro u a'' hu
    by_cases hut : u = t
    · subst hut
      exact .inl ⟨rfl, by simpa using hu.symm⟩
    · exact .inr ⟨hut, by simpa [hut] using hu⟩
  refine ⟨fun u a'' hu => ?_, fun u hu => ?_, fun r hr => ?_, ?_⟩
  · rcases hsplit hu with ⟨rfl, rfl⟩ | ⟨hut, hu⟩
    · exact hsound.step hopen hstep haborted hrows
    · obtain ⟨hkeys, hbookings, hab⟩ := hne u hut
      exact (h.sound u a'' hu).frame hkeys hbookings hab hsub hrows
  · have hut : u ≠ t := by
      rintro rfl
      simp at hu
    rw [(hne u hut).1]
    exact h.other u (by simpa [hut] using hu)
  · -- a committed row was committed before, or belongs to the attempt that commits now
    have hold : r ∈ g.keys.committed → ∃ u a'' r₀, Function.update attempt t (some a') u =
        some a'' ∧ a''.claimed = some r₀ ∧ a''.committed = some true ∧
        (r = r₀ ∨ a''.stored = some r) := by
      intro hr
      obtain ⟨u, a'', r₀, hu, hclaimed, hcommitted, hor⟩ := h.origin r hr
      have hut : u ≠ t := by
        rintro rfl
        obtain rfl : a = a'' := Option.some.inj (ht.symm.trans hu)
        exact absurd (hopen.symm.trans hcommitted) nofun
      exact ⟨u, a'', r₀, by simpa [hut] using hu, hclaimed, hcommitted, hor⟩
    generalize g'.keys = keys at hstep hr
    generalize g'.bookings = bookings at hstep
    cases hstep with
    | committed hdone =>
      rcases List.mem_append.1 hr with hpending | hcommitted
      · obtain ⟨r₀, hclaimed, -, hor⟩ := hsound.mem_pending hopen hpending
        exact ⟨t, { a with committed := some true }, r₀, by simp, hclaimed, rfl, hor⟩
      · exact hold hcommitted
    | _ => exact hold hr
  · -- only a claim adds a row that is held, and it finds the key free
    have hheld : ∀ u a'' r r', u ≠ t → attempt u = some a'' → a''.Holds r → a'.Holds r' →
        ¬(r.id = r'.id ∨ a''.tenantId = a'.tenantId ∧ a''.key = a'.key) := by
      intro u a'' r r' hut hu hr hr' hor
      generalize g'.keys = keys at hstep
      generalize g'.bookings = bookings at hstep
      have hsame : a.Holds r' → a.tenantId = a'.tenantId → a.key = a'.key → False := by
        intro hhold hten hkey
        rw [← hten, ← hkey] at hor
        exact hut (h.unique u t a'' a r r' hu ht hr hhold hor)
      cases hstep with
      | claimed r₀ huntouched hrow hfresh hcommitted hpending =>
        obtain rfl : r₀ = r' := Option.some.inj hr'.1
        obtain ⟨r'', hmem, hid, hten, hkey⟩ := (h.sound u a'' hu).holds hr
        rcases hor with hor | ⟨hten', hkey'⟩
        · rcases hmem with hmem | hmem
          · exact hfresh.2 u r'' hmem (hid.trans hor)
          · exact hfresh.1 r'' hmem (hid.trans hor)
        · rcases hmem with hmem | hmem
          · exact hpending u r'' hmem ⟨hten.trans hten', hkey.trans hkey'⟩
          · exact hcommitted r'' hmem ⟨hten.trans hten', hkey.trans hkey'⟩
      | ended => exact hr'.2 rfl
      | committed => exact hsame ⟨hr'.1, by simp [hopen]⟩ rfl rfl
      | _ => exact hsame ⟨hr'.1, by simp [hopen]⟩ rfl rfl
    intro u v a₁ a₂ r r' hu hv hr hr' hor
    rcases hsplit hu with ⟨rfl, rfl⟩ | ⟨hut, hu'⟩
    · rcases hsplit hv with ⟨rfl, -⟩ | ⟨hvt, hv'⟩
      · rfl
      · refine absurd ?_ (hheld v a₂ r' r hvt hv' hr' hr)
        exact hor.imp Eq.symm (fun ⟨hten, hkey⟩ => ⟨hten.symm, hkey.symm⟩)
    · rcases hsplit hv with ⟨rfl, rfl⟩ | ⟨hvt, hv'⟩
      · exact absurd hor (hheld u a₁ r r' hut hu' hr hr')
      · exact h.unique u v a₁ a₂ r r' hu' hv' hr hr' hor

end Step

/-! ## Committed rows -/

/-- Attempt `a` has committed booking `b`. -/
def Attempt.Books (a : Attempt) (b : Booking) : Prop :=
  a.created = some b ∧ a.committed = some true

/-- The row that attempt `a` leaves under its key for booking `b`. -/
def Attempt.completedRow (rt : Runtime) (a : Attempt) (b : Booking) (id : Uuid) : IdempotencyKey :=
  ⟨id, a.tenantId, a.key, a.requestHash, some (rt.instanceToPlain b)⟩

/-- An attempt that books has committed its key with the response filled in. -/
theorem Attempt.Sound.books (h : a.Sound rt g t) {b : Booking} (hb : a.Books b) :
    ∃ r, a.claimed = some r ∧
      keyTable.row g.keys.committed r.id = some (a.completedRow rt b r.id) := by
  obtain ⟨hcreated, hcommitted⟩ := hb
  rcases h.done hcommitted with huntouched | ⟨r, b', hclaimed, hcreated', hstored⟩
  · exact absurd (huntouched.2.1.symm.trans hcreated) nofun
  · obtain rfl : b' = b := Option.some.inj (hcreated'.symm.trans hcreated)
    refine ⟨r, hclaimed, ?_⟩
    rw [show a.completedRow rt b' r.id =
      { r with responseBody := some (rt.instanceToPlain b') } by rw [h.claim r hclaimed]; rfl]
    exact h.current _ hcommitted hstored

namespace KeysInv

/-- A committed row is complete and belongs to an attempt that has committed its booking. -/
theorem row_origin (h : KeysInv rt g attempt) {id : Uuid} {r : IdempotencyKey}
    (hr : keyTable.row g.keys.committed id = some r) :
    ∃ t a b, attempt t = some a ∧ a.Books b ∧ a.claimed.map (·.id) = some id ∧
      r = a.completedRow rt b id := by
  rcases keyTable.row_eq_some hr with ⟨e, he, hid, rfl⟩ | hbase
  · obtain ⟨t, a, r₀, ht, hclaimed, hcommitted, hor⟩ := h.origin e he
    have hsound := h.sound t a ht
    -- an attempt that has committed its claim has committed a booking
    obtain ⟨b, hb⟩ : ∃ b, a.Books b := by
      rcases hsound.done hcommitted with huntouched | ⟨-, b, -, hcreated, -⟩
      · cases huntouched.1.symm.trans hclaimed
      · exact ⟨b, hcreated, hcommitted⟩
    obtain ⟨r₁, hclaimed₁, hrow⟩ := hsound.books hb
    obtain rfl : r₀ = r₁ := Option.some.inj (hclaimed.symm.trans hclaimed₁)
    -- the answer is stored into the row that was claimed
    have heid : e.id = r₀.id := by
      rcases hor with rfl | hstored
      · rfl
      · obtain ⟨r₂, b', hr₂, -, hrow⟩ := hsound.stored_eq hstored
        rw [hrow, Option.some.inj (hr₂.symm.trans hclaimed)]
    obtain rfl : id = r₀.id := hid.symm.trans heid
    exact ⟨t, a, b, ht, hb, by rw [hclaimed]; rfl, Option.some.inj (hr.symm.trans hrow)⟩
  · cases hbase

/-- At most one attempt of a key has committed a booking. -/
theorem books_unique (h : KeysInv rt g attempt) (ht : attempt t = some a) (hu : attempt u = some a')
    (hkey : a.tenantId = a'.tenantId ∧ a.key = a'.key) {b b' : Booking} (hb : a.Books b)
    (hb' : a'.Books b') : t = u := by
  obtain ⟨r, hr, -⟩ := (h.sound t a ht).books hb
  obtain ⟨r', hr', -⟩ := (h.sound u a' hu).books hb'
  exact h.unique t u a a' r r' ht hu ⟨hr, by simp [hb.2]⟩ ⟨hr', by simp [hb'.2]⟩ (.inr hkey)

/-- At most one row of a key is committed. -/
theorem row_unique (h : KeysInv rt g attempt) {id id' : Uuid} {r r' : IdempotencyKey}
    (hr : keyTable.row g.keys.committed id = some r)
    (hr' : keyTable.row g.keys.committed id' = some r')
    (hkey : r.tenantId = r'.tenantId ∧ r.key = r'.key) : r = r' := by
  obtain ⟨t, a, b, ht, hb, hid, rfl⟩ := h.row_origin hr
  obtain ⟨u, a', b', hu, hb', hid', rfl⟩ := h.row_origin hr'
  obtain rfl := h.books_unique ht hu hkey hb hb'
  obtain rfl : a = a' := Option.some.inj (ht.symm.trans hu)
  obtain rfl : b = b' := Option.some.inj (hb.1.symm.trans hb'.1)
  -- both rows have the id that the attempt has claimed
  rw [Option.some.inj (hid.symm.trans hid')]

end KeysInv

end BookingPlatform
