import BookingPlatform.Booking.Database
import BookingPlatform.Library.Schedule
import Mathlib.Data.Fintype.Basic
import Mathlib.Data.List.Defs

/-!
# Computed Answers of the Booking Database

The answer a booking statement gets in a given state, so that schedules of booking
requests can be played. A choice names the id that an `INSERT` draws, or makes the
statement fail.
-/

namespace BookingPlatform

open Library

/-- How the next statement of a session goes. -/
inductive Choice where
  | succeed (id : Uuid)
  | fail (code : SqlState)

namespace Db

variable {T : Type} [Fintype T] [DecidableEq T] (initial : List Booking) (g : Db T) (t : T)

/-- No row version that `t` can see, old or current, and no uncommitted row of another
transaction stands in the way of row `b`. -/
def slotClear (b : Booking) : Bool :=
  (initial.all fun b' => b'.id = b.id ∨ ¬b'.Excludes b) &&
    ((g.bookings.visible t).all fun c => c.row.id = b.id ∨ ¬c.row.Excludes b) &&
    decide (∀ u, u ≠ t → ∀ c ∈ g.bookings.pending u, ¬c.row.Excludes b)

/-- No other transaction holds the row, and its slot is clear. -/
def writable (b : Booking) : Bool :=
  decide (∀ u, u ≠ t → ∀ c ∈ g.bookings.pending u, c.row.id ≠ b.id) && g.slotClear initial t b

def freshBooking (id : Uuid) : Bool :=
  (initial.all fun b => b.id ≠ id) && (g.bookings.committed.all fun c => c.row.id ≠ id) &&
    decide (∀ u, ∀ c ∈ g.bookings.pending u, c.row.id ≠ id)

def freshKey (id : Uuid) : Bool :=
  (g.keys.committed.all fun r => r.id ≠ id) && decide (∀ u, ∀ r ∈ g.keys.pending u, r.id ≠ id)

def freshEvent (id : Uuid) : Bool :=
  (g.events.committed.all fun e => e.id ≠ id) &&
    decide (∀ u, ∀ e ∈ g.events.pending u, e.id ≠ id)

def freshRecurrence (id : Uuid) : Bool :=
  (g.recurrences.committed.all fun r => r.id ≠ id) &&
    decide (∀ u, ∀ r ∈ g.recurrences.pending u, r.id ≠ id)

/-- The rows an optimistic update writes, if it need not wait. -/
def updated (tenantId id : Uuid) (version : ℤ) (set : Booking → Booking) :
    Option (List Booking) :=
  match (g.tenantBooking initial t tenantId id).filter fun b => b.version = version with
  | none => some []
  | some b => if g.writable initial t (set b) then some [set b] else none

/-- The row a claim of an idempotency key inserts, or `none` for a key that exists; no
answer while another transaction holds the key. -/
def claimed (tenantId : Uuid) (key requestHash : String) (id : Uuid) :
    Option (Option IdempotencyKey) :=
  if ∃ r ∈ g.keys.visible t, r.tenantId = tenantId ∧ r.key = key then some none
  else if g.freshKey id ∧
      (∀ r ∈ g.keys.committed, ¬(r.tenantId = tenantId ∧ r.key = key)) ∧
      ∀ u, ∀ r ∈ g.keys.pending u, ¬(r.tenantId = tenantId ∧ r.key = key) then
    some (some ⟨id, tenantId, key, requestHash, none⟩)
  else none

/-- The current row of an idempotency key. -/
def keyRow (tenantId : Uuid) (key : String) : Option IdempotencyKey :=
  (g.keys.visible t).find? fun r =>
    r.tenantId = tenantId ∧ r.key = key ∧ keyTable.row (g.keys.visible t) r.id = some r

/-- The result of a statement that succeeds. -/
def result (id : Uuid) : (s : Statement) → Option s.Result
  | .findService tenantId i => some (g.catalog.service tenantId i)
  | .findLink tenantId staffId serviceId => some (g.catalog.link tenantId staffId serviceId)
  | .findCustomer tenantId i => some (g.catalog.customer tenantId i)
  | .findTenant i => some (g.catalog.tenant i)
  | .findBooking tenantId i => some (g.tenantBooking initial t tenantId i)
  | .insertBooking data =>
    (data.row id).filter fun b => g.freshBooking initial b.id && g.slotClear initial t b
  | .updateStatus tenantId i version status =>
    g.updated initial t tenantId i version (·.setStatus status)
  | .updateTimes tenantId i version startsAt endsAt =>
    match startsAt, endsAt with
    | some s, some e => g.updated initial t tenantId i version (·.setTimes s e)
    | _, _ => none
  | .cancelSeries .. => some []
  | .insertEvent tenantId input =>
    if g.freshEvent id then
      some { toRecordEventInput := input, id, tenantId, status := .pending, attempts := 0,
             availableAt := 0, createdAt := 0 }
    else none
  | .insertRecurrence data =>
    if g.freshRecurrence id then some { toRecurrenceData := data, id } else none
  | .insertKey tenantId key requestHash => g.claimed t tenantId key requestHash id
  | .findKey tenantId key =>
    match g.keyRow t tenantId key with
    | some r => some (some r)
    | none =>
      if ∃ r ∈ g.keys.visible t, r.tenantId = tenantId ∧ r.key = key then none else some none
  | .updateKey i responseBody =>
    match keyTable.row (g.keys.visible t) i with
    | none => some []
    | some r =>
      if ∀ u, u ≠ t → ∀ r' ∈ g.keys.pending u, r'.id ≠ i then
        some [{ r with responseBody := some responseBody }]
      else none
  | .releaseSavepoint i => if ∃ sp ∈ g.savepoints t, sp.index = i then some () else none
  | .rollbackToSavepoint i => if ∃ sp ∈ g.savepoints t, sp.index = i then some () else none
  | .savepoint _ => some ()
  | .now => some (id : ℤ)
  | .commit => some ()
  | .rollback => some ()

/-- The answer under a choice; only failures without a SQLSTATE of their own are chosen. -/
def answer (c : Choice) (s : Statement) : Option (Except SqlState s.Result) :=
  match c with
  | .succeed id =>
    if g.aborted t = true ∧ runsAborted s = false then none
    else (g.result initial t id s).map .ok
  | .fail code => if code = exclusionViolation ∨ s = .now then none else some (.error code)

variable {initial g t}

theorem slotFree_of_clear {b : Booking} (h : g.slotClear initial t b = true) :
    g.SlotFree initial t b := by
  simp only [slotClear, Bool.and_eq_true, List.all_eq_true, decide_eq_true_eq] at h
  obtain ⟨⟨hinit, hvis⟩, hpend⟩ := h
  refine ⟨fun id b' hne hb' => ?_, hpend⟩
  rcases (bookingTable initial).row_eq_some hb' with ⟨c, hc, hk, rfl⟩ | hbase
  · exact (hvis c hc).resolve_left fun heq => hne (hk.symm.trans heq)
  · refine (hinit b' (List.mem_of_find?_eq_some hbase)).resolve_left fun heq => hne ?_
    have : b'.id = id := by simpa using List.find?_some hbase
    exact this.symm.trans heq

theorem writable_of {b : Booking} (h : g.writable initial t b = true) :
    g.Writable initial t b := by
  simp only [writable, Bool.and_eq_true, decide_eq_true_eq] at h
  exact ⟨h.1, slotFree_of_clear h.2⟩

theorem updates_of_updated {tenantId id : Uuid} {version : ℤ} {set : Booking → Booking}
    {rows : List Booking} (h : g.updated initial t tenantId id version set = some rows) :
    g.Updates initial t tenantId id version set rows := by
  unfold updated at h
  split at h
  · rename_i hnone
    cases h
    rw [Updates, hnone]
  · rename_i b hb
    rw [Updates, hb]
    split at h
    · rename_i hw
      cases h
      exact ⟨writable_of hw, rfl⟩
    · cases h

omit [DecidableEq T] in
theorem freshBooking_of {id : Uuid} (h : g.freshBooking initial id = true) :
    g.FreshBooking initial id := by
  simpa [freshBooking, FreshBooking, and_assoc] using h

omit [DecidableEq T] in
theorem freshKey_of {id : Uuid} (h : g.freshKey id = true) : g.FreshKey id := by
  simpa [freshKey, FreshKey] using h

omit [DecidableEq T] in
theorem freshEvent_of {id : Uuid} (h : g.freshEvent id = true) : g.FreshEvent id := by
  simpa [freshEvent, FreshEvent] using h

omit [DecidableEq T] in
theorem freshRecurrence_of {id : Uuid} (h : g.freshRecurrence id = true) :
    g.FreshRecurrence id := by
  simpa [freshRecurrence, FreshRecurrence] using h

omit [DecidableEq T] in
theorem returns_of_claimed {tenantId : Uuid} {key requestHash : String} {id : Uuid}
    {v : Option IdempotencyKey} (h : g.claimed t tenantId key requestHash id = some v) :
    g.returns initial t (.insertKey tenantId key requestHash) v := by
  unfold claimed at h
  split at h
  · rename_i hex
    cases h
    exact hex
  · split at h
    · rename_i hfree
      cases h
      exact ⟨rfl, rfl, rfl, rfl, freshKey_of hfree.1, hfree.2⟩
    · cases h

/-- A computed result is one the statement can have. -/
theorem returns_of_result {id : Uuid} {s : Statement} {v : s.Result}
    (h : g.result initial t id s = some v) : g.returns initial t s v := by
  cases s with
  | findService tenantId i => exact (Option.some.inj h).symm
  | findLink tenantId staffId serviceId => exact (Option.some.inj h).symm
  | findCustomer tenantId i => exact (Option.some.inj h).symm
  | findTenant i => exact (Option.some.inj h).symm
  | findBooking tenantId i => exact (Option.some.inj h).symm
  -- the checks of the result are those of the constraint
  | insertBooking data =>
    simp only [result, Option.filter_eq_some_iff, Bool.and_eq_true] at h
    obtain ⟨hrow, hfresh, hclear⟩ := h
    have hid : v.id = id := by
      simp only [BookingData.row, Option.bind_eq_bind, Option.bind_eq_some_iff] at hrow
      obtain ⟨s, -, e, -, hrow⟩ := hrow
      cases hrow
      rfl
    exact ⟨by rw [hid]; exact hrow, freshBooking_of hfresh, slotFree_of_clear hclear⟩
  | updateStatus tenantId i version status => exact updates_of_updated h
  | updateTimes tenantId i version startsAt endsAt =>
    simp only [result] at h
    split at h
    · exact ⟨_, _, rfl, rfl, updates_of_updated h⟩
    · cases h
  -- the computed answer meets no row
  | cancelSeries tenantId recurrenceId now =>
    cases h
    exact ⟨List.nodup_nil, by simp⟩
  | insertEvent tenantId input =>
    simp only [result] at h
    split at h
    · rename_i hfresh
      cases h
      exact ⟨rfl, rfl, rfl, rfl, freshEvent_of hfresh⟩
    · cases h
  | insertRecurrence data =>
    simp only [result] at h
    split at h
    · rename_i hfresh
      cases h
      exact ⟨rfl, freshRecurrence_of hfresh⟩
    · cases h
  | insertKey tenantId key requestHash => exact returns_of_claimed h
  -- the row that is found, or the absence of one
  | findKey tenantId key =>
    simp only [result] at h
    split at h
    · rename_i r hr
      cases h
      have := List.find?_some hr
      simp only [decide_eq_true_eq] at this
      exact ⟨this.2.2, this.1, this.2.1⟩
    · split at h
      · cases h
      · rename_i hnone
        cases h
        exact fun r hr hmatch => hnone ⟨r, hr, hmatch⟩
  | updateKey i responseBody =>
    simp only [result] at h
    split at h
    · rename_i hnone
      cases h
      simp only [returns, hnone]
    · rename_i r hr
      simp only [returns, hr]
      split at h
      · rename_i hfree
        cases h
        exact ⟨hfree, rfl⟩
      · cases h
  | releaseSavepoint i =>
    simp only [result] at h
    split at h
    · rename_i hex
      exact hex
    · cases h
  | rollbackToSavepoint i =>
    simp only [result] at h
    split at h
    · rename_i hex
      exact hex
    · cases h
  | _ => trivial

/-- A computed answer is one the statement can get. -/
theorem possible_of_answer {c : Choice} {s : Statement} {r : Except SqlState s.Result}
    (h : g.answer initial t c s = some r) : g.possible initial t s r := by
  cases c with
  | succeed id =>
    simp only [answer] at h
    -- a failed transaction answers nothing but its end
    split at h
    · cases h
    · rename_i hrun
      obtain ⟨v, hv, rfl⟩ := Option.map_eq_some_iff.1 h
      refine ⟨fun hab => ?_, returns_of_result hv⟩
      cases hr : runsAborted s
      · exact absurd ⟨hab, hr⟩ hrun
      · rfl
  | fail code =>
    simp only [answer] at h
    split at h
    · cases h
    · rename_i hcode
      cases h
      rw [not_or] at hcode
      cases s with
      | now => exact absurd rfl hcode.2
      | insertBooking => exact fun heq => absurd heq hcode.1
      | updateStatus => exact fun heq => absurd heq hcode.1
      | updateTimes => exact fun heq => absurd heq hcode.1
      | _ => exact hcode.1

end Db

/-- The booking server with computed answers. -/
def bookingResponder {T : Type} [Fintype T] [DecidableEq T] (rt : Runtime)
    (initial : List Booking) : Responder (bookingServer (T := T) rt initial) Choice where
  answer c t g s := g.answer initial t c s
  sound _ _ _ _ _ h := Db.possible_of_answer h

/-! ## A sample instance -/

/-- Functions that suit any schedule: every date parses to one instant. -/
def sampleRuntime : Runtime where
  parseDate _ := some 1000
  hashBody dto := dto.startsAt
  instanceToPlain _ := "booking"
  expandRecurrence _ := [1000]

/-- One service of 30 minutes that everybody performs for everybody. -/
def sampleCatalog : Catalog where
  service _ _ := some ⟨30, 100, "VND"⟩
  link _ staffId serviceId := some ⟨staffId, serviceId⟩
  customer _ id := some ⟨id⟩
  tenant _ := some ⟨"UTC"⟩

/-- No writes yet, and two requests at most. -/
def sampleDb : Db Bool where
  catalog := sampleCatalog
  bookings := .empty
  events := .empty
  keys := .empty
  recurrences := .empty
  savepoints _ := []
  aborted _ := false

theorem sampleDb_initial : sampleDb.Initial := ⟨rfl, rfl, rfl, fun _ => rfl, fun _ => rfl⟩

/-- A pending booking at version 1. -/
def sampleBooking : Booking where
  id := 1
  tenantId := 1
  staffId := 1
  serviceId := 1
  customerId := 1
  startsAt := 1000
  endsAt := 2000
  status := .pending
  priceAmount := 100
  priceCurrency := "VND"
  recurrenceId := none
  version := 1

end BookingPlatform
