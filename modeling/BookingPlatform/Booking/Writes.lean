import BookingPlatform.Booking.Database

/-!
# What a Statement Does to the Bookings

One statement of one request either writes rows of its own transaction, or ends the
transaction, or returns to a savepoint. Every invariant about booking rows is derived
from this case distinction.

## Main results

- `Db.effect_bookings`: the case distinction.
- `Db.effect_serial`: a statement keeps the bookings serial under every relation that its
  writes satisfy.
- `Versioned`: what holds of every write, whatever the request.
-/

namespace BookingPlatform

open Library

/-- `s` writes `c` over a row that was `before`. -/
def Statement.Writes : Statement → Option Booking → BookingChange → Prop
  | .insertBooking data, before, c =>
    before = none ∧ data.row c.row.id = some c.row ∧ c.kind = .created
  | .updateStatus tenantId id version status, before, c =>
    ∃ b, before = some b ∧ b.id = id ∧ b.tenantId = tenantId ∧ b.version = version ∧
      c = ⟨.status status, b.setStatus status⟩
  | .updateTimes tenantId id version startsAt endsAt, before, c =>
    ∃ b s e, before = some b ∧ b.id = id ∧ b.tenantId = tenantId ∧ b.version = version ∧
      startsAt = some s ∧ endsAt = some e ∧ c = ⟨.rescheduled, b.setTimes s e⟩
  | .cancelSeries tenantId recurrenceId date, before, c =>
    ∃ b, before = some b ∧ b.tenantId = tenantId ∧ b.recurrenceId = some recurrenceId ∧
      b.status ∈ activeBookingStatuses ∧ date < b.startsAt ∧
      c = ⟨.status .cancelled, b.setStatus .cancelled⟩
  | _, _, _ => False

/-- What holds of every write of a booking row: the insert makes version 1 of a new row,
every later write keeps the row's id and tenant and adds one to its version. -/
def Versioned (before : Option Booking) (c : BookingChange) : Prop :=
  match before with
  | none => c.kind = .created ∧ c.row.version = 1
  | some b => c.kind ≠ .created ∧ c.row.version = b.version + 1 ∧ c.row.tenantId = b.tenantId

@[simp] theorem setStatus_id (b : Booking) (s : BookingStatus) : (b.setStatus s).id = b.id := rfl

@[simp] theorem setTimes_id (b : Booking) (s e : Instant) : (b.setTimes s e).id = b.id := rfl

theorem BookingData.row_eq_some {data : BookingData} {id : Uuid} {b : Booking}
    (h : data.row id = some b) :
    b.id = id ∧ b.tenantId = data.tenantId ∧ b.status = data.status ∧ b.version = 1 := by
  simp only [BookingData.row, Option.bind_eq_bind, Option.bind_eq_some_iff] at h
  obtain ⟨s, -, e, -, h⟩ := h
  cases h
  exact ⟨rfl, rfl, rfl, rfl⟩

theorem Statement.Writes.versioned {s : Statement} {before : Option Booking} {c : BookingChange}
    (h : s.Writes before c) : Versioned before c := by
  cases s with
  -- an insert starts at version 1, and every update adds one
  | insertBooking data =>
    obtain ⟨rfl, hrow, hkind⟩ := h
    exact ⟨hkind, (BookingData.row_eq_some hrow).2.2.2⟩
  | updateStatus tenantId id version status =>
    obtain ⟨b, rfl, -, -, -, rfl⟩ := h
    exact ⟨by simp, rfl, rfl⟩
  | updateTimes tenantId id version startsAt endsAt =>
    obtain ⟨b, s, e, rfl, -, -, -, -, -, rfl⟩ := h
    exact ⟨by simp, rfl, rfl⟩
  | cancelSeries tenantId recurrenceId now =>
    obtain ⟨b, rfl, -, -, -, -, rfl⟩ := h
    exact ⟨by simp, rfl, rfl⟩
  | _ => exact h.elim

/-- One row version is the other, or has a lower version number. -/
def Booking.NotNewer (a b : Booking) : Prop := a = b ∨ a.version < b.version

theorem Booking.NotNewer.trans {a b c : Booking} (hab : a.NotNewer b) (hbc : b.NotNewer c) :
    a.NotNewer c := by
  rcases hab with rfl | hab
  · exact hbc
  · rcases hbc with rfl | hbc
    · exact .inr hab
    · exact .inr (Int.lt_trans hab hbc)

theorem Versioned.notNewer {b : Booking} {c : BookingChange} (h : Versioned (some b) c) :
    b.NotNewer c.row :=
  .inr (by rw [h.2.1]; exact Int.lt_succ _)

namespace Db

variable {T : Type} {initial : List Booking} {g : Db T} {t : T}

/-- A row is stored under its own id. -/
theorem booking_id {id : Uuid} {b : Booking} (h : g.booking initial t id = some b) :
    b.id = id := by
  rcases (bookingTable initial).row_eq_some h with ⟨c, -, hk, hv⟩ | hb
  · rw [← hv]
    exact hk
  · simpa using List.find?_some hb

theorem tenantBooking_eq_some {tenantId id : Uuid} {b : Booking} :
    g.tenantBooking initial t tenantId id = some b ↔
      g.booking initial t id = some b ∧ b.tenantId = tenantId := by
  simp [tenantBooking, Option.filter_eq_some_iff]

/-- The rows an `UPDATE … WHERE id AND tenant_id AND version` writes. -/
theorem Updates.mem {tenantId id : Uuid} {version : ℤ} {set : Booking → Booking}
    {rows : List Booking} (h : g.Updates initial t tenantId id version set rows) {r : Booking}
    (hr : r ∈ rows) :
    rows = [r] ∧ g.Writable initial t r ∧ ∃ b, g.booking initial t id = some b ∧
      b.tenantId = tenantId ∧ b.version = version ∧ r = set b := by
  unfold Updates at h
  split at h
  · subst h
    cases hr
  · rename_i b hb
    obtain ⟨hw, rfl⟩ := h
    rw [List.mem_singleton] at hr
    subst hr
    rw [Option.filter_eq_some_iff, tenantBooking_eq_some] at hb
    exact ⟨rfl, hw, b, hb.1.1, hb.1.2, by simpa using hb.2, rfl⟩

variable [DecidableEq T]

/-- What a statement `s` of transaction `t` makes of the bookings. -/
inductive BookingEffect (initial : List Booking) (g : Db T) (t : T) (s : Statement) :
    LogStore T BookingChange → Prop where
  | write (cs : List BookingChange)
      (hfree : ∀ c ∈ cs, g.bookings.Free (bookingTable initial) t c.row.id)
      (hnd : (cs.map (·.row.id)).Nodup)
      (hw : ∀ c ∈ cs, s.Writes (g.booking initial t c.row.id) c) :
      BookingEffect initial g t s (g.bookings.pushAll t cs)
  | commit (hs : s = .commit) : BookingEffect initial g t s (g.bookings.commit t)
  | rollback (hs : s = .commit ∨ s = .rollback) :
      BookingEffect initial g t s (g.bookings.rollback t)
  | truncate (i n : ℕ) (hs : s = .rollbackToSavepoint i) :
      BookingEffect initial g t s (g.bookings.truncate t n)

/-- A statement that writes no booking. -/
theorem BookingEffect.same {s : Statement} : BookingEffect initial g t s g.bookings := by
  have h : BookingEffect initial g t s (g.bookings.pushAll t []) :=
    .write [] (by simp) (by simp) (by simp)
  rwa [LogStore.pushAll_nil] at h

/-- Rows written by an `UPDATE … WHERE id AND tenant_id AND version`, as changes of kind
`kind`. -/
theorem Updates.effect {s : Statement} {tenantId id : Uuid} {version : ℤ}
    {set : Booking → Booking} {rows : List Booking} {kind : ChangeKind}
    (h : g.Updates initial t tenantId id version set rows) (hset : ∀ b, (set b).id = b.id)
    (hs : ∀ b, b.id = id → b.tenantId = tenantId → b.version = version →
      s.Writes (some b) ⟨kind, set b⟩) :
    BookingEffect initial g t s (g.bookings.pushAll t (rows.map (⟨kind, ·⟩))) := by
  refine .write _ ?_ ?_ ?_
  · intro c hc
    obtain ⟨r, hr, rfl⟩ := List.mem_map.1 hc
    exact (h.mem hr).2.1.1
  · -- the update meets one row at most
    rcases rows with - | ⟨r, rows⟩
    · simp
    · rw [(h.mem List.mem_cons_self).1]
      simp
  · intro c hc
    obtain ⟨r, hr, rfl⟩ := List.mem_map.1 hc
    obtain ⟨-, -, b, hb, hten, hver, rfl⟩ := h.mem hr
    have hid : b.id = id := booking_id hb
    rw [hset b, hid, hb]
    exact hs b hid hten hver

theorem commit_bookings : (g.commit t).bookings = g.bookings.commit t ∨
    (g.commit t).bookings = g.bookings.rollback t := by
  unfold commit
  split
  · exact .inr rfl
  · exact .inl rfl

theorem rollbackToSavepoint_bookings (i : ℕ) :
    (g.rollbackToSavepoint t i).bookings = g.bookings ∨
      ∃ n, (g.rollbackToSavepoint t i).bookings = g.bookings.truncate t n := by
  unfold rollbackToSavepoint
  split
  · exact .inl rfl
  · exact .inr ⟨_, rfl⟩

/-- A statement writes rows of its own transaction, ends the transaction, or returns to a
savepoint. -/
theorem effect_bookings {s : Statement} {r : Except SqlState s.Result}
    (h : g.possible initial t s r) :
    BookingEffect initial g t s (g.effect t s r).bookings := by
  cases r with
  | error code =>
    cases s with
    | commit => exact .rollback (.inl rfl)
    | rollback => exact .rollback (.inr rfl)
    | _ => exact .same
  | ok v =>
    obtain ⟨-, hret⟩ := h
    cases s with
    | insertBooking data =>
      obtain ⟨hrow, hfresh, -⟩ := hret
      refine .write [⟨.created, v⟩] ?_ (by simp) ?_
      · simp only [List.mem_singleton, forall_eq]
        exact fun u _ c hc => hfresh.2.2 u c hc
      · simp only [List.mem_singleton, forall_eq]
        -- the id is in neither the log nor the base, so that the row is new
        refine ⟨?_, hrow, rfl⟩
        refine ((bookingTable initial).row_of_ne fun c hc => ?_).trans ?_
        · rcases List.mem_append.1 hc with hp | hc
          · exact hfresh.2.2 t c hp
          · exact hfresh.2.1 c hc
        · simpa using hfresh.1
    | updateStatus tenantId id version status =>
      exact hret.effect (fun _ => rfl) fun b hid hten hver => ⟨b, rfl, hid, hten, hver, rfl⟩
    | updateTimes tenantId id version startsAt endsAt =>
      obtain ⟨s, e, hs, he, hret⟩ := hret
      exact hret.effect (fun _ => rfl) fun b hid hten hver =>
        ⟨b, s, e, rfl, hid, hten, hver, hs, he, rfl⟩
    -- each row of the series is met once
    | cancelSeries tenantId recurrenceId now =>
      obtain ⟨hnd, hrows⟩ := hret
      refine .write _ ?_ (by simpa [Function.comp_def] using hnd) ?_
      · intro c hc
        obtain ⟨r, hr, rfl⟩ := List.mem_map.1 hc
        obtain ⟨b, -, -, -, -, -, hw⟩ := hrows r hr
        exact hw.1
      · intro c hc
        obtain ⟨r, hr, rfl⟩ := List.mem_map.1 hc
        obtain ⟨b, hb, hrec, hact, hnow, rfl, -⟩ := hrows r hr
        rw [tenantBooking_eq_some] at hb
        exact ⟨b, hb.1, hb.2, hrec, hact, hnow, rfl⟩
    | rollbackToSavepoint i =>
      rcases g.rollbackToSavepoint_bookings (t := t) i with heq | ⟨n, heq⟩
      · rw [effect, apply, heq]
        exact .same
      · rw [effect, apply, heq]
        exact .truncate i n rfl
    -- either everything is appended or everything is dropped
    | commit =>
      rcases g.commit_bookings (t := t) with heq | heq
      · rw [effect, apply, heq]
        exact .commit rfl
      · rw [effect, apply, heq]
        exact .rollback (.inl rfl)
    | rollback => exact .rollback (.inr rfl)
    | _ => exact .same

/-- A statement keeps the bookings serial under every relation that its writes satisfy. -/
theorem BookingEffect.serial {P : Option Booking → BookingChange → Prop} {s : Statement}
    {bookings : LogStore T BookingChange} (h : BookingEffect initial g t s bookings)
    (hg : g.bookings.Serial (bookingTable initial) P)
    (hP : ∀ before c, s.Writes before c → g.booking initial t c.row.id = before → P before c) :
    bookings.Serial (bookingTable initial) P := by
  cases h with
  | write cs hfree hnd hw => exact hg.pushAll hfree hnd fun c hc => hP _ c (hw c hc) rfl
  | commit => exact hg.commit t
  | rollback => exact hg.rollback t
  | truncate i n => exact hg.truncate t n

end Db

end BookingPlatform
