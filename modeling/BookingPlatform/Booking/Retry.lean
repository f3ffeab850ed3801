import BookingPlatform.Booking.Writes
import BookingPlatform.Library.Solo

/-!
# A Create that Runs Alone

What a create request with an Idempotency-Key needs in order to succeed when no other
request is in its way: a free key, rows of the service, the link and the customer, a
valid date and a free slot.

## Main results

- `exists_unused`: reachable tables leave ids unused.
- `keyedCreate_executes`: under these conditions the request succeeds.
-/

namespace BookingPlatform

open Library TenantM

variable {T : Type} {rt : Runtime} {initial : List Booking}

/-- The row that a create request inserts. -/
def createData (rt : Runtime) (tenantId : Uuid) (dto : CreateBookingDto) (service : Service) :
    BookingData where
  tenantId
  staffId := dto.staffId
  serviceId := dto.serviceId
  customerId := dto.customerId
  startsAt := rt.parseDate dto.startsAt
  endsAt := addMs (rt.parseDate dto.startsAt) (service.durationMin * minuteMs)
  status := .pending
  priceAmount := service.priceAmount
  priceCurrency := service.priceCurrency
  recurrenceId := none

namespace Db

variable (g : Db T)

/-- No row of the key, committed or not. -/
def KeyFree (tenantId : Uuid) (key : String) : Prop :=
  (∀ r ∈ g.keys.committed, ¬(r.tenantId = tenantId ∧ r.key = key)) ∧
    ∀ u, ∀ r ∈ g.keys.pending u, ¬(r.tenantId = tenantId ∧ r.key = key)

/-- The request's rows are there, its dates are valid, and its slot is free. -/
def Bookable (rt : Runtime) (initial : List Booking) (t : T) (tenantId : Uuid)
    (dto : CreateBookingDto) : Prop :=
  ∃ service link customer, g.catalog.service tenantId dto.serviceId = some service ∧
    g.catalog.link tenantId dto.staffId dto.serviceId = some link ∧
    g.catalog.customer tenantId dto.customerId = some customer ∧
    ∀ id, ∃ b, (createData rt tenantId dto service).row id = some b ∧ g.SlotFree initial t b

/-- Some id has not been used for a booking, some for a key, and some for an event. -/
def Unused (initial : List Booking) : Prop :=
  (∃ id, g.FreshBooking initial id) ∧ (∃ id, g.FreshKey id) ∧ ∃ id, g.FreshEvent id

/-- The ids in the tables are bounded. -/
structure Bounded : Prop where
  bookings : g.bookings.Bounded fun c => c.row.id
  keys : g.keys.Bounded fun r => r.id
  events : g.events.Bounded fun e => e.id

variable {g} {g' : Db T} {t : T}

/-- Bounded tables leave ids unused. -/
theorem Bounded.unused (h : g.Bounded) (initial : List Booking) : g.Unused initial := by
  refine ⟨?_, ?_, ?_⟩
  · obtain ⟨n, hn, hn'⟩ := h.bookings
    refine ⟨n + (initial.map (·.id)).sum + 1, fun b hb => ?_, fun c hc => ?_, fun u c hc => ?_⟩
    · have hle : b.id ≤ (initial.map (·.id)).sum :=
        List.single_le_sum (by simp) b.id (List.mem_map_of_mem hb)
      exact Nat.ne_of_lt (Nat.lt_succ_of_le (hle.trans (Nat.le_add_left _ _)))
    · exact Nat.ne_of_lt ((hn c hc).trans (by omega))
    · exact Nat.ne_of_lt ((hn' u c hc).trans (by omega))
  · obtain ⟨n, hn, hn'⟩ := h.keys
    exact ⟨n, fun r hr => (hn r hr).ne, fun u r hr => (hn' u r hr).ne⟩
  · obtain ⟨n, hn, hn'⟩ := h.events
    exact ⟨n, fun e he => (hn e he).ne, fun u e he => (hn' u e he).ne⟩

variable [DecidableEq T]

/-- A step of transaction `t` is one operation on each table. -/
structure Moves (g : Db T) (t : T) (g' : Db T) : Prop where
  bookings : g.bookings.Moves t g'.bookings
  keys : g.keys.Moves t g'.keys
  events : g.events.Moves t g'.events

theorem Bounded.moves (h : g.Bounded) (hm : g.Moves t g') : g'.Bounded :=
  ⟨h.bookings.moves hm.bookings, h.keys.moves hm.keys, h.events.moves hm.events⟩

theorem moves_rollback : g.Moves t (g.rollback t) := ⟨.rollback, .rollback, .rollback⟩

/-- Every statement is one operation on each table. -/
theorem moves_effect {s : Statement} {r : Except SqlState s.Result} :
    g.Moves t (g.effect t s r) := by
  -- a failure moves nothing, unless the transaction ends by it
  rcases r with code | v
  · cases s with
    | commit => exact moves_rollback
    | rollback => exact moves_rollback
    | _ => exact ⟨.same _ _, .same _ _, .same _ _⟩
  · cases s with
    | commit =>
      show g.Moves t (g.commit t)
      unfold commit
      split
      · exact moves_rollback
      · exact ⟨.commit, .commit, .commit⟩
    | rollback => exact moves_rollback
    | rollbackToSavepoint i =>
      show g.Moves t (g.rollbackToSavepoint t i)
      unfold rollbackToSavepoint
      split
      · exact ⟨.same _ _, .same _ _, .same _ _⟩
      · exact ⟨.truncate _, .truncate _, .truncate _⟩
    | insertBooking => exact ⟨.write _, .same _ _, .same _ _⟩
    | updateStatus => exact ⟨.write _, .same _ _, .same _ _⟩
    | updateTimes => exact ⟨.write _, .same _ _, .same _ _⟩
    | cancelSeries => exact ⟨.write _, .same _ _, .same _ _⟩
    | insertEvent => exact ⟨.same _ _, .same _ _, .write _⟩
    | insertKey => exact ⟨.same _ _, .write _, .same _ _⟩
    | updateKey => exact ⟨.same _ _, .write _, .same _ _⟩
    | _ => exact ⟨.same _ _, .same _ _, .same _ _⟩

end Db

/-! ## The request alone -/

section Alone

variable [DecidableEq T] {g : Db T} {t : T}

theorem executes_exec {s : Statement} {v : s.Result} (haborted : g.aborted t = false)
    (hv : g.returns initial t s v) :
    (bookingServer rt initial).Executes t (exec s) g (.ok v) (g.apply t s v) :=
  Server.executes_call (.ok v) ⟨fun h => absurd (haborted.symm.trans h) nofun, hv⟩
    (Server.executes_ret v)

/-- The operation of a create request books the slot. -/
theorem doCreate_executes {tenantId : Uuid} {dto : CreateBookingDto}
    (haborted : g.aborted t = false) {id eventId : Uuid} (hid : g.FreshBooking initial id)
    (hevent : g.FreshEvent eventId) (hbook : g.Bookable rt initial t tenantId dto) :
    ∃ b e, (bookingServer rt initial).Executes t (BookingService.doCreate rt tenantId dto) g (.ok b)
      { g with
        bookings := g.bookings.pushAll t [⟨.created, b⟩]
        events := g.events.pushAll t [e] } := by
  obtain ⟨service, link, customer, hservice, hlink, hcustomer, hrow⟩ := hbook
  obtain ⟨b, hb, hslot⟩ := hrow id
  obtain rfl : b.id = id := (BookingData.row_eq_some hb).1
  let e : OutboxEvent := ⟨⟨"booking", b.id, "booking.created", BookingService.payload b⟩, eventId,
    tenantId, .pending, 0, 0, 0⟩
  have hlink' : g.returns initial t (.findLink tenantId dto.staffId dto.serviceId) (some link) :=
    hlink.symm
  have hemit : g.returns initial t (.insertEvent tenantId e.toRecordEventInput) e :=
    ⟨rfl, rfl, rfl, rfl, hevent⟩
  refine ⟨b, e, ?_⟩
  unfold BookingService.doCreate
  -- the three lookups find what they look for
  refine Server.executes_bind (b := service) (Server.executes_bind
    (executes_exec haborted hservice.symm) (Server.executes_ret service)) ?_
  refine Server.executes_bind (b := true) (Server.executes_bind
    (executes_exec haborted hlink') (Server.executes_ret true)) ?_
  refine Server.executes_bind (b := customer) (Server.executes_bind
    (executes_exec haborted hcustomer.symm) (Server.executes_ret customer)) ?_
  -- and the two inserts are accepted
  refine Server.executes_bind (b := b) (Server.executes_tryCatch
    (executes_exec haborted ⟨hb, hid, hslot⟩)) ?_
  exact Server.executes_bind (executes_exec haborted hemit) (Server.executes_ret b)

/-- A create request with a free key succeeds, if nothing else is in its way. -/
theorem keyedCreate_executes {tenantId : Uuid} {dto : CreateBookingDto} {key : String}
    (hkey : key ≠ "") (haborted : g.aborted t = false) (hfree : g.KeyFree tenantId key)
    (hunused : g.Unused initial) (hbook : g.Bookable rt initial t tenantId dto) :
    ∃ b g', (bookingServer rt initial).Executes t
      (handle rt ⟨tenantId, .create dto (some key)⟩) g (.ok (.created (.fresh b))) g' := by
  obtain ⟨⟨bid, hbid⟩, ⟨id, hid⟩, ⟨eid, heid⟩⟩ := hunused
  have hsome : (some key).filter (· ≠ "") = some key := by simp [hkey]
  let r : IdempotencyKey := ⟨id, tenantId, key, rt.hashBody dto, none⟩
  have hclaim : g.returns initial t (.insertKey tenantId key (rt.hashBody dto)) (some r) :=
    ⟨rfl, rfl, rfl, rfl, hid, hfree⟩
  let g₁ : Db T := { g with keys := g.keys.pushAll t [r] }
  -- the claim does not touch the bookings, so the operation goes through as before
  have hbook₁ : g₁.Bookable rt initial t tenantId dto := hbook
  have hbid₁ : g₁.FreshBooking initial bid := hbid
  have heid₁ : g₁.FreshEvent eid := heid
  obtain ⟨b, e, hdo⟩ := doCreate_executes (g := g₁) haborted hbid₁ heid₁ hbook₁
  let g₂ : Db T := { g₁ with
    bookings := g₁.bookings.pushAll t [⟨.created, b⟩]
    events := g₁.events.pushAll t [e] }
  have hrow : keyTable.row (g₂.keys.visible t) id = some r := by
    show keyTable.row ((g.keys.pushAll t [r]).visible t) id = some r
    rw [LogStore.pushAll_visible_self]
    exact keyTable.row_cons_self r _
  have hupdate : g₂.returns initial t (.updateKey id (rt.instanceToPlain b))
      [{ r with responseBody := some (rt.instanceToPlain b) }] := by
    simp only [Db.returns, hrow]
    refine ⟨fun u hu r' hr' => hid.2 u r' ?_, trivial⟩
    rwa [show g₂.keys.pending u = g.keys.pending u from LogStore.pushAll_pending_ne _ hu _] at hr'
  let g₃ : Db T := g₂.apply t (.updateKey id (rt.instanceToPlain b))
    [{ r with responseBody := some (rt.instanceToPlain b) }]
  have hrun : (bookingServer rt initial).Executes t
      (BookingService.create rt tenantId dto (some key)) g (.ok (.fresh b)) g₃ := by
    unfold BookingService.create IdempotencyService.run
    rw [hsome]
    refine Server.executes_bind (executes_exec haborted hclaim) ?_
    refine Server.executes_bind hdo ?_
    exact Server.executes_bind (executes_exec haborted hupdate) (Server.executes_ret _)
  have hcommit : g₃.returns initial t .commit () := trivial
  refine ⟨b, g₃.apply t .commit (), ?_⟩
  refine Server.executes_bind (Server.executes_tryCatch
    (Server.executes_bind hrun (Server.executes_ret _))) ?_
  exact Server.executes_bind (executes_exec haborted hcommit) (Server.executes_ret _)

end Alone

end BookingPlatform
