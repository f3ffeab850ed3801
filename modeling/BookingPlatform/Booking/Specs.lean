import BookingPlatform.Booking.Service

/-!
# Specifications of the Repository Calls

What it takes for each repository call to follow a protocol, for any protocol: the one
statement it issues must be allowed, and every answer must lead to the postcondition.
Proofs about the services use these and never unfold a call.
-/

namespace BookingPlatform

open Library TenantM

variable {Φ : Type} {P : Protocol Sql Φ} {ph : Φ}

/-- No condition on how a program ends. -/
def anyEnd {Φ α : Type} : Φ → Except Thrown α → Prop := fun _ _ => True

@[simp] theorem anyEnd_iff {Φ α : Type} (ph : Φ) (r : Except Thrown α) :
    anyEnd ph r ↔ True := Iff.rfl

theorem follows_exec {s : Statement} {post : Φ → Except Thrown s.Result → Prop} :
    (exec s).Follows P post ph ↔
      P.Issues ph s fun ph' r => match r with
        | .ok v => post ph' (.ok v)
        | .error c => post ph' (.error (.query c)) := by
  refine Protocol.issues_congr fun ph' r => ?_
  cases r <;> exact Iff.rfl

@[simp] theorem map_eq_bind {α β : Type} (f : α → β) (p : TenantM α) :
    f <$> p = p >>= fun a => .ret (f a) := rfl

@[simp] theorem follows_throwApp {α : Type} {e : AppException}
    {post : Φ → Except Thrown α → Prop} :
    (throwApp e).Follows P post ph ↔ post ph (.error (.app e)) := Iff.rfl

@[simp] theorem follows_getService {tenantId id : Uuid}
    {post : Φ → Except Thrown Service → Prop} :
    (getService tenantId id).Follows P post ph ↔
      P.Issues ph (.findService tenantId id) fun ph' r => match r with
        | .ok (some service) => post ph' (.ok service)
        | .ok none => post ph' (.error (.app (.notFound "Service not found")))
        | .error c => post ph' (.error (.query c)) := by
  refine Prog.follows_bind.trans (follows_exec.trans ?_)
  refine Protocol.issues_congr fun ph' r => ?_
  rcases r with c | _ | service <;> exact Iff.rfl

@[simp] theorem follows_canPerform {tenantId staffId serviceId : Uuid}
    {post : Φ → Except Thrown Bool → Prop} :
    (canPerform tenantId staffId serviceId).Follows P post ph ↔
      P.Issues ph (.findLink tenantId staffId serviceId) fun ph' r => match r with
        | .ok v => post ph' (.ok v.isSome)
        | .error c => post ph' (.error (.query c)) := by
  refine Prog.follows_bind.trans (follows_exec.trans ?_)
  refine Protocol.issues_congr fun ph' r => ?_
  rcases r with c | v <;> exact Iff.rfl

@[simp] theorem follows_getCustomer {tenantId id : Uuid}
    {post : Φ → Except Thrown Customer → Prop} :
    (getCustomer tenantId id).Follows P post ph ↔
      P.Issues ph (.findCustomer tenantId id) fun ph' r => match r with
        | .ok (some customer) => post ph' (.ok customer)
        | .ok none => post ph' (.error (.app (.notFound "Customer not found")))
        | .error c => post ph' (.error (.query c)) := by
  refine Prog.follows_bind.trans (follows_exec.trans ?_)
  refine Protocol.issues_congr fun ph' r => ?_
  rcases r with c | _ | customer <;> exact Iff.rfl

@[simp] theorem follows_getTenant {id : Uuid} {post : Φ → Except Thrown Tenant → Prop} :
    (getTenant id).Follows P post ph ↔
      P.Issues ph (.findTenant id) fun ph' r => match r with
        | .ok (some tenant) => post ph' (.ok tenant)
        | .ok none => post ph' (.error (.app (.notFound "Tenant not found")))
        | .error c => post ph' (.error (.query c)) := by
  refine Prog.follows_bind.trans (follows_exec.trans ?_)
  refine Protocol.issues_congr fun ph' r => ?_
  rcases r with c | _ | tenant <;> exact Iff.rfl

@[simp] theorem follows_bookingCreate {data : BookingData}
    {post : Φ → Except Thrown Booking → Prop} :
    (BookingRepository.create data).Follows P post ph ↔
      P.Issues ph (.insertBooking data) fun ph' r => match r with
        | .ok booking => post ph' (.ok booking)
        | .error c => post ph' (.error (BookingRepository.mapSlotConflict (.query c))) := by
  refine Prog.follows_tryCatch.trans (follows_exec.trans ?_)
  refine Protocol.issues_congr fun ph' r => ?_
  rcases r with c | v <;> exact Iff.rfl

@[simp] theorem follows_cancelFutureSeries {tenantId recurrenceId : Uuid} {now : Instant}
    {post : Φ → Except Thrown (List Uuid) → Prop} :
    (BookingRepository.cancelFutureSeries tenantId recurrenceId now).Follows P post ph ↔
      P.Issues ph (.cancelSeries tenantId recurrenceId now) fun ph' r => match r with
        | .ok rows => post ph' (.ok (rows.map (·.id)))
        | .error c => post ph' (.error (.query c)) := by
  refine Prog.follows_bind.trans (follows_exec.trans ?_)
  refine Protocol.issues_congr fun ph' r => ?_
  rcases r with c | v <;> exact Iff.rfl

@[simp] theorem follows_applyStatus {tenantId id : Uuid} {version : ℤ} {status : BookingStatus}
    {post : Φ → Except Thrown Bool → Prop} :
    (BookingRepository.applyStatus tenantId id version status).Follows P post ph ↔
      P.Issues ph (.updateStatus tenantId id version status) fun ph' r => match r with
        | .ok rows => post ph' (.ok (decide (rows.length > 0)))
        | .error c => post ph' (.error (.query c)) := by
  refine Prog.follows_bind.trans (follows_exec.trans ?_)
  refine Protocol.issues_congr fun ph' r => ?_
  rcases r with c | v <;> exact Iff.rfl

@[simp] theorem follows_applyReschedule {tenantId id : Uuid} {version : ℤ}
    {startsAt endsAt : JsDate} {post : Φ → Except Thrown Bool → Prop} :
    (BookingRepository.applyReschedule tenantId id version startsAt endsAt).Follows P post ph ↔
      P.Issues ph (.updateTimes tenantId id version startsAt endsAt) fun ph' r => match r with
        | .ok rows => post ph' (.ok (decide (rows.length > 0)))
        | .error c => post ph' (.error (BookingRepository.mapSlotConflict (.query c))) := by
  refine Prog.follows_tryCatch.trans (Prog.follows_bind.trans (follows_exec.trans ?_))
  refine Protocol.issues_congr fun ph' r => ?_
  rcases r with c | v <;> exact Iff.rfl

@[simp] theorem follows_emit {tenantId : Uuid} {booking : Booking} {eventType : String}
    {post : Φ → Except Thrown OutboxEvent → Prop} :
    (BookingService.emit tenantId booking eventType).Follows P post ph ↔
      P.Issues ph (.insertEvent tenantId
        { aggregateType := "booking", aggregateId := booking.id, eventType,
          payload := BookingService.payload booking }) fun ph' r => match r with
        | .ok event => post ph' (.ok event)
        | .error c => post ph' (.error (.query c)) := by
  refine follows_exec.trans ?_
  refine Protocol.issues_congr fun ph' r => ?_
  rcases r with c | v <;> exact Iff.rfl

@[simp] theorem follows_getOrThrow {tenantId id : Uuid}
    {post : Φ → Except Thrown Booking → Prop} :
    (BookingService.getOrThrow tenantId id).Follows P post ph ↔
      P.Issues ph (.findBooking tenantId id) fun ph' r => match r with
        | .ok (some booking) => post ph' (.ok booking)
        | .ok none => post ph' (.error (.app (.notFound "Booking not found")))
        | .error c => post ph' (.error (.query c)) := by
  refine Prog.follows_bind.trans (follows_exec.trans ?_)
  refine Protocol.issues_congr fun ph' r => ?_
  rcases r with c | _ | booking <;> exact Iff.rfl

/-- A request follows a protocol if its body does up to the statement that ends the
transaction. -/
theorem follows_inTransaction {α : Type} {body : TenantM α}
    {post : Φ → Except Thrown α → Prop} :
    (inTransaction body).Follows P post ph ↔
      body.Follows P (fun ph r => match r with
        | .ok value => P.Issues ph .commit fun ph' r => match r with
          | .ok () => post ph' (.ok value)
          | .error c => post ph' (.error (.query c))
        | .error error => P.Issues ph .rollback fun ph' _ => post ph' (.error error)) ph := by
  refine Prog.follows_bind.trans (Prog.follows_tryCatch.trans ?_)
  refine Prog.follows_congr fun ph' r => ?_
  rcases r with error | value
  · exact Iff.rfl
  · refine Prog.follows_bind.trans (follows_exec.trans ?_)
    refine Protocol.issues_congr fun ph' r => ?_
    rcases r with c | v <;> exact Iff.rfl

end BookingPlatform
