import BookingPlatform.Platform.Tables

/-!
# Statements as Commands

The statements of the booking, staff and payment webhook requests, carried out on the platform's
tables. The where clause of each is the one the repository method builds; row-level security plays
no part here.

## Main definitions

- `bookingCommands`, `staffCommands`, `webhookCommands`: the three translations.
-/

namespace BookingPlatform

open Library

/-- A `tstzrange` whose lower bound lies above its upper bound is refused. -/
def checkedRange (b : StoredBooking) : Except SqlState StoredBooking :=
  if b.startsAt ≤ b.endsAt then .ok b else .error "22000"

/-! ## Booking requests -/

/-- The row of an `INSERT INTO bookings`. -/
def BookingData.stored (data : BookingData) (id : Uuid) : Except SqlState StoredBooking :=
  match data.row id with
  | some b => checkedRange { b with deletedAt := none }
  | none => .error "22007"

def bookingCommand : Statement → Command
  | .findService tenantId id =>
    .select .services fun r => r.id = id ∧ r.tenantId = tenantId ∧ r.deletedAt = none
  | .findLink tenantId staffId serviceId =>
    .select .staffServices fun r =>
      r.staffId = staffId ∧ r.serviceId = serviceId ∧ r.tenantId = tenantId
  | .findCustomer tenantId id =>
    .select .customers fun r => r.id = id ∧ r.tenantId = tenantId ∧ r.deletedAt = none
  | .findTenant id => .select .tenants fun r => r.id = id
  | .findBooking tenantId id =>
    .select .bookings fun r => r.id = id ∧ r.tenantId = tenantId ∧ r.deletedAt = none
  | .insertBooking data => .insert .bookings fun id _ => data.stored id
  | .updateStatus tenantId id version status =>
    .update .bookings (fun r => r.id = id ∧ r.tenantId = tenantId ∧ r.version = version)
      fun _ r => .ok { r with toBooking := r.toBooking.setStatus status }
  | .updateTimes tenantId id version (some startsAt) (some endsAt) =>
    .update .bookings (fun r => r.id = id ∧ r.tenantId = tenantId ∧ r.version = version)
      fun _ r => checkedRange { r with toBooking := r.toBooking.setTimes startsAt endsAt }
  -- an invalid date is refused before a row is looked for
  | .updateTimes _ _ _ none _ => .malformed "22007"
  | .updateTimes _ _ _ (some _) none => .malformed "22007"
  | .cancelSeries tenantId recurrenceId now =>
    .update .bookings
      (fun r => r.recurrenceId = some recurrenceId ∧ r.tenantId = tenantId ∧
        r.status ∈ activeBookingStatuses ∧ now < r.startsAt)
      fun _ r => .ok { r with toBooking := r.toBooking.setStatus .cancelled }
  | .insertEvent tenantId input =>
    .insert .outboxEvents fun id time =>
      .ok { toRecordEventInput := input, id, tenantId, status := .pending, attempts := 0,
            availableAt := time, createdAt := time }
  | .insertRecurrence data => .insert .recurrences fun id _ => .ok { toRecurrenceData := data, id }
  | .insertKey tenantId key requestHash =>
    .insertIgnore .idempotencyKeys fun id _ => ⟨id, tenantId, key, requestHash, none⟩
  | .findKey tenantId key => .select .idempotencyKeys fun r => r.key = key ∧ r.tenantId = tenantId
  | .updateKey id responseBody =>
    .update .idempotencyKeys (fun r => r.id = id)
      fun _ r => .ok { r with responseBody := some responseBody }
  | .savepoint i => .savepoint i
  | .releaseSavepoint i => .release i
  | .rollbackToSavepoint i => .rollbackTo i
  | .now => .now
  | .commit => .commit
  | .rollback => .rollback

def bookingAnswer :
    (s : Statement) → (storeSignature platformSchema).Ans (bookingCommand s) → Sql.Ans s
  | .findService .., r => r.map fun rows => rows.head?.map (·.toService)
  | .findLink .., r => r.map fun rows => rows.head?.map (·.toStaffServiceLink)
  | .findCustomer .., r => r.map fun rows => rows.head?.map (·.toCustomer)
  | .findTenant _, r => r.map fun rows => rows.head?.map (·.toTenant)
  | .findBooking .., r => r.map fun rows => rows.head?.map (·.toBooking)
  | .insertBooking _, r => r.map (·.toBooking)
  | .updateStatus .., r => r.map fun rows => rows.map (·.toBooking)
  | .updateTimes _ _ _ (some _) (some _), r => r.map fun rows => rows.map (·.toBooking)
  | .updateTimes _ _ _ none _, r => r.map fun _ => []
  | .updateTimes _ _ _ (some _) none, r => r.map fun _ => []
  | .cancelSeries .., r => r.map fun rows => rows.map (·.toBooking)
  | .insertEvent .., r => r
  | .insertRecurrence _, r => r
  | .insertKey .., r => r
  | .findKey .., r => r.map (·.head?)
  | .updateKey .., r => r
  | .savepoint _, r => r
  | .releaseSavepoint _, r => r
  | .rollbackToSavepoint _, r => r
  | .now, r => r
  | .commit, r => r
  | .rollback, r => r

/-- Booking requests on the platform's tables. -/
def bookingCommands : Translation Sql (storeSignature platformSchema) where
  stmt := bookingCommand
  ans := bookingAnswer

/-! ## Staff requests -/

/-- The row that `ORDER BY created_at DESC LIMIT 1` returns. -/
def newest (rows : List SubscriptionRow) : Option SubscriptionRow :=
  (rows.mergeSort fun r r' => r'.createdAt ≤ r.createdAt).head?

def staffCommand : StaffStatement → Command
  | .findByUserAndTenant userId tenantId =>
    .select .memberships fun r => r.userId = userId ∧ r.tenantId = tenantId
  | .count tenantId => .select .staff fun r => r.tenantId = tenantId ∧ r.deleted = false
  | .findActive tenantId => .select .subscriptions fun r => r.tenantId = tenantId
  | .findPlanById id => .select .plans fun r => r.id = id
  | .findPlanByCode code => .select .plans fun r => r.code = code
  | .insertStaff data =>
    .insert .staff fun id _ => .ok ⟨id, data.tenantId, data.userId, data.displayName, true, false⟩
  | .softDelete id tenantId =>
    .update .staff (fun r => r.id = id ∧ r.tenantId = tenantId) fun _ r =>
      .ok { r with deleted := true }
  | .commit => .commit
  | .rollback => .rollback

def staffAnswer : (s : StaffStatement) → (storeSignature platformSchema).Ans (staffCommand s) →
    Except SqlState s.Result
  | .findByUserAndTenant .., r => r.map fun rows => rows.head?.map (·.role)
  | .count _, r => r.map List.length
  | .findActive _, r => r.map fun rows => (newest rows).map (·.toSubscription)
  | .findPlanById _, r => r.map fun rows => rows.head?.map (·.toPlan)
  | .findPlanByCode _, r => r.map fun rows => rows.head?.map (·.toPlan)
  | .insertStaff _, r => r
  | .softDelete .., r => r.map List.length
  | .commit, r => r
  | .rollback, r => r

/-- Staff requests on the platform's tables. -/
def staffCommands : Translation (sqlSignature StaffStatement StaffStatement.Result)
    (storeSignature platformSchema) where
  stmt := staffCommand
  ans := staffAnswer

/-! ## Payment webhooks -/

def webhookCommand : WebhookStatement → Command
  | .setTenant tenantId => .config tenantId
  | .claimReceipt provider eventId =>
    .insertIgnore .webhookReceipts fun id _ => { provider, eventId, id }
  | .findByReference reference => .select .subscriptions fun r => r.providerReference = reference
  | .updateStatus id status =>
    .update .subscriptions (fun r => r.id = id) fun _ r => .ok { r with status }
  | .commit => .commit
  | .rollback => .rollback

def webhookAnswer :
    (s : WebhookStatement) → (storeSignature platformSchema).Ans (webhookCommand s) →
    Except SqlState s.Result
  | .setTenant _, r => r
  | .claimReceipt .., r => r.map (·.isSome)
  | .findByReference _, r => r.map fun rows => rows.head?.map (·.toSubscription)
  | .updateStatus .., r => r.map fun _ => ()
  | .commit, r => r
  | .rollback, r => r

/-- Payment webhooks on the platform's tables. -/
def webhookCommands : Translation (sqlSignature WebhookStatement WebhookStatement.Result)
    (storeSignature platformSchema) where
  stmt := webhookCommand
  ans := webhookAnswer

end BookingPlatform
