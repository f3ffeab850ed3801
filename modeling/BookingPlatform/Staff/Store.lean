import BookingPlatform.Library.Schedule
import BookingPlatform.Staff.Service

/-!
# The Staff Table

The staff rows under READ COMMITTED, with the uncommitted change of each transaction, and
the tables that decide the plan in force. What a request has counted, and what others have
committed since, is kept beside it, and so is the staff that each creation left behind.

## Main definitions

- `StaffDb`: the tables with every open transaction.
- `StaffDb.planInForce`: the plan that applies to a tenant.
- `staffServer`: any number of staff requests.
-/

namespace BookingPlatform

open Library

/-- An uncommitted change of the staff table. -/
inductive StaffChange where
  | insert (row : Staff)
  | remove (id tenantId : Uuid)
  deriving DecidableEq

/-- The change deletes this row. -/
def StaffChange.Removes (row : Staff) : StaffChange → Prop
  | insert _ => False
  | remove id tenantId => row.id = id ∧ row.tenantId = tenantId

instance (row : Staff) : (change : StaffChange) → Decidable (change.Removes row)
  | .insert _ => .isFalse id
  | .remove _ _ => inferInstanceAs (Decidable (_ ∧ _))

def StaffChange.apply : StaffChange → List Staff → List Staff
  | insert row, rows => row :: rows
  | remove id tenantId, rows =>
    rows.map fun row => if (remove id tenantId).Removes row then { row with
      deleted := true } else row

/-- A live staff row of the tenant. -/
def Staff.LiveIn (tenantId : Uuid) (row : Staff) : Prop :=
  row.tenantId = tenantId ∧ row.deleted = false

instance (tenantId : Uuid) : DecidablePred (Staff.LiveIn tenantId) :=
  fun _ => inferInstanceAs (Decidable (_ ∧ _))

/-- The number of live staff rows of the tenant. -/
def liveStaff (rows : List Staff) (tenantId : Uuid) : ℕ := rows.countP (·.LiveIn tenantId)

/-- What a request has counted, and how many live rows other requests have added to and taken
from the tenant's staff since. -/
structure Counted where
  tenantId : Uuid
  count : ℕ
  added : ℕ
  taken : ℕ
  deriving DecidableEq, Repr

/-- A committed creation: the tenant's live staff just after it, and the plan in force. -/
structure Creation where
  tenantId : Uuid
  live : ℕ
  plan : Option Plan
  deriving DecidableEq, Repr

/-- The tables, with transactions named by `T`. Subscriptions are kept newest first. -/
structure StaffDb (T : Type) where
  staff : List Staff
  pending : T → List StaffChange
  roles : Uuid → Uuid → Option MembershipRole
  subscriptions : List Subscription
  plans : List Plan
  counted : T → Option Counted
  creations : List Creation

namespace StaffDb

variable {T : Type} (g : StaffDb T) (t : T)

/-- The rows as transaction `t` sees them. -/
def rows : List Staff := (g.pending t).foldl (fun rows change => change.apply rows) g.staff

def activeSubscription (tenantId : Uuid) : Option Subscription :=
  g.subscriptions.find? (·.tenantId = tenantId)

def planById (id : Uuid) : Option Plan := g.plans.find? (·.id = id)

def planByCode (code : String) : Option Plan := g.plans.find? (·.code = code)

/-- The plan in force: that of the subscription unless it is canceled, else the default. -/
def planInForce (tenantId : Uuid) : Option Plan :=
  match g.activeSubscription tenantId with
  | some subscription =>
    if subscription.status ≠ .canceled then g.planById subscription.planId
    else g.planByCode defaultPlanCode
  | none => g.planByCode defaultPlanCode

variable {g} in
theorem planInForce_of_subscribed {tenantId : Uuid} {subscription : Subscription}
    (h : g.activeSubscription tenantId = some subscription)
    (hactive : subscription.status ≠ .canceled) :
    g.planInForce tenantId = g.planById subscription.planId := by
  simp only [planInForce, h]
  exact if_pos hactive

variable {g} in
theorem planInForce_of_unsubscribed {tenantId : Uuid}
    (h : ∀ s, g.activeSubscription tenantId = some s → s.status = .canceled) :
    g.planInForce tenantId = g.planByCode defaultPlanCode := by
  unfold planInForce
  cases hfound : g.activeSubscription tenantId with
  | none => rfl
  | some subscription => exact if_neg (not_not.2 (h subscription hfound))

/-- No other transaction has changed the row without having committed. -/
def RowFree (id : Uuid) : Prop := ∀ u, u ≠ t → ∀ change ∈ g.pending u, match change with
  | .insert row => row.id ≠ id
  | .remove id' _ => id' ≠ id

/-- No row that is live, or may become so, has this tenant and user. -/
def UserFree (tenantId userId : Uuid) : Prop :=
  (∀ row ∈ g.rows t, row.LiveIn tenantId → row.userId ≠ userId) ∧
    ∀ u, u ≠ t → ∀ row ∈ g.rows u, row.LiveIn tenantId → row.userId ≠ userId

/-- What `INSERT … RETURNING` can give back. -/
def Inserts (data : StaffData) (row : Staff) : Prop :=
  row.userId = data.userId ∧ row.displayName = data.displayName ∧ row.tenantId = data.tenantId ∧
    row.active = true ∧ row.deleted = false ∧ (∀ u, ∀ row' ∈ g.rows u, row'.id ≠ row.id) ∧
    g.UserFree t data.tenantId data.userId

/-- The results a statement can have when it succeeds. -/
def returns : (s : StaffStatement) → s.Result → Prop
  | .findByUserAndTenant userId tenantId, v => v = g.roles userId tenantId
  | .count tenantId, v => v = liveStaff (g.rows t) tenantId
  | .findActive tenantId, v => v = g.activeSubscription tenantId
  | .findPlanById id, v => v = g.planById id
  | .findPlanByCode code, v => v = g.planByCode code
  | .insertStaff data, v => g.Inserts t data v
  | .softDelete id tenantId, v => g.RowFree t id ∧
      v = (g.rows t).countP fun row => row.id = id ∧ row.tenantId = tenantId
  | .commit, _ => True
  | .rollback, _ => True

/-- The answers a statement can get; any of them can fail. -/
def possible (s : StaffStatement) : Except SqlState s.Result → Prop
  | .ok v => g.returns t s v
  | .error _ => True

/-- The rows that transaction `t` has inserted. -/
def inserted : List Staff := (g.pending t).filterMap fun
  | .insert row => some row
  | .remove .. => none

/-- How many live rows transaction `t` adds to the tenant's staff. -/
def added (tenantId : Uuid) : ℕ := liveStaff (g.inserted t) tenantId

/-- How many live rows transaction `t` takes from the tenant's staff. -/
def taken (tenantId : Uuid) : ℕ :=
  g.staff.countP fun row => row.LiveIn tenantId ∧ ∃ change ∈ g.pending t, change.Removes row

variable [DecidableEq T]

/-- Transaction `t` makes a change. -/
def write (change : StaffChange) : StaffDb T :=
  { g with pending := Function.update g.pending t (g.pending t ++ [change]) }

/-- Transaction `t` ends and is undone. -/
def rollback : StaffDb T :=
  { g with pending := Function.update g.pending t [], counted := Function.update g.counted t none }

/-- What the commit of `t` does to a count that another request has made. -/
def overtake (c : Counted) : Counted :=
  { c with added := c.added + g.added t c.tenantId, taken := c.taken + g.taken t c.tenantId }

def commit : StaffDb T :=
  { g with
    staff := g.rows t
    pending := Function.update g.pending t []
    counted := Function.update (fun u => (g.counted u).map (g.overtake t)) t none
    creations := (g.inserted t).map
      (fun row => ⟨row.tenantId, liveStaff (g.rows t) row.tenantId, g.planInForce row.tenantId⟩) ++
        g.creations }

/-- What a statement that succeeds does. -/
def apply : (s : StaffStatement) → s.Result → StaffDb T
  | .count tenantId, v => { g with
    counted := Function.update g.counted t (some ⟨tenantId, v, 0, 0⟩) }
  | .insertStaff _, v => g.write t (.insert v)
  | .softDelete id tenantId, _ => g.write t (.remove id tenantId)
  | .commit, _ => g.commit t
  | .rollback, _ => g.rollback t
  | .findByUserAndTenant .., _ => g
  | .findActive _, _ => g
  | .findPlanById _, _ => g
  | .findPlanByCode _, _ => g

/-- A `COMMIT` or `ROLLBACK` that fails ends the transaction without it; another failed
statement does nothing. -/
def abort : StaffStatement → StaffDb T
  | .commit | .rollback => g.rollback t
  | _ => g

/-- What a statement with a given answer does. -/
def effect (s : StaffStatement) : Except SqlState s.Result → StaffDb T
  | .ok v => g.apply t s v
  | .error _ => g.abort t s

end StaffDb

/-- Any number of staff requests. One that dies is rolled back. -/
def staffServer {T : Type} [DecidableEq T] :
    Server (sqlSignature StaffStatement StaffStatement.Result) T (StaffDb T) StaffRequest Thrown
      StaffResponse where
  program := handleStaff
  possible t g := g.possible t
  effect t g := g.effect t
  crash t g := g.rollback t
  env _ _ := False

/-- Any tables, before any of the requests. -/
structure StaffDb.Initial {T : Type} (g : StaffDb T) : Prop where
  pending : ∀ t, g.pending t = []
  counted : ∀ t, g.counted t = none
  creations : g.creations = []

end BookingPlatform
