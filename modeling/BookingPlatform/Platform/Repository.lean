import BookingPlatform.Platform.Statements

/-!
# Tenant Repositories

What the tenant-scoped services have in common: the functions of the runtime that they call, the
repository that adds the ambient tenant to every query, and the row of the tenant itself.

## Main definitions

- `PlatformRuntime`: pure functions of the libraries.
- `BaseTenantRepository`: queries within a tenant.
-/

namespace BookingPlatform

open Library PlatformM

/-- A checkout session of a payment provider. -/
structure CheckoutSession where
  provider : PaymentProviderName
  reference : String
  checkoutUrl : String
  deriving DecidableEq, Repr

structure CheckoutInput where
  reference : String
  amount : ℤ
  currency : String
  description : String
  deriving DecidableEq, Repr

/-- The pure functions that the services call: the text of ids, the order of texts in the database
and in JavaScript, lower case, the check of a webhook URL, the provider's checkout page and a secret
made of random bytes; and those of the booking requests and the reports. -/
structure PlatformRuntime where
  uuid : UuidText
  booking : Runtime
  reporting : ReportingRuntime
  collate : String → String → Bool
  toLowerCase : String → String
  validateWebhookUrl : String → Except Thrown Unit
  createCheckout : PaymentProviderName → CheckoutInput → Except Thrown CheckoutSession
  secret : Uuid → String

/-- A value, or an exception that is thrown. -/
def PlatformM.ofExcept {α : Type} : Except Thrown α → PlatformM α
  | .ok a => .ret a
  | .error e => .raise e

/-- Catches one SQLSTATE and throws another exception in its place. -/
def PlatformM.mapCode {α : Type} (code : SqlState) (e : AppException) (body : PlatformM α) :
    PlatformM α :=
  body.tryCatch fun error => if error = .query code then throwSql e else .raise error

/-- The page of a list query; both are at least 1. -/
structure BaseQuery where
  page : ℕ
  limit : ℕ
  deriving DecidableEq, Repr

namespace BaseTenantRepository

variable (τ : TableName) (tenantId : Uuid)

/-- The where clause with the tenant added to it. -/
def scopedWhere (p : Row τ → Bool) (r : Row τ) : Bool := p r && (rowTenant τ r = some tenantId)

/-- Queries by entity leave out soft-deleted rows. -/
def findMany (p : Row τ → Bool) : PlatformM (List (Row τ)) :=
  exec (.select τ fun r => scopedWhere τ tenantId p r && rowLive τ r)

def findOne (p : Row τ → Bool) : PlatformM (Option (Row τ)) := do
  let rows ← findMany τ tenantId p
  return rows.head?

/-- The rows of one page and the number of all rows, by two queries. -/
def findAndCount (order : Row τ → Row τ → Bool) (query : BaseQuery) :
    PlatformM (List (Row τ) × ℕ) := do
  let rows ← findMany τ tenantId fun _ => true
  let all ← findMany τ tenantId fun _ => true
  return (((rows.mergeSort order).drop ((query.page - 1) * query.limit)).take query.limit,
    all.length)

/-- Inserts a row of the tenant. -/
def persist (entity : (tenantId id : Uuid) → Instant → Except SqlState (Row τ)) :
    PlatformM (Row τ) :=
  exec (.insert τ (entity tenantId))

/-- Updates the rows of the tenant that match, and returns their number. -/
def update (p : Row τ → Bool) (set : Instant → Row τ → Row τ) : PlatformM ℕ := do
  let rows ← exec (.update τ (scopedWhere τ tenantId p) fun time r => .ok (set time r))
  return rows.length

/-- Deletes the rows of the tenant that match, and returns their number. -/
def delete (p : Row τ → Bool) : PlatformM ℕ := exec (.delete τ (scopedWhere τ tenantId p))

/-! ## What queries read -/

/-- The rows that a query by entity finds. -/
def rowsOf (db : Store platformSchema) (τ : TableName) (tenantId : Uuid) (p : Row τ → Bool) :
    List (Row τ) :=
  (db τ).filter fun r => scopedWhere τ tenantId p r && rowLive τ r

theorem mem_rowsOf {db : Store platformSchema} {τ : TableName} {tenantId : Uuid} {p : Row τ → Bool}
    {r : Row τ} :
    r ∈ rowsOf db τ tenantId p ↔
      r ∈ db τ ∧ p r = true ∧ rowTenant τ r = some tenantId ∧ rowLive τ r = true := by
  simp [rowsOf, scopedWhere, and_assoc]

/-- A where clause that says the same finds the same rows. -/
theorem filter_eq_rowsOf (τ : TableName) {db : Store platformSchema} {tenantId : Uuid}
    {p q : Row τ → Bool}
    (h : ∀ r, q r = true ↔ p r = true ∧ rowTenant τ r = some tenantId ∧ rowLive τ r = true) :
    (db τ).filter q = rowsOf db τ tenantId p := by
  refine List.filter_congr fun r _ => ?_
  rw [Bool.eq_iff_iff, h r]
  simp [scopedWhere, and_assoc]

section Reading

variable {supply : ℕ → Uuid × ℤ} {db : Store platformSchema} {τ : TableName} {tenantId : Uuid}
  {p : Row τ → Bool}

theorem reads_select : (exec (.select τ p)).Reads supply db (.ok ((db τ).filter p)) :=
  Prog.reads_select (Prog.reads_ret _)

theorem reads_findMany : (findMany τ tenantId p).Reads supply db (.ok (rowsOf db τ tenantId p)) :=
  Prog.reads_select (Prog.reads_ret _)

theorem reads_findOne :
    (findOne τ tenantId p).Reads supply db (.ok (rowsOf db τ tenantId p).head?) :=
  reads_findMany.bind (Prog.reads_ret _)

theorem reads_ofExcept {α : Type} (r : Except Thrown α) :
    (PlatformM.ofExcept r).Reads (D := platformSchema) supply db r := by
  cases r with
  | ok a => exact Prog.reads_ret a
  | error e => exact Prog.reads_raise e

end Reading

end BaseTenantRepository

/-- The row of the tenant. -/
def TenantService.getById (id : Uuid) : PlatformM TenantRow := do
  match (← exec (.select .tenants fun r => r.id = id)).head? with
  | some tenant => return tenant
  | none => throwSql (.notFound "Tenant not found")

end BookingPlatform
