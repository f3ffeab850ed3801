import BookingPlatform.Library.Charter
import BookingPlatform.Platform.Statements

/-!
# The Platform Console

What happens to tenants outside of any tenant's context. A user who onboards a tenant becomes its
owner, and super-admins list tenants, look at one, suspend and reactivate it, for which they leave
records in an audit log. Transactions are those of `dataSource.transaction`, and of a `save` on its
own.

## Main definitions

- `consoleSchema`: the tables of the console, with their unique indexes.
- `TenantService`, `AdminService`: the services.
- `ConsoleRequest`: their requests.
-/

namespace BookingPlatform.Console

open Library

/-! ## Tables -/

inductive AdminAction where
  | tenantView
  | tenantSuspend
  | tenantReactivate
  deriving DecidableEq, Repr

structure AdminMetadata where
  reason : String
  deriving DecidableEq, Repr

/-- What is recorded of a privileged access. -/
structure AuditEntry where
  actorUserId : Uuid
  action : AdminAction
  targetTenantId : Uuid
  metadata : Option AdminMetadata
  deriving DecidableEq, Repr

/-- A row of `admin_audit_logs`. -/
structure AdminAuditLog extends AuditEntry where
  id : Uuid
  createdAt : Instant
  deriving DecidableEq, Repr

/-- A row of `tenants`. -/
structure Tenant where
  id : Uuid
  createdAt : Instant
  name : String
  slug : String
  timezone : String
  status : TenantStatus
  deriving DecidableEq, Repr

inductive ConsoleTable where
  | tenants
  | memberships
  | subscriptions
  | adminAuditLogs
  deriving DecidableEq, Repr

/-- The rows of a table. -/
abbrev ConsoleRow : ConsoleTable → Type
  | .tenants => Tenant
  | .memberships => MembershipRow
  | .subscriptions => SubscriptionRow
  | .adminAuditLogs => AdminAuditLog

/-- The primary key of a row. -/
def consoleRowId : (τ : ConsoleTable) → ConsoleRow τ → Uuid
  | .tenants, r => r.id
  | .memberships, r => r.id
  | .subscriptions, r => r.id
  | .adminAuditLogs, r => r.id

/-- What the unique indexes say of a row beside another one. -/
def consoleConstraint : (τ : ConsoleTable) → ConsoleRow τ → ConsoleRow τ → Option SqlState
  | .tenants, r, r' => unique (r.slug = r'.slug)
  | .memberships, r, r' => unique (r.userId = r'.userId ∧ r.tenantId = r'.tenantId)
  | .subscriptions, r, r' =>
    unique (r.providerReference = r'.providerReference ∨
      (r.tenantId = r'.tenantId ∧ r.status ≠ .canceled ∧ r'.status ≠ .canceled))
  | .adminAuditLogs, _, _ => none

/-- The tables of the console; ids are primary keys. -/
@[reducible] def consoleSchema : Schema where
  Table := ConsoleTable
  Row := ConsoleRow
  Id := Uuid
  id := consoleRowId
  conflict τ r r' := if consoleRowId τ r =
    consoleRowId τ r' then some uniqueViolation else consoleConstraint τ r r'
  decTable := inferInstance
  decId := inferInstance

/-- Code of the console. -/
abbrev ConsoleM : Type → Type := SqlM (Stmt consoleSchema) Stmt.Result

abbrev exec (s : Stmt consoleSchema) : ConsoleM s.Result := execSql s

/-- `dataSource.transaction`: a failure of the body or of the `COMMIT` is rolled back and thrown
again. -/
def transaction {α : Type} (body : ConsoleM α) : ConsoleM α :=
  Prog.tryCatch
    (do
      let value ← body
      exec .commit
      return value)
    fun error => .call .rollback fun _ => .raise error

/-- A transaction that is pinned to a tenant. -/
def runInTenantContext {α : Type} (uuid : UuidText) (tenantId : Uuid) (work : ConsoleM α) :
    ConsoleM α :=
  transaction do
    exec (.config (uuid.text tenantId))
    work

/-! ## Tenants -/

/-- Validated: the slug is in kebab case, and the timezone is a name of the IANA database. -/
structure CreateTenantDto where
  name : String
  slug : String
  timezone : Option String
  deriving DecidableEq, Repr

namespace TenantRepository

def findById (id : Uuid) : ConsoleM (Option Tenant) := do
  let rows ← exec (.select .tenants fun r => r.id = id)
  return rows.head?

def listAll : ConsoleM (List Tenant) := do
  let rows ← exec (.select .tenants fun _ => true)
  return rows.mergeSort fun r r' => r'.createdAt ≤ r.createdAt

/-- The row `r` with the columns in which the entity differs from the row that `save` has loaded. -/
def changed (stored tenant r : Tenant) : Tenant :=
  { r with
    name := if stored.name = tenant.name then r.name else tenant.name
    slug := if stored.slug = tenant.slug then r.slug else tenant.slug
    timezone := if stored.timezone = tenant.timezone then r.timezone else tenant.timezone
    status := if stored.status = tenant.status then r.status else tenant.status }

/-- `save` of an entity that has been loaded: loads it again, and writes what differs. -/
def save (tenant : Tenant) : ConsoleM Unit := do
  match ← findById tenant.id with
  | none =>
    let _ ← exec (.insert .tenants fun _ _ => .ok tenant)
    return ()
  | some stored =>
    if stored = tenant then return ()
    else
      let _ ← exec (.update .tenants (fun r => r.id = tenant.id) fun _ r =>
        .ok (changed stored tenant r))
      return ()

end TenantRepository

namespace TenantService

/-- Inserts the tenant and the membership of its owner in one transaction. -/
def onboard (userId : Uuid) (input : CreateTenantDto) : ConsoleM Tenant :=
  Prog.tryCatch
    (transaction do
      let tenant ← exec (.insert .tenants fun id now =>
        .ok { id, createdAt := now, name := input.name, slug := input.slug,
              timezone := input.timezone.getD "UTC", status := .active })
      let _ ← exec (.insert .memberships fun id _ =>
        .ok { userId, tenantId := tenant.id, role := .owner, id })
      return tenant)
    fun error =>
      -- the unique slug is enforced by the database
      if error = .query uniqueViolation then throwSql
        (.conflict "Tenant slug already in use") else .raise error

def getById (id : Uuid) : ConsoleM Tenant := do
  match ← TenantRepository.findById id with
  | some tenant => return tenant
  | none => throwSql (.notFound "Tenant not found")

def listAll : ConsoleM (List Tenant) := TenantRepository.listAll

end TenantService

/-! ## Super-admins -/

/-- `INSERT INTO admin_audit_logs`. -/
def insertAuditLog (entry : AuditEntry) : ConsoleM AdminAuditLog :=
  exec (.insert .adminAuditLogs fun id now => .ok { toAuditEntry := entry, id, createdAt := now })

def AdminAuditLogRepository.record (entry : AuditEntry) : ConsoleM AdminAuditLog :=
  transaction (insertAuditLog entry)

structure TenantDetail where
  tenant : Tenant
  subscription : Option SubscriptionRow
  deriving DecidableEq, Repr

/-- A change of the status of a tenant by a super-admin. -/
structure StatusChange where
  actorUserId : Uuid
  tenantId : Uuid
  status : TenantStatus
  action : AdminAction
  reason : Option String
  deriving DecidableEq, Repr

/-- An empty reason is none. -/
def StatusChange.entry (c : StatusChange) : AuditEntry where
  actorUserId := c.actorUserId
  action := c.action
  targetTenantId := c.tenantId
  metadata := (c.reason.filter (· ≠ "")).map fun reason => ⟨reason⟩

def viewEntry (actorUserId tenantId : Uuid) : AuditEntry :=
  ⟨actorUserId, .tenantView, tenantId, none⟩

namespace AdminService

def listTenants : ConsoleM (List Tenant) := TenantService.listAll

/-- The privileged access is recorded before the subscription is read. -/
def getTenantDetail (uuid : UuidText) (actorUserId tenantId : Uuid) : ConsoleM TenantDetail := do
  let tenant ← TenantService.getById tenantId
  let _ ← AdminAuditLogRepository.record (viewEntry actorUserId tenantId)
  let rows ← runInTenantContext uuid tenantId <| exec (.select .subscriptions fun r =>
    r.tenantId = tenantId)
  return ⟨tenant, newest rows⟩

/-- The change of the status and its record, in one transaction. -/
def changeStatus (c : StatusChange) : ConsoleM Tenant :=
  transaction do
    match ← TenantRepository.findById c.tenantId with
    | none => throwSql (.notFound "Tenant not found")
    | some found =>
      let tenant := { found with status := c.status }
      TenantRepository.save tenant
      let _ ← insertAuditLog c.entry
      return tenant

def suspension (actorUserId tenantId : Uuid) (reason : Option String) : StatusChange :=
  ⟨actorUserId, tenantId, .suspended, .tenantSuspend, reason⟩

def reactivation (actorUserId tenantId : Uuid) : StatusChange :=
  ⟨actorUserId, tenantId, .active, .tenantReactivate, none⟩

def suspend (actorUserId tenantId : Uuid) (reason : Option String) : ConsoleM Tenant :=
  changeStatus (suspension actorUserId tenantId reason)

def reactivate (actorUserId tenantId : Uuid) : ConsoleM Tenant :=
  changeStatus (reactivation actorUserId tenantId)

end AdminService

/-! ## Requests -/

inductive ConsoleRequest where
  | onboard (userId : Uuid) (input : CreateTenantDto)
  | listTenants
  | tenantDetail (actorUserId tenantId : Uuid)
  | suspend (actorUserId tenantId : Uuid) (reason : Option String)
  | reactivate (actorUserId tenantId : Uuid)
  deriving DecidableEq

inductive ConsoleResponse where
  | tenant (tenant : Tenant)
  | tenants (tenants : List Tenant)
  | detail (detail : TenantDetail)
  deriving DecidableEq

namespace ConsoleRequest

def program (uuid : UuidText) : ConsoleRequest → ConsoleM ConsoleResponse
  | onboard userId input => .tenant <$> TenantService.onboard userId input
  | listTenants => .tenants <$> AdminService.listTenants
  | tenantDetail actorUserId tenantId =>
    .detail <$> AdminService.getTenantDetail uuid actorUserId tenantId
  | suspend actorUserId tenantId reason =>
    .tenant <$> AdminService.suspend actorUserId tenantId reason
  | reactivate actorUserId tenantId => .tenant <$> AdminService.reactivate actorUserId tenantId

/-- The change of a tenant's status that a request asks for. -/
def change? : ConsoleRequest → Option StatusChange
  | suspend actorUserId tenantId reason =>
    some (AdminService.suspension actorUserId tenantId reason)
  | reactivate actorUserId tenantId => some (AdminService.reactivation actorUserId tenantId)
  | _ => none

/-- What a request leaves in the audit log. -/
def entry? : ConsoleRequest → Option AuditEntry
  | tenantDetail actorUserId tenantId => some (viewEntry actorUserId tenantId)
  | suspend actorUserId tenantId reason =>
    some (AdminService.suspension actorUserId tenantId reason).entry
  | reactivate actorUserId tenantId => some (AdminService.reactivation actorUserId tenantId).entry
  | _ => none

end ConsoleRequest

end BookingPlatform.Console
