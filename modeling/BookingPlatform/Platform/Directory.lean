import BookingPlatform.Platform.Repository

/-!
# Services, Customers and Staff

What a tenant offers and who takes part in it: its services, its customers and the profiles of its
staff. Staff are created and removed by the requests of `Staff.Service`.

## Main definitions

- `ServiceService`, `CustomerService`, `StaffService`: the services of the three tables.
-/

namespace BookingPlatform

open Library BaseTenantRepository

/-! ## Services -/

/-- Validated: a duration has 1 to 1440 minutes. -/
structure CreateServiceDto where
  name : String
  durationMin : ℤ
  priceAmount : ℤ
  priceCurrency : Option String
  bufferBeforeMin : Option ℕ
  bufferAfterMin : Option ℕ
  duration_pos : 0 < durationMin
  deriving DecidableEq

structure UpdateServiceDto where
  name : Option String
  durationMin : Option ℤ
  priceAmount : Option ℤ
  priceCurrency : Option String
  bufferBeforeMin : Option ℕ
  bufferAfterMin : Option ℕ
  active : Option Bool
  duration_pos : ∀ d ∈ durationMin, 0 < d
  deriving DecidableEq

/-- Writes only the provided columns. -/
def UpdateServiceDto.set (dto : UpdateServiceDto) (r : ServiceRow) : ServiceRow :=
  { r with
    name := dto.name.getD r.name
    durationMin := dto.durationMin.getD r.durationMin
    priceAmount := dto.priceAmount.getD r.priceAmount
    priceCurrency := dto.priceCurrency.getD r.priceCurrency
    bufferBeforeMin := dto.bufferBeforeMin.getD r.bufferBeforeMin
    bufferAfterMin := dto.bufferAfterMin.getD r.bufferAfterMin
    active := dto.active.getD r.active
    duration_pos := by
      have hdto := dto.duration_pos
      cases hd : dto.durationMin with
      | none => exact r.duration_pos
      | some d => exact hdto d hd }

namespace ServiceService

variable (rt : PlatformRuntime) (tenantId : Uuid)

def mapUniqueViolation {α : Type} (body : PlatformM α) : PlatformM α :=
  PlatformM.mapCode uniqueViolation (.conflict "A service with this name already exists") body

def create (dto : CreateServiceDto) : PlatformM ServiceRow :=
  mapUniqueViolation <| persist .services tenantId fun tenantId id _ =>
    .ok { id, tenantId, name := dto.name, durationMin := dto.durationMin,
          priceAmount := dto.priceAmount, priceCurrency := dto.priceCurrency.getD "VND",
          bufferBeforeMin := dto.bufferBeforeMin.getD 0, bufferAfterMin :=
            dto.bufferAfterMin.getD 0,
          active := true, deletedAt := none, duration_pos := dto.duration_pos }

def getById (id : Uuid) : PlatformM ServiceRow := do
  match ← findOne .services tenantId fun r => r.id = id with
  | some service => return service
  | none => throwSql (.notFound "Service not found")

def list (query : BaseQuery) : PlatformM (List ServiceRow × ℕ) :=
  findAndCount .services tenantId (fun r r' => rt.collate r.name r'.name) query

def update (id : Uuid) (dto : UpdateServiceDto) : PlatformM ServiceRow :=
  mapUniqueViolation do
    let affected ← BaseTenantRepository.update .services tenantId (fun r => r.id = id) fun _ =>
      dto.set
    if affected = 0 then throwSql (.notFound "Service not found")
    else
      match ← findOne .services tenantId fun r => r.id = id with
      | some service => return service
      | none => throwSql (.notFound "Service not found")

def remove (id : Uuid) : PlatformM Unit := do
  let affected ← BaseTenantRepository.update .services tenantId (fun r => r.id = id)
    fun now r => { r with deletedAt := some now }
  if affected > 0 then return () else throwSql (.notFound "Service not found")

end ServiceService

/-! ## Customers -/

structure CreateCustomerDto where
  name : String
  email : String
  phone : Option String
  deriving DecidableEq, Repr

namespace CustomerService

variable (rt : PlatformRuntime) (tenantId : Uuid)

def create (dto : CreateCustomerDto) : PlatformM CustomerRow :=
  PlatformM.mapCode uniqueViolation (.conflict "A customer with this email already exists") <|
    persist .customers tenantId fun tenantId id _ =>
      .ok { id, tenantId, name := dto.name, email := rt.toLowerCase dto.email, phone := dto.phone,
            deletedAt := none }

def getById (id : Uuid) : PlatformM CustomerRow := do
  match ← findOne .customers tenantId fun r => r.id = id with
  | some customer => return customer
  | none => throwSql (.notFound "Customer not found")

def list (query : BaseQuery) : PlatformM (List CustomerRow × ℕ) :=
  findAndCount .customers tenantId (fun r r' => rt.collate r.name r'.name) query

end CustomerService

/-! ## Staff profiles -/

structure UpdateStaffDto where
  displayName : Option String
  active : Option Bool
  deriving DecidableEq, Repr

namespace StaffService

variable (rt : PlatformRuntime) (tenantId : Uuid)

def findById (id : Uuid) : PlatformM (Option Staff) := findOne .staff tenantId fun r => r.id = id

def getById (id : Uuid) : PlatformM Staff := do
  match ← findById tenantId id with
  | some staff => return staff
  | none => throwSql (.notFound "Staff not found")

def list (query : BaseQuery) : PlatformM (List Staff × ℕ) :=
  findAndCount .staff tenantId (fun r r' => rt.collate r.displayName r'.displayName) query

def update (id : Uuid) (dto : UpdateStaffDto) : PlatformM Staff := do
  let affected ← BaseTenantRepository.update .staff tenantId (fun r => r.id = id)
    fun _ r => { r with displayName := dto.displayName.getD r.displayName,
                        active := dto.active.getD r.active }
  if affected = 0 then throwSql (.notFound "Staff not found")
  else
    match ← findById tenantId id with
    | some staff => return staff
    | none => throwSql (.notFound "Staff not found")

end StaffService

end BookingPlatform
