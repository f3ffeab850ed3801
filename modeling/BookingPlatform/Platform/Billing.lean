import BookingPlatform.Platform.Schedule

/-!
# Subscriptions and Webhook Endpoints

What a tenant pays for, and where its events are sent. A tenant has at most one subscription that is
not canceled and one active endpoint; both are checked first, and a unique index checks them again.

## Main definitions

- `SubscriptionService.subscribe`: a subscription with its checkout.
- `WebhookService`: the endpoints.
-/

namespace BookingPlatform

open Library BaseTenantRepository PlatformM

/-! ## Subscriptions -/

structure CreateSubscriptionDto where
  planId : Uuid
  provider : PaymentProviderName
  deriving DecidableEq, Repr

structure SubscribeResult where
  subscription : SubscriptionRow
  checkout : CheckoutSession
  deriving DecidableEq, Repr

namespace SubscriptionService

variable (rt : PlatformRuntime) (tenantId : Uuid)

/-- The tenant's latest subscription. -/
def currentSubscription : PlatformM (Option SubscriptionRow) := do
  let rows ← exec (.select .subscriptions fun r => r.tenantId = tenantId)
  return newest rows

def subscribe (dto : CreateSubscriptionDto) : PlatformM SubscribeResult := do
  match (← exec (.select .plans fun r => r.id = dto.planId)).head? with
  | none => throwSql (.notFound "Plan not found")
  | some plan =>
    let existing ← currentSubscription tenantId
    if existing.any fun s => s.status ≠ .canceled then
      throwSql (.conflict "Tenant already has a subscription")
    else
      let nonce ← exec .draw
      let reference := buildReference rt.uuid tenantId nonce
      let checkout ← PlatformM.ofExcept <| rt.createCheckout dto.provider
        { reference, amount := plan.priceAmount, currency := plan.priceCurrency,
          description := plan.name }
      let subscription ← mapCode uniqueViolation (.conflict "Tenant already has a subscription") <|
        persist .subscriptions tenantId fun tenantId id now =>
          .ok { id, tenantId, planId := plan.id, provider := dto.provider,
                providerReference := reference, status := .trialing, createdAt := now }
      return ⟨subscription, checkout⟩

end SubscriptionService

/-! ## Webhook endpoints -/

structure CreateWebhookDto where
  url : String
  deriving DecidableEq, Repr

/-- What is shown of a new endpoint: the only time that its secret is. -/
structure CreatedEndpoint where
  id : Uuid
  url : String
  active : Bool
  secret : String
  deriving DecidableEq, Repr

namespace WebhookService

variable (rt : PlatformRuntime) (tenantId : Uuid)

def activeEndpoint : PlatformM (Option WebhookEndpoint) :=
  findOne .webhookEndpoints tenantId fun r => r.active

def create (dto : CreateWebhookDto) : PlatformM CreatedEndpoint := do
  PlatformM.ofExcept (rt.validateWebhookUrl dto.url)
  if (← activeEndpoint tenantId).isSome then
    throwSql (.conflict "A webhook endpoint is already configured")
  else
    let bytes ← exec .draw
    let endpoint ← mapCode uniqueViolation (.conflict "A webhook endpoint is already configured") <|
      persist .webhookEndpoints tenantId fun tenantId id now =>
        .ok { id, tenantId, url := dto.url, secret := rt.secret bytes, active := true,
              createdAt := now, deletedAt := none }
    return ⟨endpoint.id, endpoint.url, endpoint.active, rt.secret bytes⟩

def list : PlatformM (List WebhookEndpoint) := do
  let rows ← findMany .webhookEndpoints tenantId fun _ => true
  return rows.mergeSort fun r r' => r'.createdAt ≤ r.createdAt

def remove (id : Uuid) : PlatformM Unit := do
  let affected ← BaseTenantRepository.update .webhookEndpoints tenantId (fun r => r.id = id)
    fun now r => { r with deletedAt := some now }
  if affected > 0 then return () else throwSql (.notFound "Webhook endpoint not found")

end WebhookService

end BookingPlatform
