import BookingPlatform.Common.Sql
import BookingPlatform.Subscription.Domain

/-!
# Payment Webhooks

A payment provider reports by webhook that a payment succeeded or failed. The request is
verified and parsed by the adapter of the provider that its path names, and the event is
consumed in one transaction of the tenant that its reference encodes: claim the event id,
look up the subscription, check the transition, update the status.

## Main definitions

- `SubscriptionService.consumeWebhook`: one event.
- `PaymentController.handleWebhook`: one request.
-/

namespace BookingPlatform

open Library

/-! ## Providers -/

inductive PaymentEventType where
  | succeeded
  | failed
  deriving DecidableEq, Repr

/-- A normalised event; `id` is the provider's id, the idempotency key for consuming. -/
structure PaymentEvent where
  id : String
  type : PaymentEventType
  subscriptionReference : String
  deriving DecidableEq, Repr

/-- The adapter of a provider: verification with the provider's own secret, which may read the
clock, and parsing. -/
structure PaymentProvider where
  verifyWebhook : (now : Instant) → (rawBody signature : String) → Except Thrown Bool
  parseEvent : (rawBody : String) → Except Thrown (Option PaymentEvent)

/-- The adapters by name. -/
structure PaymentProviderRegistry where
  provider : PaymentProviderName → PaymentProvider

/-- The provider that a path names. -/
def PaymentProviderRegistry.get (name : String) : Except Thrown PaymentProviderName :=
  if name = PaymentProviderName.sepay.value then .ok .sepay
  else if name = PaymentProviderName.stripe.value then .ok .stripe
  else .error (.app (.badRequest ("Unknown payment provider: " ++ name)))

/-! ## Statements -/

inductive WebhookStatement where
  | setTenant (tenantId : String)
  | claimReceipt (provider : PaymentProviderName) (eventId : String)
  | findByReference (providerReference : String)
  | updateStatus (id : Uuid) (status : SubscriptionStatus)
  | commit
  | rollback
  deriving DecidableEq

/-- The result of a statement that succeeds; `claimReceipt` is true if it inserted a row. -/
abbrev WebhookStatement.Result : WebhookStatement → Type
  | claimReceipt .. => Bool
  | findByReference _ => Option Subscription
  | _ => Unit

/-- Code of a webhook request. -/
abbrev WebhookM : Type → Type := SqlM WebhookStatement WebhookStatement.Result

abbrev WebhookM.exec (s : WebhookStatement) : WebhookM s.Result := execSql s

open WebhookM

/-- A value, or an exception that is thrown. -/
def WebhookM.ofExcept {α : Type} : Except Thrown α → WebhookM α
  | .ok a => .ret a
  | .error e => .raise e

/-! ## Consuming an event -/

/-- `dataSource.transaction` pinned to a tenant: commit when the work returns; on any error,
also of the commit, roll back and rethrow. -/
def runInTenantContext {α : Type} (tenantId : String) (work : WebhookM α) : WebhookM α :=
  Prog.tryCatch
    (do
      exec (.setTenant tenantId)
      let value ← work
      exec .commit
      return value)
    fun error => do
      Prog.tryCatch (exec .rollback) fun _ => return ()
      .raise error

/-- The status that an event asks for. -/
def PaymentEventType.next : PaymentEventType → SubscriptionStatus
  | succeeded => .active
  | failed => .pastDue

namespace SubscriptionService

/-- The callback that `consumeWebhook` runs in its transaction. -/
def claimAndApply (provider : PaymentProviderName) (event : PaymentEvent) : WebhookM Unit := do
  if !(← exec (.claimReceipt provider event.id)) then
    return ()
  else
    match ← exec (.findByReference event.subscriptionReference) with
    | none => return ()
    | some subscription =>
      -- a stray event: the claim is still recorded
      if !SubscriptionStateMachine.canTransition subscription.status event.type.next then return ()
      else exec (.updateStatus subscription.id event.type.next)

/-- Claims the event and applies it in one tenant-scoped transaction, so that a failed apply
rolls the claim back for the provider to retry. -/
def consumeWebhook (uuid : UuidText) (provider : PaymentProviderName) (event : PaymentEvent) :
    WebhookM Unit :=
  match tenantFromReference uuid event.subscriptionReference with
  | none => return ()
  | some tenantId => runInTenantContext tenantId (claimAndApply provider event)

end SubscriptionService

/-- A request to the webhook endpoint, and the time at which its signature is verified. -/
structure WebhookRequest where
  now : Instant
  provider : String
  rawBody : String
  signature : String
  deriving DecidableEq, Repr

namespace PaymentController

/-- Unauthenticated but signature-gated. -/
def handleWebhook (uuid : UuidText) (registry : PaymentProviderRegistry) (req : WebhookRequest) :
    WebhookM Unit := do
  let provider ← ofExcept (PaymentProviderRegistry.get req.provider)
  if !(← ofExcept ((registry.provider provider).verifyWebhook req.now req.rawBody
    req.signature)) then
    throwSql (.unauthorized "Invalid webhook signature")
  else
    match ← ofExcept ((registry.provider provider).parseEvent req.rawBody) with
    | none => throwSql (.badRequest "Unrecognised webhook payload")
    | some event => SubscriptionService.consumeWebhook uuid provider event

end PaymentController

end BookingPlatform
