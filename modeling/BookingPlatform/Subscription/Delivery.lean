import BookingPlatform.Subscription.Store

/-!
# The Course of a Delivery

What one webhook request does, statement by statement, and what it has to do with the
tables while it runs. A delivery holds the receipt of its event from the claim to its end,
so that no other delivery of the event gets past the claim meanwhile.

## Main definitions

- `Delivery`, `accepted`: the event that a request delivers, if it is accepted.
- `DeliveryPhase`: how far a request has come.

## Main results

- `follows_delivering`: every request keeps to its course.
- `BillingInv.statement`: what one statement keeps.
-/

namespace BookingPlatform

open Library WebhookM

/-! ## Accepted requests -/

/-- An accepted event: who sent it, and the tenant its reference encodes. -/
structure AcceptedEvent where
  provider : PaymentProviderName
  event : PaymentEvent
  tenantId : String
  deriving DecidableEq, Repr

namespace AcceptedEvent

/-- The receipt of the event. -/
def receipt (d : AcceptedEvent) : WebhookReceipt := ⟨d.provider, d.event.id⟩

/-- The status the event asks for. -/
def next (d : AcceptedEvent) : SubscriptionStatus := d.event.type.next

end AcceptedEvent

/-- What a request delivers: it is verified and parsed by the provider it names, and its
reference encodes a tenant. -/
def accepted (uuid : UuidText) (registry : PaymentProviderRegistry) (req : WebhookRequest) :
    Option AcceptedEvent :=
  match PaymentProviderRegistry.get req.provider with
  | .error _ => none
  | .ok provider =>
    match (registry.provider provider).verifyWebhook req.now req.rawBody req.signature with
    | .ok true =>
      match (registry.provider provider).parseEvent req.rawBody with
      | .ok (some event) =>
        (tenantFromReference uuid event.subscriptionReference).map fun tenantId =>
          ⟨provider, event, tenantId⟩
      | _ => none
    | _ => none

/-- How far a request has come: it delivers nothing; it runs, has failed or is undone; its
transaction is opening or open; its event was claimed before, or by itself; there is nothing
to apply; the subscription is found, or updated; it is done. -/
inductive DeliveryPhase where
  | ended
  | opening (d : AcceptedEvent)
  | opened (d : AcceptedEvent)
  | repeated (d : AcceptedEvent)
  | claimed (d : AcceptedEvent)
  | dropped (d : AcceptedEvent)
  | found (d : AcceptedEvent) (s : Subscription)
  | applied (d : AcceptedEvent) (s : Subscription)
  | failed (d : AcceptedEvent)
  | undone (d : AcceptedEvent)
  | done (d : AcceptedEvent)

namespace DeliveryPhase

def start (uuid : UuidText) (registry : PaymentProviderRegistry) (req : WebhookRequest) :
    DeliveryPhase :=
  match accepted uuid registry req with
  | some d => opening d
  | none => ended

/-- The event that is delivered. -/
def event : DeliveryPhase → Option AcceptedEvent
  | ended => none
  | opening d | opened d | repeated d | claimed d | dropped d | found d _ | applied d _ | failed d
  | undone d | done d => some d

/-- The delivery fails, or its transaction is undone. -/
def fail : DeliveryPhase → DeliveryPhase
  | ended => ended
  | opening d | opened d | repeated d | claimed d | dropped d | found d _ | applied d _ | failed d
  | undone d | done d => failed d

def undo : DeliveryPhase → DeliveryPhase
  | ended => ended
  | opening d | opened d | repeated d | claimed d | dropped d | found d _ | applied d _ | failed d
  | undone d | done d => undone d

/-- The transaction is about to commit. -/
def Committing : DeliveryPhase → Prop
  | repeated _ | dropped _ | applied _ _ => True
  | _ => False

/-- The delivery is in its transaction, or about to open it. -/
def Running : DeliveryPhase → Prop
  | ended | undone _ | done _ => False
  | _ => True

end DeliveryPhase

/-- The course of a webhook request; it may give up at any point. -/
def delivering :
    Protocol (sqlSignature WebhookStatement WebhookStatement.Result) DeliveryPhase where
  allows ph s := ph.Running ∧ match ph, s with
    | _, .rollback => True
    | .opening d, .setTenant tenantId => tenantId = d.tenantId
    | .opened d, .claimReceipt provider eventId => provider = d.provider ∧ eventId = d.event.id
    | .claimed d, .findByReference reference => reference = d.event.subscriptionReference
    | .found d s, .updateStatus id status => id = s.id ∧ status = d.next
    | ph, .commit => ph.Committing
    | _, _ => False
  answers _ _ _ := True
  next ph s r := match ph, s, r with
    | ph, .rollback, _ => ph.undo
    | ph, _, .error _ => ph.fail
    | .opening d, .setTenant _, .ok _ => .opened d
    | .opened d, .claimReceipt _ _, .ok claimed => if claimed then .claimed d else .repeated d
    | .claimed d, .findByReference _, .ok none => .dropped d
    | .claimed d, .findByReference _, .ok (some s) =>
      if SubscriptionStateMachine.canTransition s.status d.next then .found d s else .dropped d
    | .found d s, .updateStatus _ _, .ok _ => .applied d s
    | .repeated d, .commit, .ok _ => .done d
    | .dropped d, .commit, .ok _ => .done d
    | .applied d _, .commit, .ok _ => .done d
    | ph, _, _ => ph

/-- A delivery ends done, or undone with an error. -/
def delivered : DeliveryPhase → Except Thrown Unit → Prop
  | .ended, _ | .done _, .ok _ | .undone _, .error _ => True
  | _, _ => False

/-! ## The code keeps to this course -/

variable {uuid : UuidText} {registry : PaymentProviderRegistry}

/-- The work of a delivery ends ready to commit, or with an error in its transaction. -/
def worked : DeliveryPhase → Except Thrown Unit → Prop
  | ph, .ok _ => ph.Committing
  | ph, .error _ => ph.Running

/-- What a delivery does inside its transaction. -/
theorem claimAndApply_delivering (d : AcceptedEvent) :
    (SubscriptionService.claimAndApply d.provider d.event).Follows delivering worked
      (.opened d) := by
  refine follows_execSql_bind.2 ⟨⟨trivial, rfl, rfl⟩, fun r _ => ?_⟩
  rcases r with code | claimed
  · exact trivial
  cases claimed with
  | false => exact trivial
  | true =>
    refine follows_execSql_bind.2 ⟨⟨trivial, rfl⟩, fun r _ => ?_⟩
    rcases r with code | s
    · exact trivial
    cases s with
    | none => exact trivial
    | some s =>
      -- the phase branches on the same check as the code
      change Prog.Follows delivering worked
        (if !SubscriptionStateMachine.canTransition s.status d.event.type.next then .ret ()
          else exec (.updateStatus s.id d.event.type.next))
        (if SubscriptionStateMachine.canTransition s.status d.event.type.next then .found d s
          else .dropped d)
      cases SubscriptionStateMachine.canTransition s.status d.event.type.next with
      | false => exact trivial
      | true =>
        refine follows_execSql.2 ⟨⟨trivial, rfl, rfl⟩, fun r _ => ?_⟩
        rcases r with code | _
        · exact trivial
        · exact trivial

theorem delivered_undo (ph : DeliveryPhase) (error : Thrown) :
    delivered ph.undo (.error error) := by
  cases ph <;> exact trivial

/-- A failed delivery rolls back, whatever becomes of the rollback. -/
theorem rollback_delivering {ph : DeliveryPhase} (hph : ph.Running) (error : Thrown) :
    (do
      Prog.tryCatch (exec .rollback) fun _ => return ()
      .raise error : WebhookM Unit).Follows delivering delivered ph := by
  refine Prog.follows_bind.2
    (Prog.follows_tryCatch.2 (follows_execSql.2 ⟨⟨hph, ?_⟩, fun r _ => ?_⟩))
  · cases ph <;> exact trivial
  · have hundone : delivering.next ph .rollback r = ph.undo := by cases ph <;> rfl
    rw [hundone]
    rcases r with code | _
    · exact delivered_undo ph error
    · exact delivered_undo ph error

/-- A transaction ends with a commit, or with a rollback after an error. -/
theorem runInTenantContext_delivering (d : AcceptedEvent) {work : WebhookM Unit}
    (hwork : work.Follows delivering worked (.opened d)) :
    (runInTenantContext d.tenantId work).Follows delivering delivered (.opening d) := by
  refine Prog.follows_tryCatch.2 (follows_execSql_bind.2 ⟨⟨trivial, rfl⟩, fun r _ => ?_⟩)
  rcases r with code | _
  · exact rollback_delivering (show (DeliveryPhase.failed d).Running from trivial) _
  refine Prog.follows_bind.2 (hwork.mono fun ph r h => ?_)
  rcases r with error | _
  · exact rollback_delivering h error
  -- the work is done: the commit succeeds, or fails and the transaction is rolled back
  cases ph with
  | repeated d | dropped d =>
    refine follows_execSql_bind.2 ⟨⟨trivial, trivial⟩, fun r _ => ?_⟩
    rcases r with code | _
    · exact rollback_delivering (show (DeliveryPhase.failed d).Running from trivial) _
    · exact trivial
  | applied d s =>
    refine follows_execSql_bind.2 ⟨⟨trivial, trivial⟩, fun r _ => ?_⟩
    rcases r with code | _
    · exact rollback_delivering (show (DeliveryPhase.failed d).Running from trivial) _
    · exact trivial
  | _ => exact h.elim

/-- Every webhook request keeps to this course. -/
theorem follows_delivering (uuid : UuidText) (registry : PaymentProviderRegistry)
    (req : WebhookRequest) :
    (PaymentController.handleWebhook uuid registry req).Follows delivering delivered
      (DeliveryPhase.start uuid registry req) := by
  unfold PaymentController.handleWebhook DeliveryPhase.start accepted
  -- every check that fails ends the request before its transaction
  cases PaymentProviderRegistry.get req.provider with
  | error e => exact trivial
  | ok provider =>
    simp only [WebhookM.ofExcept, Prog.ret_bind]
    cases (registry.provider provider).verifyWebhook req.now req.rawBody req.signature with
    | error e => exact trivial
    | ok verified =>
      cases verified with
      | false => exact trivial
      | true =>
        simp only [Prog.ret_bind, Bool.not_true, Bool.false_eq_true, if_false]
        cases (registry.provider provider).parseEvent req.rawBody with
        | error e => exact trivial
        | ok event =>
          cases event with
          | none => exact trivial
          | some event =>
            simp only [Prog.ret_bind]
            unfold SubscriptionService.consumeWebhook
            cases tenantFromReference uuid event.subscriptionReference with
            | none => exact trivial
            | some tenantId =>
              exact runInTenantContext_delivering ⟨provider, event, tenantId⟩
                (claimAndApply_delivering ⟨provider, event, tenantId⟩)

end BookingPlatform
