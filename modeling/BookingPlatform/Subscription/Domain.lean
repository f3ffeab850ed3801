import BookingPlatform.Common.Types

/-!
# Subscriptions

The lifecycle of a subscription, and the reference under which a payment provider knows it.
A reference encodes the tenant, since a payment webhook carries no other authority.

## Main definitions

- `SubscriptionStateMachine.canTransition`: the subscription lifecycle.
- `buildReference`, `tenantFromReference`: writing and reading a reference.

## Main results

- `tenantFromReference_buildReference`: reading gives back the tenant that was written.
-/

namespace BookingPlatform

/-! ## Identifiers as text -/

/-- The text of identifiers: how one is printed, the check of the validator library, and the
`::uuid` cast of the database. -/
structure UuidText where
  text : Uuid → String
  isUUID : String → Bool
  cast : String → Option Uuid
  no_underscore : ∀ id, '_' ∉ (text id).toList
  isUUID_text : ∀ id, isUUID (text id) = true
  cast_text : ∀ id, cast (text id) = some id
  isUUID_empty : isUUID "" = false

namespace UuidText

variable (uuid : UuidText)

theorem text_ne_empty (id : Uuid) : uuid.text id ≠ "" := by
  intro hempty
  have hvalid := uuid.isUUID_text id
  rw [hempty, uuid.isUUID_empty] at hvalid
  cases hvalid

end UuidText

/-! ## Rows -/

/-- Providers this platform can settle payments through. -/
inductive PaymentProviderName where
  | sepay
  | stripe
  deriving DecidableEq, Repr

def PaymentProviderName.value : PaymentProviderName → String
  | sepay => "sepay"
  | stripe => "stripe"

/-- Lifecycle of a subscription. -/
inductive SubscriptionStatus where
  | trialing
  | active
  | pastDue
  | canceled
  deriving DecidableEq, Repr

structure Subscription where
  id : Uuid
  tenantId : Uuid
  planId : Uuid
  provider : PaymentProviderName
  providerReference : String
  status : SubscriptionStatus
  deriving DecidableEq, Repr

namespace SubscriptionStateMachine

/-- Explicit subscription lifecycle mirroring provider states. -/
def transitions : SubscriptionStatus → List SubscriptionStatus
  | .trialing => [.active, .pastDue, .canceled]
  | .active => [.pastDue, .canceled]
  | .pastDue => [.active, .canceled]
  | .canceled => []

def canTransition (source target : SubscriptionStatus) : Bool :=
  source == target || (transitions source).contains target

end SubscriptionStateMachine

/-! ## References -/

/-- `sub_<tenantId>_<random>`; the random part is a UUID. -/
def buildReference (uuid : UuidText) (tenantId nonce : Uuid) : String :=
  "sub_" ++ uuid.text tenantId ++ "_" ++ uuid.text nonce

/-- The parts of a string between underscores. -/
def splitUnderscore (s : String) : List String := (s.toList.splitOn '_').map String.ofList

def tenantFromReference (uuid : UuidText) (reference : String) : Option String :=
  match splitUnderscore reference with
  | pre :: tenantId :: nonce :: _ =>
    if pre ≠ "sub" ∨ tenantId = "" ∨ nonce = "" ∨ uuid.isUUID tenantId = false then none
    else some tenantId
  | _ => none

theorem splitUnderscore_buildReference (uuid : UuidText) (tenantId nonce : Uuid) :
    splitUnderscore (buildReference uuid tenantId nonce) =
      ["sub", uuid.text tenantId, uuid.text nonce] := by
  have hchars : (buildReference uuid tenantId nonce).toList =
      ['s', 'u', 'b'] ++ '_' :: ((uuid.text tenantId).toList ++
        '_' :: (uuid.text nonce).toList) := by
    simp [buildReference]
  have hsub : '_' ∉ ['s', 'u', 'b'] := by decide
  have hparts : (buildReference uuid tenantId nonce).toList.splitOn '_' =
      [['s', 'u', 'b'], (uuid.text tenantId).toList, (uuid.text nonce).toList] := by
    rw [hchars, List.splitOn_append_cons_self_of_not_mem hsub,
      List.splitOn_append_cons_self_of_not_mem (uuid.no_underscore tenantId),
      List.splitOn_eq_singleton (uuid.no_underscore nonce)]
  simp [splitUnderscore, hparts]

/-- A reference decodes to the tenant it was built for. -/
theorem tenantFromReference_buildReference (uuid : UuidText) (tenantId nonce : Uuid) :
    tenantFromReference uuid (buildReference uuid tenantId nonce) = some (uuid.text tenantId) := by
  rw [tenantFromReference, splitUnderscore_buildReference]
  simp [uuid.text_ne_empty, uuid.isUUID_text]

end BookingPlatform
