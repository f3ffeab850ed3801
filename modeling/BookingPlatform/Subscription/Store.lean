import BookingPlatform.Library.RowLog
import BookingPlatform.Library.Schedule
import BookingPlatform.Subscription.Webhook

/-!
# Receipts and Subscriptions

The receipts of payment events and the subscriptions, with the uncommitted writes of every
open transaction, under READ COMMITTED. An insert of a receipt waits while another
transaction holds an uncommitted one of the same event, and row-level security shows a
transaction the subscriptions of its own tenant only.

## Main definitions

- `BillingDb`: the two tables and the tenant of each transaction.
- `webhookServer`: any number of webhook requests.
-/

namespace BookingPlatform

open Library

/-- A row of `webhook_receipts`. -/
structure WebhookReceipt where
  provider : PaymentProviderName
  eventId : String
  deriving DecidableEq, Repr

/-- The tables, with transactions named by `T`; `tenant` is the setting `app.tenant_id`. -/
structure BillingDb (T : Type) where
  receipts : LogStore T WebhookReceipt
  subscriptions : LogStore T Subscription
  tenant : T → Option String

/-- The subscriptions by id. -/
def subscriptionTable : Table Subscription Uuid Subscription where
  key s := s.id
  val s := s
  base _ := none

@[simp] theorem subscriptionTable_key (s : Subscription) : subscriptionTable.key s = s.id := rfl

@[simp] theorem subscriptionTable_val (s : Subscription) : subscriptionTable.val s = s := rfl

@[simp] theorem subscriptionTable_base (id : Uuid) : subscriptionTable.base id = none := rfl

namespace BillingDb

variable {T : Type} (uuid : UuidText) (g : BillingDb T) (t : T)

/-- The committed row of a subscription. -/
def subscription (id : Uuid) : Option Subscription :=
  subscriptionTable.row g.subscriptions.committed id

/-- The row of a subscription as transaction `t` sees it, row-level security aside. -/
def visibleRow (id : Uuid) : Option Subscription :=
  subscriptionTable.row (g.subscriptions.visible t) id

/-- Row-level security shows the row to transaction `t`. -/
def Sees (s : Subscription) : Prop := (g.tenant t).bind uuid.cast = some s.tenantId

/-- The results a statement can have when it succeeds. -/
def returns : (s : WebhookStatement) → s.Result → Prop
  | .claimReceipt provider eventId, claimed =>
    (∀ u, u ≠ t → ⟨provider, eventId⟩ ∉ g.receipts.pending u) ∧
      (claimed = true ↔ ⟨provider, eventId⟩ ∉ g.receipts.visible t)
  | .findByReference reference, some s =>
    g.visibleRow t s.id = some s ∧ s.providerReference = reference ∧ g.Sees uuid t s
  | .findByReference reference, none =>
    ∀ id s, g.visibleRow t id = some s → s.providerReference = reference → ¬g.Sees uuid t s
  | .updateStatus id _, _ => ∀ u, u ≠ t → ∀ s ∈ g.subscriptions.pending u, s.id ≠ id
  | .setTenant _, _ => True
  | .commit, _ => True
  | .rollback, _ => True

/-- The answers a statement can get; any of them can fail. -/
def possible (s : WebhookStatement) : Except SqlState s.Result → Prop
  | .ok v => g.returns uuid t s v
  | .error _ => True

variable [DecidableEq T]

/-- Transaction `t` ends and is undone. -/
def rollback : BillingDb T where
  receipts := g.receipts.rollback t
  subscriptions := g.subscriptions.rollback t
  tenant := Function.update g.tenant t none

def commit : BillingDb T where
  receipts := g.receipts.commit t
  subscriptions := g.subscriptions.commit t
  tenant := Function.update g.tenant t none

/-- The row that an `UPDATE` by id writes, if row-level security shows one. -/
def updated (id : Uuid) (status : SubscriptionStatus) : List Subscription :=
  match g.visibleRow t id with
  | some s => if (g.tenant t).bind uuid.cast = some s.tenantId then [{ s with status }] else []
  | none => []

/-- What a statement that succeeds does. -/
def apply : (s : WebhookStatement) → s.Result → BillingDb T
  | .setTenant tenantId, _ => { g with tenant := Function.update g.tenant t (some tenantId) }
  | .claimReceipt provider eventId, claimed =>
    { g with receipts := g.receipts.pushAll t (if claimed then [⟨provider, eventId⟩] else []) }
  | .findByReference _, _ => g
  | .updateStatus id status, _ =>
    { g with subscriptions := g.subscriptions.pushAll t (g.updated uuid t id status) }
  | .commit, _ => g.commit t
  | .rollback, _ => g.rollback t

/-- A `COMMIT` or `ROLLBACK` that fails ends the transaction without it; another failed
statement does nothing. -/
def abort : WebhookStatement → BillingDb T
  | .commit | .rollback => g.rollback t
  | _ => g

/-- What a statement with a given answer does. -/
def effect (s : WebhookStatement) : Except SqlState s.Result → BillingDb T
  | .ok v => g.apply uuid t s v
  | .error _ => g.abort t s

/-- A tenant subscribes: a new row with a reference of its own. -/
def Subscribes (g' : BillingDb T) : Prop :=
  ∃ (s : Subscription) (nonce : Uuid), (∀ s' ∈ g.subscriptions.committed, s'.id ≠ s.id) ∧
    (∀ u, ∀ s' ∈ g.subscriptions.pending u, s'.id ≠ s.id) ∧ s.status = .trialing ∧
    s.providerReference = buildReference uuid s.tenantId nonce ∧
    g' = { g with
           subscriptions := { g.subscriptions with committed := s :: g.subscriptions.committed } }

end BillingDb

/-- Any number of webhook requests. One that dies is rolled back. -/
def webhookServer {T : Type} [DecidableEq T] (uuid : UuidText)
    (registry : PaymentProviderRegistry) :
    Server (sqlSignature WebhookStatement WebhookStatement.Result) T (BillingDb T) WebhookRequest
      Thrown Unit where
  program := PaymentController.handleWebhook uuid registry
  possible t g := g.possible uuid t
  effect t g := g.effect uuid t
  crash t g := g.rollback t
  env g g' := g.Subscribes uuid g'

/-- Any receipts and subscriptions, before any of the requests. -/
structure BillingDb.Initial {T : Type} (g : BillingDb T) : Prop where
  receipts : g.receipts.committed.Nodup
  ids : (g.subscriptions.committed.map (·.id)).Nodup
  noReceipts : ∀ t, g.receipts.pending t = []
  noUpdates : ∀ t, g.subscriptions.pending t = []

/-! ## Computed runs -/

/-- A statement gets a good answer, or the connection fails. -/
inductive WebhookChoice where
  | good
  | lost

section Answers

variable {n : ℕ} (uuid : UuidText) (g : BillingDb (Fin n)) (t : Fin n)

instance (s : Subscription) : Decidable (g.Sees uuid t s) := inferInstanceAs (Decidable (_ = _))

/-- The row that a lookup by reference finds. -/
def BillingDb.findByReference (reference : String) : Option Subscription :=
  (g.subscriptions.visible t).find? fun s =>
    g.visibleRow t s.id = some s ∧ s.providerReference = reference ∧ g.Sees uuid t s

/-- The good answer to a statement, if it need not wait. -/
def BillingDb.answer : (s : WebhookStatement) → Option s.Result
  | .claimReceipt provider eventId =>
    if ∀ u, u ≠ t → ⟨provider, eventId⟩ ∉ g.receipts.pending u
    then some (decide (⟨provider, eventId⟩ ∉ g.receipts.visible t)) else none
  | .findByReference reference => (g.findByReference uuid t reference).map some
  | .updateStatus id _ =>
    if ∀ u, u ≠ t → ∀ s ∈ g.subscriptions.pending u, s.id ≠ id then some () else none
  | .setTenant _ | .commit | .rollback => some ()

variable {uuid g t}

theorem BillingDb.returns_answer {s : WebhookStatement} {v : s.Result}
    (h : g.answer uuid t s = some v) :
    g.returns uuid t s v := by
  cases s with
  -- an answer is given when no other transaction has the row
  | claimReceipt provider eventId =>
    simp only [answer] at h
    split at h
    · rename_i hfree
      cases h
      exact ⟨hfree, by simp⟩
    · cases h
  | findByReference reference =>
    obtain ⟨s, hfind, rfl⟩ := Option.map_eq_some_iff.1 h
    have hmatch : g.visibleRow t s.id = some s ∧ s.providerReference = reference ∧
        g.Sees uuid t s := by
      simpa using List.find?_some hfind
    exact hmatch
  | updateStatus id status =>
    simp only [answer] at h
    split at h
    · rename_i hfree
      exact hfree
    · cases h
  | setTenant _ | commit | rollback => trivial

end Answers

/-- The webhook requests with computed answers. -/
def webhookResponder {n : ℕ} (uuid : UuidText) (registry : PaymentProviderRegistry) :
    Responder (webhookServer (T := Fin n) uuid registry) WebhookChoice where
  answer c t g s := match c with
    | .good => (g.answer uuid t s).map .ok
    | .lost => some (.error "08006")
  sound c t g s r h := by
    cases c with
    | good =>
      obtain ⟨v, hv, rfl⟩ := Option.map_eq_some_iff.1 h
      exact BillingDb.returns_answer hv
    | lost =>
      cases h
      trivial

/-- The first groups of the sample identifiers. -/
def samplePrefix : List Char := "00000000-0000-4000-8000-".toList

/-- Identifiers with twelve decimal digits in the last group. -/
def sampleUuid : UuidText where
  text id := String.ofList (samplePrefix ++
    (List.replicate (12 - (Nat.toDigits 10 id).length) '0' ++ Nat.toDigits 10 id))
  isUUID s := samplePrefix.isPrefixOf s.toList
  cast s := some (Nat.ofDigitChars 10 (s.toList.drop samplePrefix.length) 0)
  no_underscore id := by
    have hplain : '_' ∉ samplePrefix := by decide
    have hdigits : '_' ∉ Nat.toDigits 10 id := fun hmem =>
      absurd (Nat.isDigit_of_mem_toDigits (by decide) (by decide) hmem) (by decide)
    simp [hplain, hdigits, List.mem_replicate]
  isUUID_text id := by simp
  cast_text id := by
    simp [Nat.ofDigitChars_append, Nat.ofDigitChars_replicate_zero, Nat.ofDigitChars_ten_toDigits]
  isUUID_empty := by decide

/-- A provider that signs with its secret and reports a payment for the reference in the body. -/
def sampleProvider (secret : String) : PaymentProvider where
  verifyWebhook _ rawBody signature := .ok (signature = secret ++ rawBody)
  parseEvent rawBody := .ok (some ⟨"evt_1", .succeeded, rawBody⟩)

def sampleRegistry : PaymentProviderRegistry where
  provider
    | .sepay => sampleProvider "sepay:"
    | .stripe => sampleProvider "stripe:"

/-- A subscription of tenant 1 with SePay. -/
def sampleSubscription : Subscription :=
  ⟨3, 1, 4, .sepay, buildReference sampleUuid 1 2, .trialing⟩

/-- The request of a provider that reports a payment for the sample subscription. -/
def sampleRequest (provider : PaymentProviderName) : WebhookRequest :=
  ⟨0, provider.value, sampleSubscription.providerReference,
    provider.value ++ ":" ++ sampleSubscription.providerReference⟩

/-- A database with the sample subscription. -/
def sampleBilling (T : Type) : BillingDb T :=
  ⟨.empty, ⟨[sampleSubscription], fun _ => []⟩, fun _ => none⟩

theorem sampleBilling_initial (T : Type) : (sampleBilling T).Initial :=
  ⟨List.nodup_nil, List.nodup_singleton _, fun _ => rfl, fun _ => rfl⟩

end BookingPlatform
