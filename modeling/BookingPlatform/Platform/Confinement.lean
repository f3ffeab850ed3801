import BookingPlatform.Library.Confinement
import BookingPlatform.Platform.Integrity

/-!
# Tenants Without Row-Level Security

The calls of a tenant on two databases that have the same rows of the tenant, with only the filter
of the services between them and the rows of other tenants. The calls answer the same, and leave the
other rows as they are: they do what they would do if there were no other tenant.

An idempotency key is completed by its id, which the call got when it claimed the key. The
subscription of a payment event is found by its reference, and the reference encodes the tenant.

## Main definitions

- `tenantDomain`: the rows of a tenant.
- `serveCalls`: a sequence of calls.

## Main results

- `calls_confined`: what the calls of a tenant have to do with other tenants.
- `strayed_reference_updated`: what a payment reference of the wrong tenant does.
-/

namespace BookingPlatform

open Library BaseTenantRepository

/-! ## The rows of a tenant -/

theorem UuidText.text_injective (uuid : UuidText) : Function.Injective uuid.text := by
  intro id id' h
  have hcast : uuid.cast (uuid.text id) = uuid.cast (uuid.text id') := congrArg uuid.cast h
  rw [uuid.cast_text, uuid.cast_text] at hcast
  exact Option.some.inj hcast

/-- Two sound subscriptions with one reference are of one tenant. -/
theorem tenant_of_reference {uuid : UuidText} {r r' : SubscriptionRow}
    (h : rowSound uuid .subscriptions r) (h' : rowSound uuid .subscriptions r')
    (href : r.providerReference = r'.providerReference) :
    r.tenantId = r'.tenantId := by
  have htext : some (uuid.text r.tenantId) = some (uuid.text r'.tenantId) := by
    rw [← h, ← h', href]
  exact uuid.text_injective (Option.some.inj htext)

/-- A row of another tenant has another tenant. -/
theorem tenant_ne_of_hidden {tenantId : Uuid} {τ : TableName} {r f : Row τ}
    (hown : visible tenantId τ r = true) (hforeign : visible tenantId τ f = false) :
    rowTenant τ f ≠ rowTenant τ r := by
  intro heq
  rw [visible, heq] at hforeign
  cases hown.symm.trans hforeign

/-- The rows of a tenant, and those that belong to nobody. No constraint compares sound rows of two
tenants. -/
def tenantDomain (uuid : UuidText) (tenantId : Uuid) : Domain platformSchema where
  own := visible tenantId
  sound := rowSound uuid
  apart := by
    intro τ r f hown hforeign hsound hsound' hid
    have hne := tenant_ne_of_hidden hown hforeign
    simp only [hid, if_false]
    cases τ <;> simp only [rowTenant, ne_eq, Option.some.injEq, not_true_eq_false] at hne
    case subscriptions =>
      have href : f.providerReference ≠ r.providerReference :=
        fun href => hne (tenant_of_reference hsound' hsound href)
      simp [constraint, unique, hne, href]
    case bookings => simp [constraint, Booking.Excludes, hne]
    all_goals simp [constraint, unique, hne]

/-! ## Calls -/

section Calls

variable {uuid : UuidText} {tenantId : Uuid} {ph : Domain.Ids platformSchema} {α : Type}

/-- A statement that the filter confines to the tenant is confined. -/
theorem allows_of_scoped {inserts : TableName → Bool} {s : Command}
    (h : TenantScoped uuid tenantId inserts s) :
    (tenantDomain uuid tenantId).Allows ph s := by
  cases s with
  | select τ p => exact fun r _ hp => .inl (h r hp)
  | insert τ row =>
    intro id time r hr
    obtain ⟨hid, hvisible, hsound⟩ := h.2 id time r hr
    exact ⟨hid, hvisible, hsound⟩
  | insertIgnore τ row =>
    intro id time
    obtain ⟨hid, hvisible, hsound⟩ := h.2 id time
    exact ⟨hid, hvisible, hsound⟩
  -- an update does not change the tenant of its row
  | update τ p set =>
    refine ⟨fun r _ hp => .inl (visible_of_tenant (h.1 r hp)), fun time r r' hset => ?_⟩
    obtain ⟨hid, htenant, -, -, hsound⟩ := h.2 time r r' hset
    refine ⟨hid, ?_, hsound⟩
    change visible tenantId τ r' = visible tenantId τ r
    rw [visible, visible, htenant]
  | delete τ p => exact fun r _ hp => .inl (h.2 r hp)
  | _ => trivial

/-- A program that the filter confines keeps what is known. -/
theorem confined_of_scoped {inserts : TableName → Bool} {p : PlatformM α}
    (h : p.Uses (TenantScoped uuid tenantId inserts)) :
    p.Follows (tenantDomain uuid tenantId).confinement (fun ph' _ => ∀ τ, ph τ ⊆ ph' τ) ph := by
  refine Prog.Uses.follows (I := fun ph' : Domain.Ids platformSchema =>
    ∀ τ, ph τ ⊆ ph' τ) ?_ h fun _ _ hid => hid
  exact fun ph' s hs hph' =>
    ⟨allows_of_scoped hs, fun r τ id hid => Domain.mem_nextIds (hph' τ hid)⟩

/-- A replay only reads. -/
theorem scoped_replay {inserts : TableName → Bool} (key requestHash : String) :
    (IdempotencyService.replay tenantId key requestHash).Uses
      fun s => TenantScoped uuid tenantId inserts (bookingCommand s) := by
  refine (uses_exec fun r hr => visible_of_tenant ?_).bind fun existing => ?_
  · simp only [Bool.decide_and, Bool.and_eq_true, decide_eq_true_eq] at hr
    exact congrArg some hr.2
  · split
    · exact uses_raise _
    · split
      · exact uses_raise _
      · split
        · exact uses_raise _
        · exact uses_ret _

/-- A key is completed by the id of the row that was claimed. -/
theorem confined_create (rt : Runtime) (dto : CreateBookingDto) (key : Option String) :
    ((BookingService.create rt tenantId dto key).translate bookingCommands).Follows
      (tenantDomain uuid tenantId).confinement (fun _ _ => True) ph := by
  have hdoCreate : ((BookingService.doCreate rt tenantId dto).translate bookingCommands).Uses
      (TenantScoped uuid tenantId fun _ => true) :=
    Prog.Uses.translated bookingCommands
      (uses_doCreate scoped_lookups (scoped_inserts rfl rfl) rt dto)
  unfold BookingService.create IdempotencyService.run
  cases key.filter (· ≠ "") with
  -- without a key the booking is created, and that is all
  | none =>
    dsimp only
    rw [Prog.translate_bind]
    exact Prog.follows_bind_any ((confined_of_scoped hdoCreate).mono fun _ _ _ =>
      trivial) fun _ _ => trivial
  | some key =>
    dsimp only
    refine follows_translate_bind.2 (session_exec.2 ⟨fun id time => ?_, fun r _ => ?_⟩)
    · exact ⟨rfl, visible_of_tenant rfl, trivial⟩
    · -- the key is claimed already, or it is claimed now
      rcases r with code | _ | claimed
      · trivial
      · have hreplay : ((IdempotencyService.replay tenantId key (rt.hashBody dto)).translate
          bookingCommands).Uses (TenantScoped uuid tenantId fun _ => true) :=
          Prog.Uses.translated bookingCommands (scoped_replay _ _)
        exact (confined_of_scoped hreplay).mono fun _ _ _ => trivial
      · dsimp only [bookingAnswer]
        refine follows_translate_bind.2 ((confined_of_scoped hdoCreate).mono fun ph' r hkept => ?_)
        cases r with
        | error e => trivial
        | ok booking =>
          -- the id of the claimed row is known from then on
          have hinserted : claimed.id ∈ Domain.nextIds ph
              (.insertIgnore .idempotencyKeys fun id _ =>
                ⟨id, tenantId, key, rt.hashBody dto, none⟩)
              (.ok (some claimed)) .idempotencyKeys :=
            Domain.mem_nextIds_insertIgnore (D := platformSchema)
          have hclaimed : claimed.id ∈ ph' .idempotencyKeys := hkept .idempotencyKeys hinserted
          refine follows_translate_bind.2
            (session_exec.2 ⟨⟨fun r _ hr => .inr ?_, ?_⟩, fun r _ => ?_⟩)
          · have hid : r.id = claimed.id := of_decide_eq_true hr
            change r.id ∈ ph' .idempotencyKeys
            rw [hid]
            exact hclaimed
          · intro time r r' hset
            cases hset
            exact ⟨rfl, rfl, fun h => h⟩
          · cases r <;> trivial

/-- The subscription that a reference of the tenant finds is the tenant's, and is updated by its
id. -/
theorem confined_claimAndApply (provider : PaymentProviderName) (event : PaymentEvent)
    {nonce : Uuid} (href : event.subscriptionReference = buildReference uuid tenantId nonce) :
    ((SubscriptionService.claimAndApply provider event).translate webhookCommands).Follows
      (tenantDomain uuid tenantId).confinement (fun _ _ => True) ph := by
  -- a row that has the reference is the tenant's: the reference encodes its tenant
  have hfinds : ∀ ph, (tenantDomain uuid tenantId).Finds ph .subscriptions
      fun r => r.providerReference = event.subscriptionReference := by
    intro ph r hsound hr
    have hreference : r.providerReference = buildReference uuid tenantId nonce :=
      (of_decide_eq_true hr).trans href
    have htenant : some (uuid.text r.tenantId) = some (uuid.text tenantId) := by
      rw [← tenantFromReference_buildReference uuid tenantId nonce, ← hreference]
      exact hsound.symm
    exact .inl (visible_of_tenant (congrArg some (uuid.text_injective (Option.some.inj htenant))))
  unfold SubscriptionService.claimAndApply
  rw [Prog.translate_bind]
  refine Prog.follows_bind.2 ⟨fun id time => ⟨rfl, rfl, trivial⟩, fun r _ => ?_⟩
  cases r with
  | error code => trivial
  | ok claimed =>
    cases claimed with
    | none => trivial
    | some receipt =>
      change
        (Prog.translate webhookCommands
          (WebhookM.exec (.findByReference event.subscriptionReference) >>= _)).Follows
        _ _ _
      rw [Prog.translate_bind]
      refine Prog.follows_bind.2 ⟨hfinds _, fun r _ => ?_⟩
      rcases r with code | _ | ⟨subscription, rows⟩
      · trivial
      · trivial
      · change (Prog.translate webhookCommands (if _ then _ else _)).Follows _ _ _
        split
        · trivial
        · refine ⟨⟨fun r _ hr => .inr ?_, fun time r r' hset => ?_⟩,
            fun r _ => by cases r <;> trivial⟩
          · -- the row is updated by the id under which it was found
            have hid : r.id = subscription.id := of_decide_eq_true hr
            change r.id ∈ Domain.nextIds (D := platformSchema) _
              (.select .subscriptions fun r => r.providerReference = event.subscriptionReference)
              (.ok (subscription :: rows)) .subscriptions
            rw [hid]
            exact Domain.mem_nextIds_select (D := platformSchema) List.mem_cons_self
          · cases hset
            exact ⟨rfl, rfl, fun h => h⟩

theorem confined_transaction {body : PlatformM α}
    (h : body.Follows (tenantDomain uuid tenantId).confinement (fun _ _ => True) ph) :
    (PlatformM.transaction body).Follows (tenantDomain uuid tenantId).confinement
      (fun _ _ => True) ph :=
  PlatformM.transaction_follows (fun _ => trivial) (fun _ => trivial) h

end Calls

/-- A payment event is one of the tenant if its reference was built for the tenant. -/
def ServiceCall.IsFor (uuid : UuidText) (tenantId : Uuid) : ServiceCall → Prop
  | .consumeWebhook _ event =>
    ∃ nonce, event.subscriptionReference = buildReference uuid tenantId nonce
  | _ => True

theorem confined_request (rt : AvailabilityRuntime) {tenantId : Uuid} {call : ServiceCall}
    (hcall : call.IsFor rt.platform.uuid tenantId) {ph : Domain.Ids platformSchema} :
    (call.request rt tenantId).Follows (tenantDomain rt.platform.uuid tenantId).confinement
      (fun _ _ => True) ph := by
  -- the calls that write nothing by id
  have hplain : ∀ call : ServiceCall, call.writesById = false →
      (call.program rt tenantId).Follows (tenantDomain rt.platform.uuid tenantId).confinement
        (fun _ _ => True) ph :=
    fun call hid => by
      have hscoped : (call.program rt tenantId).Uses
          (TenantScoped rt.platform.uuid tenantId fun _ => true) :=
        scoped_program rt hid fun _ _ => rfl
      exact (confined_of_scoped hscoped).mono fun _ _ _ => trivial
  cases call with
  -- the tenant of the transaction is the one that the reference encodes
  | consumeWebhook provider event =>
    obtain ⟨nonce, href⟩ := hcall
    change ((SubscriptionService.consumeWebhook rt.platform.uuid provider event).translate
      webhookCommands).Follows _ _ _
    unfold SubscriptionService.consumeWebhook runInTenantContext
    rw [href, tenantFromReference_buildReference]
    dsimp only
    simp only [Prog.translate_tryCatch, Prog.translate_bind]
    refine Prog.follows_tryCatch_any ?_ fun e ph => ?_
    · refine Prog.follows_bind_any ⟨trivial, fun r _ => by cases r <;> trivial⟩ fun _ ph => ?_
      refine Prog.follows_bind_any (confined_claimAndApply provider event href) fun _ ph => ?_
      exact Prog.follows_bind_any ⟨trivial, fun r _ => by cases r <;> trivial⟩ fun _ _ => trivial
    · refine Prog.follows_bind_any (Prog.follows_tryCatch_any ?_ fun _ _ => trivial) fun _ _ =>
        trivial
      exact ⟨trivial, fun r _ => by cases r <;> trivial⟩
  | booking o =>
    refine confined_transaction ?_
    cases o with
    | create dto key =>
      change ((BookingService.create rt.platform.booking tenantId dto key >>= _).translate
        bookingCommands).Follows _ _ _
      rw [Prog.translate_bind]
      exact Prog.follows_bind_any (confined_create rt.platform.booking dto key) fun _ _ => trivial
    | _ => exact hplain _ rfl
  | _ => exact confined_transaction (hplain _ rfl)

/-! ## Sequences of calls -/

/-- The calls of a tenant, one after the other, and what each returns or throws. -/
def serveCalls (rt : AvailabilityRuntime) (supply : ℕ → Uuid × ℤ) (tenantId : Uuid) :
    List ServiceCall → Machine platformSchema →
    List ((call : ServiceCall) × Except Thrown call.Result) × Machine platformSchema
  | [], m => ([], m)
  | call :: calls, m =>
    let served := (call.request rt tenantId).run (Machine.step supply) m
    let rest := serveCalls rt supply tenantId calls served.2
    (⟨call, served.1⟩ :: rest.1, rest.2)

section Sequences

variable {rt : AvailabilityRuntime} {supply : ℕ → Uuid × ℤ} {tenantId : Uuid}

/-- The calls do on the rows of the tenant what they do on all. -/
theorem serveCalls_beside {calls : List ServiceCall}
    (hcalls : ∀ call ∈ calls, call.IsFor rt.platform.uuid tenantId) {others : Store platformSchema}
    {m m' : Machine platformSchema}
    (h : (tenantDomain rt.platform.uuid tenantId).Beside supply others m m' fun _ => ∅) :
    (serveCalls rt supply tenantId calls m').1 = (serveCalls rt supply tenantId calls m).1 ∧
      (tenantDomain rt.platform.uuid tenantId).Beside supply others
        (serveCalls rt supply tenantId calls m).2
        (serveCalls rt supply tenantId calls m').2 fun _ => ∅ := by
  induction calls generalizing m m' with
  | nil => exact ⟨rfl, h⟩
  | cons call calls ih =>
    obtain ⟨hresult, ph', hafter⟩ := h.run (confined_request rt (hcalls call List.mem_cons_self))
    obtain ⟨hrest, hend⟩ := ih (fun c hc => hcalls c (List.mem_cons_of_mem call hc)) hafter.forget
    refine ⟨?_, hend⟩
    simp only [serveCalls, hresult, hrest]

end Sequences

/-! ## Two databases -/

/-- The rows of a tenant, and those that belong to nobody. -/
def tenantRows (tenantId : Uuid) (db : Store platformSchema) : Store platformSchema :=
  fun τ => (db τ).filter (visible tenantId τ)

/-- The rows of other tenants. -/
def foreignRows (tenantId : Uuid) (db : Store platformSchema) : Store platformSchema :=
  fun τ => (db τ).filter fun r => !visible tenantId τ r

/-- A database with its primary keys, in which no row of another tenant has an id that is drawn
later. -/
structure Admissible (supply : ℕ → Uuid × ℤ) (tenantId : Uuid) (n : ℕ) (db : Store platformSchema) :
    Prop where
  keyed : db.Keyed
  unclaimed : ∀ k, n ≤ k → ∀ τ, ∀ r ∈ foreignRows tenantId db τ, rowId τ r ≠ (supply k).1

/-- The payment references of all subscriptions encode their own tenants. -/
def OwnReferences (uuid : UuidText) (db : Store platformSchema) : Prop :=
  ∀ r ∈ db .subscriptions, tenantFromReference uuid r.providerReference =
    some (uuid.text r.tenantId)

/-- The calls of a tenant neither show nor touch what the two databases have of other tenants. -/
structure TenantIsolated (rt : AvailabilityRuntime) (supply : ℕ → Uuid × ℤ) (tenantId : Uuid)
    (calls : List ServiceCall) (n : ℕ) (db₁ db₂ : Store platformSchema) : Prop where
  results : (serveCalls rt supply tenantId calls ⟨db₁, .idle, n⟩).1 =
    (serveCalls rt supply tenantId calls ⟨db₂, .idle, n⟩).1
  unread : (serveCalls rt supply tenantId calls ⟨db₁, .idle, n⟩).1 =
    (serveCalls rt supply tenantId calls ⟨tenantRows tenantId db₁, .idle, n⟩).1
  own : tenantRows tenantId (serveCalls rt supply tenantId calls ⟨db₁, .idle, n⟩).2.store =
    tenantRows tenantId (serveCalls rt supply tenantId calls ⟨db₂, .idle, n⟩).2.store
  foreign₁ : foreignRows tenantId (serveCalls rt supply tenantId calls ⟨db₁, .idle, n⟩).2.store =
    foreignRows tenantId db₁
  foreign₂ : foreignRows tenantId (serveCalls rt supply tenantId calls ⟨db₂, .idle, n⟩).2.store =
    foreignRows tenantId db₂

section Databases

variable {rt : AvailabilityRuntime} {supply : ℕ → Uuid × ℤ} {tenantId : Uuid} {n : ℕ}
  {db : Store platformSchema}

theorem Admissible.beside (h : Admissible supply tenantId n db)
    (hrefs : OwnReferences rt.platform.uuid db) :
    (tenantDomain rt.platform.uuid tenantId).Beside supply (foreignRows tenantId db) ⟨db, .idle, n⟩
      ⟨tenantRows tenantId db, .idle, n⟩ fun _ => ∅ := by
  have hsound : ∀ τ, ∀ r ∈ db τ, rowSound rt.platform.uuid τ r := by
    intro τ r hr
    cases τ with
    | subscriptions => exact hrefs r hr
    | _ => trivial
  refine Domain.Beside.initial
    (Domain.separate_of_keyed h.keyed hsound) fun k hk τ f hf hforeign => ?_
  have hmem : f ∈ foreignRows tenantId db τ := List.mem_filter.2 ⟨hf, congrArg (! ·) hforeign⟩
  exact h.unclaimed k hk τ f hmem

end Databases

/-- The calls of a tenant, on databases whose payment references encode their own tenants. -/
theorem calls_confined (rt : AvailabilityRuntime) (supply : ℕ → Uuid × ℤ) (tenantId : Uuid)
    (calls : List ServiceCall) (n : ℕ) (db₁ db₂ : Store platformSchema)
    (hcalls : ∀ call ∈ calls, call.IsFor rt.platform.uuid tenantId)
    (h₁ : Admissible supply tenantId n db₁) (h₂ : Admissible supply tenantId n db₂)
    (hagree : tenantRows tenantId db₁ = tenantRows tenantId db₂)
    (hrefs₁ : OwnReferences rt.platform.uuid db₁) (hrefs₂ : OwnReferences rt.platform.uuid db₂) :
    TenantIsolated rt supply tenantId calls n db₁ db₂ := by
  obtain ⟨hresult₁, hend₁⟩ := serveCalls_beside hcalls (h₁.beside hrefs₁)
  obtain ⟨hresult₂, hend₂⟩ := serveCalls_beside hcalls (h₂.beside hrefs₂)
  rw [← hagree] at hresult₂ hend₂
  exact ⟨hresult₁.symm.trans hresult₂, hresult₁.symm, hend₁.store.symm.trans hend₂.store,
    hend₁.others, hend₂.others⟩

/-- A customer of tenant 2 beside the rows of tenant 1. -/
def neighboured : Store platformSchema
  | .customers => sampleTenant "UTC" (sampleService 30) [] [] .customers ++
    [{ id := 31, tenantId := 2, name := "Eve", email := "ann@example.com", phone := none,
       deletedAt := none }]
  | τ => sampleTenant "UTC" (sampleService 30) [] [] τ

/-- A payment for the subscription of tenant 1. -/
def samplePayment : PaymentEvent := ⟨"evt_1", .succeeded, sampleSubscription.providerReference⟩

def sampleCalls : List ServiceCall :=
  [.listCustomers ⟨1, 10⟩, .createCustomer ⟨"Eve", "eve@example.com", none⟩, .getCustomer 31,
    .unlink 10 20, .consumeWebhook .sepay samplePayment, .currentSubscription]

/-- The database with these subscriptions. -/
def withSubscriptions (rows : List SubscriptionRow) (db : Store platformSchema) :
    Store platformSchema
  | .subscriptions => rows
  | τ => db τ

def ownSubscription : SubscriptionRow := { sampleSubscription with createdAt := 0 }

/-- The subscription of tenant 2. -/
def neighbouringSubscription : SubscriptionRow :=
  { ownSubscription with id := 5, tenantId := 2,
                         providerReference := buildReference sampleUuid 2 6 }

/-- Tenant 1 without any other. -/
def sampleAlone : Store platformSchema :=
  withSubscriptions [ownSubscription] (sampleTenant "UTC" (sampleService 30) [] [])

/-- Tenant 1 beside tenant 2. -/
def sampleBeside : Store platformSchema :=
  withSubscriptions [neighbouringSubscription, ownSubscription] neighboured

/-- Tenant 1 does not notice the customer and the subscription, and its payment sets its own. -/
theorem calls_confined_neighboured :
    TenantIsolated timelessRuntime sampleSupply 1 sampleCalls 0 sampleAlone sampleBeside ∧
      ((serveCalls timelessRuntime sampleSupply 1 sampleCalls ⟨sampleBeside, .idle, 0⟩).2.store
        .subscriptions).map (·.status) = [.trialing, .active] := by
  have hcalls : ∀ call ∈ sampleCalls, call.IsFor timelessRuntime.platform.uuid 1 := by
    have hpayment : (ServiceCall.consumeWebhook .sepay samplePayment).IsFor
        timelessRuntime.platform.uuid 1 :=
      ⟨2, rfl⟩
    simpa [sampleCalls, ServiceCall.IsFor] using hpayment
  have halone : ∀ τ, foreignRows 1 sampleAlone τ = [] := by
    intro τ
    cases τ <;> rfl
  -- the ids of the others' rows are below those that are drawn
  have hlow : ∀ τ, ∀ r ∈ foreignRows 1 sampleBeside τ, rowId τ r < 1000 := by
    intro τ
    cases τ <;> decide
  have hreference (tenantId nonce : Uuid) :=
    tenantFromReference_buildReference sampleUuid tenantId nonce
  refine ⟨calls_confined timelessRuntime sampleSupply 1 sampleCalls 0 _ _ hcalls ⟨?_, ?_⟩
    ⟨?_, ?_⟩ ?_ ?_ ?_, ?_⟩
  · intro τ
    cases τ <;> decide
  · intro k _ τ r hr
    rw [halone τ] at hr
    cases hr
  · intro τ
    cases τ <;> decide
  · intro k _ τ r hr
    exact Nat.ne_of_lt ((hlow τ r hr).trans_le (Nat.le_add_right 1000 k))
  · funext τ
    cases τ <;> rfl
  · intro r hr
    obtain rfl : r = ownSubscription := List.mem_singleton.1 hr
    exact hreference 1 2
  · intro r hr
    rcases List.mem_pair.1 hr with rfl | rfl
    · exact hreference 2 6
    · exact hreference 1 2
  · decide +kernel

/-- A subscription of tenant 2 with a reference that was built for tenant 1. -/
def strayedSubscription : SubscriptionRow :=
  { ownSubscription with tenantId := 2 }

/-- No rows but the subscription. -/
def strayed : Store platformSchema
  | .subscriptions => [strayedSubscription]
  | _ => []

/-- The event of tenant 1 sets the subscription of tenant 2, whose reference is not of its own
tenant. -/
theorem strayed_reference_updated :
    ¬∀ (rt : AvailabilityRuntime) (supply : ℕ → Uuid × ℤ) (tenantId : Uuid)
      (calls : List ServiceCall) (n : ℕ)
      (db₁ db₂ : Store platformSchema), (∀ call ∈ calls, call.IsFor rt.platform.uuid tenantId) →
      Admissible supply tenantId n db₁ → Admissible supply tenantId n db₂ →
      tenantRows tenantId db₁ = tenantRows tenantId db₂ →
      TenantIsolated rt supply tenantId calls n db₁ db₂ := by
  intro h
  have hcalls : ∀ call ∈ [ServiceCall.consumeWebhook .sepay samplePayment],
      call.IsFor timelessRuntime.platform.uuid 1 := by
    intro call hcall
    cases List.mem_singleton.1 hcall
    exact ⟨2, rfl⟩
  have hlow : ∀ τ, ∀ r ∈ foreignRows 1 strayed τ, rowId τ r < 1000 := by
    intro τ
    cases τ <;> decide
  have hisolated := h timelessRuntime sampleSupply 1 [.consumeWebhook .sepay samplePayment] 0
    (fun _ => [])
    strayed hcalls ⟨fun _ => List.nodup_nil, fun _ _ _ _ hr => absurd hr List.not_mem_nil⟩
    ⟨fun τ => by cases τ <;> decide,
      fun k _ τ r hr => Nat.ne_of_lt ((hlow τ r hr).trans_le (Nat.le_add_right 1000 k))⟩
    (funext fun τ => by cases τ <;> rfl)
  -- the status of tenant 2's subscription has changed
  have hset : foreignRows 1 (serveCalls timelessRuntime sampleSupply 1
        [.consumeWebhook .sepay samplePayment] ⟨strayed, .idle, 0⟩).2.store .subscriptions ≠
      foreignRows 1 strayed .subscriptions := by
    decide +kernel
  exact hset (congrFun hisolated.foreign₂ .subscriptions)

end BookingPlatform
