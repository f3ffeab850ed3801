import BookingPlatform.Library.Owners
import BookingPlatform.Platform.Confinement

/-!
# Tenants at the Same Time

The requests of all tenants over one database without row-level security, interleaved statement by
statement, with failures and crashes. A tenant gets the answers, and comes to the rows, that it
would get and come to if it were the only one, however the requests of the others come in between:
nothing that they do reaches it, and nothing that it does reaches them.

Plans and webhook receipts are everybody's, and no request of a tenant writes them. Payment events,
which do, come from their providers.

## Main definitions

- `ClientRequest`: a call that a tenant makes itself.
- `tenants`: the tenants as owners of rows.

## Main results

- `requests_isolated`: a tenant is served as if it were the only one.
- `requests_keepOut`: a request changes nothing that another tenant sees.
-/

namespace BookingPlatform

open Library BaseTenantRepository

/-! ## The tenants as owners -/

/-- The tables whose rows have a tenant. -/
def hasTenant : TableName → Bool
  | .plans | .webhookReceipts => false
  | _ => true

theorem rowTenant_eq_none {τ : TableName} (h : hasTenant τ = false) (r : Row τ) :
    rowTenant τ r = none := by
  cases τ <;> first | rfl | cases h

theorem rowTenant_ne_none {τ : TableName} (h : hasTenant τ = true) (r : Row τ) :
    rowTenant τ r ≠ none := by
  cases τ <;> first | exact Option.some_ne_none _ | cases h

/-- In a table whose rows have a tenant, what a tenant sees is its own. -/
theorem tenant_of_visible {τ : TableName} (hτ : hasTenant τ = true) {tenantId : Uuid} {r : Row τ}
    (h : visible tenantId τ r = true) : rowTenant τ r = some tenantId := by
  rcases of_decide_eq_true h with htenant | hnone
  · exact htenant
  · exact absurd hnone (rowTenant_ne_none hτ r)

/-- Every tenant owns its rows. -/
def tenants (uuid : UuidText) : Owners platformSchema Uuid where
  own := visible
  sound := rowSound uuid
  guarded := hasTenant
  apart tenantId := (tenantDomain uuid tenantId).apart
  open_own hτ tenantId r := by
    have hnone := rowTenant_eq_none hτ r
    simp [visible, hnone]
  owner_unique hτ _ _ _ h h' :=
    Option.some.inj ((tenant_of_visible hτ h).symm.trans (tenant_of_visible hτ h'))

/-! ## Requests -/

/-- A call that a tenant makes itself. -/
structure ClientRequest where
  tenantId : Uuid
  call : ServiceCall
  byTenant : ∀ provider event, call ≠ .consumeWebhook provider event

/-- The call is served, and its result returned. -/
def ClientRequest.program (rt : AvailabilityRuntime) (q : ClientRequest) :
    PlatformM ((call : ServiceCall) × call.Result) := do
  let result ← q.call.request rt q.tenantId
  return ⟨q.call, result⟩

section Requests

variable {uuid : UuidText} {tenantId : Uuid} {α : Type}

/-- A statement that the filter confines writes no table without tenants. -/
theorem writesIn_of_scoped {s : Command} (h : TenantScoped uuid tenantId hasTenant s) :
    s.WritesIn hasTenant := by
  cases s with
  | insert τ row => exact h.1
  | insertIgnore τ row => exact h.1
  | update τ p set =>
    cases hτ : hasTenant τ with
    | true => exact .inl hτ
    | false =>
      refine .inr fun r => ?_
      -- a row without a tenant is not the tenant's
      by_contra hp
      have htenant := h.1 r (Bool.not_eq_false _ ▸ hp)
      rw [rowTenant_eq_none hτ] at htenant
      cases htenant
  | delete τ p =>
    have hdeletes := h.1
    cases τ <;> first | exact .inl rfl | cases hdeletes
  | _ => trivial

theorem writesIn_transaction {body : PlatformM α} (h : body.Uses (Stmt.WritesIn hasTenant)) :
    (PlatformM.transaction body).Uses (Stmt.WritesIn hasTenant) := by
  refine Prog.Uses.bind (Prog.Uses.tryCatch h fun e => ?_) fun value => ?_
  · exact fun _ => ⟨trivial, fun _ _ => trivial⟩
  · have hcommit : Stmt.WritesIn hasTenant (.commit : Command) := trivial
    exact Prog.Uses.bind (uses_execSql hcommit) fun _ => uses_pure value

theorem writesIn_booking (s : Statement) : (bookingCommand s).WritesIn hasTenant := by
  cases s with
  | updateTimes tenantId id version startsAt endsAt =>
    rcases startsAt with - | startsAt
    · trivial
    · rcases endsAt with - | endsAt
      · trivial
      · exact .inl rfl
  | _ => first | trivial | rfl | exact .inl rfl

theorem creates_hasTenant {call : ServiceCall} (h : call.writesById = false) :
    ∀ τ ∈ call.creates, hasTenant τ = true := by
  cases call with
  | consumeWebhook provider event => cases h
  | booking o => cases o <;> simp [ServiceCall.creates, Operation.creates, hasTenant]
  | _ => simp [ServiceCall.creates, hasTenant]

theorem writesIn_request (rt : AvailabilityRuntime) {call : ServiceCall}
    (hcall : ∀ provider event, call ≠ .consumeWebhook provider event) :
    (call.request rt tenantId).Uses (Stmt.WritesIn hasTenant) := by
  have hplain : call.writesById = false →
      (call.program rt tenantId).Uses (Stmt.WritesIn hasTenant) := by
    intro hid
    have hscoped : (call.program rt tenantId).Uses
        (TenantScoped rt.platform.uuid tenantId hasTenant) :=
      scoped_program rt hid (creates_hasTenant hid)
    exact hscoped.mono fun s hs => writesIn_of_scoped hs
  cases call with
  | consumeWebhook provider event => exact absurd rfl (hcall provider event)
  | booking o => exact writesIn_transaction (Prog.Uses.translate bookingCommands writesIn_booking _)
  | _ => exact writesIn_transaction (hplain rfl)

end Requests

/-- What the services outside of a tenant commit. An event that is delivered stays the tenant's. -/
def otherCommits (db : Store platformSchema) (id : Uuid) : Change platformSchema → Prop
  | .put .outboxEvents r => ∃ r₀ ∈ db .outboxEvents, r.id = r₀.id ∧ r.tenantId = r₀.tenantId
  | c => otherServices db id c

theorem outside_of_otherCommits (uuid : UuidText) {db : Store platformSchema} {id : Uuid}
    {c : Change platformSchema} (h : otherCommits db id c) : (tenants uuid).Outside db id c := by
  cases c with
  | remove τ id => cases h
  -- each of these rows is new, or keeps the tenant of the row it replaces
  | put τ r =>
    cases τ with
    | tenants =>
      rcases h with h | ⟨r₀, hr₀, h⟩
      · exact ⟨trivial, .inl h⟩
      · refine ⟨trivial, .inr ⟨r₀, hr₀, h.symm, fun o => ?_⟩⟩
        simp [tenants, visible, rowTenant, h]
    | memberships => exact ⟨trivial, .inl h⟩
    | plans =>
      rcases h with h | ⟨r₀, hr₀, h⟩
      · exact ⟨trivial, .inl h⟩
      · exact ⟨trivial, .inr ⟨r₀, hr₀, h.symm, fun o => rfl⟩⟩
    | outboxEvents =>
      obtain ⟨r₀, hr₀, hid, htenant⟩ := h
      refine ⟨trivial, .inr ⟨r₀, hr₀, hid.symm, fun o => ?_⟩⟩
      simp [tenants, visible, rowTenant, htenant]
    | _ => cases h

/-- They could commit it, too, if there were no other tenant. -/
theorem otherCommits_tenantRows (tenantId : Uuid) {db : Store platformSchema} {id : Uuid}
    {τ : TableName} {r : Row τ} (h : otherCommits db id (.put τ r))
    (hown : visible tenantId τ r = true) :
    otherCommits (tenantRows tenantId db) id (.put τ r) := by
  cases τ with
  | tenants =>
    rcases h with h | ⟨r₀, hr₀, h⟩
    · exact .inl h
    · -- the row that is replaced is the tenant's own
      refine .inr ⟨r₀, List.mem_filter.2 ⟨hr₀, ?_⟩, h⟩
      simpa [visible, rowTenant, h] using hown
  | memberships => exact h
  | plans =>
    rcases h with h | ⟨r₀, hr₀, h⟩
    · exact .inl h
    · exact .inr ⟨r₀, List.mem_filter.2 ⟨hr₀, rfl⟩, h⟩
  | outboxEvents =>
    obtain ⟨r₀, hr₀, hid, htenant⟩ := h
    refine ⟨r₀, List.mem_filter.2 ⟨hr₀, ?_⟩, hid, htenant⟩
    simpa [visible, rowTenant, htenant] using hown
  | _ => cases h

/-! ## Runs -/

section Runs

variable {T : Type} [DecidableEq T]

/-- Requests of all tenants over one database. -/
abbrev ClientWorld (T : Type) : Type :=
  World (storeSignature platformSchema) T (SharedStore platformSchema T) ClientRequest Thrown
    ((call : ServiceCall) × call.Result)

/-- A database with its primary keys and the payment references of its tenants, in which no row has
an id that is still to be drawn. -/
structure Stocked (uuid : UuidText) (supply : ℕ → Uuid × ℤ) (db : Store platformSchema) : Prop where
  keyed : db.Keyed
  references : OwnReferences uuid db
  undrawn : ∀ n τ, ∀ r ∈ db τ, rowId τ r ≠ (supply n).1

variable {rt : AvailabilityRuntime} {supply : ℕ → Uuid × ℤ} {db : Store platformSchema}
  {w : ClientWorld T}

theorem Stocked.alone_of_run (hdb : Stocked rt.platform.uuid supply db)
    (hdistinct : Function.Injective fun n => (supply n).1)
    (hrun : Runs (World.Step (storeServer supply otherCommits (ClientRequest.program rt))) anyStep
      (World.fresh (SharedStore.initial T db)) w) (tenantId : Uuid) :
    (∃ ph, (tenants rt.platform.uuid).Held ClientRequest.tenantId supply w ph) ∧
      ∃ w', Runs (World.Step (Owners.quietServer supply otherCommits (ClientRequest.program rt)))
          (Owners.ServesOnly ClientRequest.tenantId tenantId)
          (World.fresh (SharedStore.initial T (tenantRows tenantId db))) w' ∧
        (tenants rt.platform.uuid).Alone ClientRequest.tenantId tenantId w w' := by
  -- only the references of subscriptions are to be checked
  have hsound : ∀ τ, ∀ r ∈ db τ, rowSound rt.platform.uuid τ r := by
    intro τ r hr
    cases τ with
    | subscriptions => exact hdb.references r hr
    | _ => trivial
  -- no request consumes a webhook here
  have hprogram : ∀ q : ClientRequest, (q.program rt).Follows
      ((tenants rt.platform.uuid).dom q.tenantId).confinement (fun _ _ => True) fun _ => ∅ := by
    intro q
    have hfor : q.call.IsFor rt.platform.uuid q.tenantId := by
      cases hcall : q.call with
      | consumeWebhook provider event => exact absurd hcall (q.byTenant provider event)
      | _ => trivial
    exact Prog.follows_bind_any (confined_request rt hfor) fun _ _ => trivial
  have hwrites : ∀ q : ClientRequest, (q.program rt).Uses (Stmt.WritesIn hasTenant) := fun q =>
    Prog.Uses.bind (writesIn_request rt q.byTenant) fun _ => uses_pure _
  exact Owners.alone_of_run hdistinct (fun _ _ _ => outside_of_otherCommits rt.platform.uuid)
    (fun tenantId _ _ _ _ => otherCommits_tenantRows tenantId) hprogram hwrites
    (.initial hdb.keyed hsound fun n τ _ => hdb.undrawn n τ) hrun tenantId

end Runs

/-- However the requests of all tenants are interleaved, and whichever of them fail or die, there is
a run with the requests of one tenant alone, on its rows alone, in which each of them has got the
same answers and goes on in the same way, and which leaves the rows that the tenant sees. -/
theorem requests_isolated {T : Type} [DecidableEq T] (rt : AvailabilityRuntime)
    (supply : ℕ → Uuid × ℤ) (hdistinct : Function.Injective fun n => (supply n).1)
    (db : Store platformSchema) (hdb : Stocked rt.platform.uuid supply db) (w : ClientWorld T)
    (hrun : Runs (World.Step (storeServer supply otherCommits (ClientRequest.program rt))) anyStep
      (World.fresh (SharedStore.initial T db)) w)
    (tenantId : Uuid) :
    ∃ w' : ClientWorld T,
      Runs (World.Step (Owners.quietServer supply otherCommits (ClientRequest.program rt)))
        (Owners.ServesOnly ClientRequest.tenantId tenantId)
        (World.fresh (SharedStore.initial T (tenantRows tenantId db))) w' ∧
      w'.shared.store = tenantRows tenantId w.shared.store ∧
      ∀ t σ, w.session t = some σ → σ.request.tenantId = tenantId → w'.session t = some σ := by
  obtain ⟨-, w', hrun', halone⟩ := hdb.alone_of_run hdistinct hrun tenantId
  exact ⟨w', hrun', halone.store, fun t σ hσ htenant => (halone.mine t σ hσ htenant).1⟩

/-- Tenant 2 gets a customer. -/
def neighbourRequest : ClientRequest :=
  ⟨2, .createCustomer { name := "Mallory", email := "mallory@example.com", phone := none }, nofun⟩

theorem neighboured_stocked : Stocked sampleUuid sampleSupply neighboured := by
  have hlow : ∀ τ, ∀ r ∈ neighboured τ, rowId τ r < 1000 := by
    intro τ
    cases τ <;> decide
  refine ⟨fun τ => ?_, fun r hr => absurd hr List.not_mem_nil, fun n τ r hr => ?_⟩
  · cases τ <;> decide
  · exact Nat.ne_of_lt ((hlow τ r hr).trans_le (Nat.le_add_right 1000 n))

/-- Tenant 1 could be alone with its customer. -/
theorem requests_isolated_neighboured :
    ∃ w : ClientWorld Unit, (w.shared.store .customers).map (·.name) = ["Ann", "Eve", "Mallory"] ∧
      ∃ w' : ClientWorld Unit,
        Runs (World.Step (Owners.quietServer sampleSupply otherCommits
          (ClientRequest.program timelessRuntime)))
          (Owners.ServesOnly ClientRequest.tenantId 1)
          (World.fresh (SharedStore.initial Unit (tenantRows 1 neighboured))) w' ∧
        w'.shared.store = tenantRows 1 w.shared.store ∧
        ∀ t σ, w.session t = some σ → σ.request.tenantId = 1 → w'.session t = some σ := by
  obtain ⟨w, hrun, hshared⟩ : ∃ w', Runs (World.Step (storeServer sampleSupply otherCommits
      (ClientRequest.program timelessRuntime))) anyStep
      (World.fresh (SharedStore.initial Unit neighboured)) w' ∧ _ :=
    exists_run_of_request (t := ()) neighbourRequest rfl
  refine ⟨w, ?_, requests_isolated timelessRuntime sampleSupply sampleSupply_injective neighboured
    neighboured_stocked w hrun 1⟩
  rw [hshared]
  decide +kernel

/-- A statement of a request, its commit included, changes nothing that another tenant sees. -/
theorem requests_keepOut {T : Type} [DecidableEq T] (rt : AvailabilityRuntime)
    (supply : ℕ → Uuid × ℤ) (hdistinct : Function.Injective fun n => (supply n).1)
    (db : Store platformSchema) (hdb : Stocked rt.platform.uuid supply db) (w w₁ : ClientWorld T)
    (hrun : Runs (World.Step (storeServer supply otherCommits (ClientRequest.program rt))) anyStep
      (World.fresh (SharedStore.initial T db)) w)
    (t : T) (x : Exchange (storeSignature platformSchema))
    (hstep : World.Step (storeServer supply otherCommits (ClientRequest.program rt)) w
      (.call t x) w₁)
    (tenantId : Uuid) (hother : ∀ σ, w.session t = some σ → σ.request.tenantId ≠ tenantId) :
    tenantRows tenantId w₁.shared.store = tenantRows tenantId w.shared.store := by
  obtain ⟨⟨ph, hheld⟩, -⟩ := hdb.alone_of_run hdistinct hrun tenantId
  cases hstep with
  | call a hat ha => exact hheld.ownRows_call hat (hother _ hat) a

/-- The next statement is `COMMIT`. -/
def isCommitting {α : Type} : PlatformM α → Bool
  | .call .commit _ => true
  | _ => false

theorem exists_of_isCommitting {α : Type} {p : PlatformM α} (h : isCommitting p = true) :
    ∃ k, p = .call .commit k := by
  unfold isCommitting at h
  split at h
  · exact ⟨_, rfl⟩
  · cases h

/-- The request for tenant 2 commits its customer. -/
theorem requests_keepOut_neighboured :
    ∃ w w₁ : ClientWorld Unit,
      World.Step (storeServer sampleSupply otherCommits (ClientRequest.program timelessRuntime)) w
        (.call () ⟨.commit, .ok ()⟩) w₁ ∧
      (w.shared.store .customers).map (·.name) = ["Ann", "Eve"] ∧
      (w₁.shared.store .customers).map (·.name) = ["Ann", "Eve", "Mallory"] ∧
      tenantRows 1 w₁.shared.store = tenantRows 1 w.shared.store := by
  obtain ⟨w, tr, hrun, hshared, hat⟩ :
    ∃ (w : ClientWorld Unit) (tr : List (Exchange (storeSignature platformSchema))),
      Runs (World.Step (storeServer sampleSupply otherCommits
        (ClientRequest.program timelessRuntime))) anyStep
        (World.fresh (SharedStore.initial Unit neighboured)) w ∧ _ ∧ _ :=
    exists_run_of_advance (t := ()) neighbourRequest 1 rfl
  -- the customer has been inserted
  have hcommitting : isCommitting
    ((neighbourRequest.program timelessRuntime).advance (Machine.step sampleSupply) 1
      ((SharedStore.initial Unit neighboured).machine ())).1 = true := by decide +kernel
  obtain ⟨k, hcommit⟩ := exists_of_isCommitting hcommitting
  rw [World.fresh_shared, hcommit] at hat
  obtain ⟨w₁, hstep, hstore⟩ : ∃ w₁,
      World.Step (storeServer sampleSupply otherCommits (ClientRequest.program timelessRuntime)) w
        (.call () ⟨.commit, .ok ()⟩) w₁ ∧
      w₁.shared.store = (w.shared.tx ()).committed w.shared.store .commit (.ok ()) :=
    ⟨_, .call (Except.ok ()) hat (Or.inl rfl), rfl⟩
  refine ⟨w, w₁, hstep, ?_, ?_,
    requests_keepOut timelessRuntime sampleSupply sampleSupply_injective neighboured
    neighboured_stocked w w₁ hrun () _ hstep 1 ?_⟩
  · rw [hshared]
    decide +kernel
  · rw [hstore, hshared]
    decide +kernel
  · intro σ hσ
    rw [hat] at hσ
    cases hσ
    exact Nat.succ_ne_self 1

end BookingPlatform
