import BookingPlatform.Library.Solo
import BookingPlatform.Subscription.Atomicity

/-!
# Webhooks Are Consumed Once

Any multiset of webhook requests, delivered in any order and interleaved statement by
statement, with sessions that die and statements that fail.

## Main definitions

- `WebhookSafety`: once-only receipts, atomic deliveries, lawful status changes.

## Main results

- `webhooks_consumedOnce`: it holds in every reachable world.
-/

namespace BookingPlatform

open Library

abbrev WebhookSql : Signature := sqlSignature WebhookStatement WebhookStatement.Result

abbrev WebhookWorld (T : Type) : Type := World WebhookSql T (BillingDb T) WebhookRequest Thrown Unit

section Runs

variable {T : Type} [DecidableEq T] (uuid : UuidText) (registry : PaymentProviderRegistry)

def deliveryTracker : Tracker (webhookServer (T := T) uuid registry) delivering .ended
    (DeliveryPhase.start uuid registry) :=
  Server.traceTracker _ _ _ _ fun _ _ _ => trivial

/-- How far each session has come. -/
def deliveryOf (w : WebhookWorld T) : T → DeliveryPhase := (deliveryTracker uuid registry).phase w

/-- All sessions keep to their course, and the tables are sound. -/
structure WebhooksInv (w : WebhookWorld T) : Prop where
  conforms : (deliveryTracker uuid registry).Conforms delivered w
  tables : BillingInv uuid w.shared (deliveryOf uuid registry w)

variable {uuid registry} {w w' : WebhookWorld T}

/-! ## What is delivered -/

@[simp] theorem fail_event (ph : DeliveryPhase) : ph.fail.event = ph.event := by
  cases ph <;> rfl

@[simp] theorem undo_event (ph : DeliveryPhase) : ph.undo.event = ph.event := by
  cases ph <;> rfl

theorem delivering_next_event (ph : DeliveryPhase) (s : WebhookStatement)
    (x : Except SqlState s.Result) :
    (delivering.next ph s x).event = ph.event := by
  simp only [delivering]
  split
  case h_1 => exact undo_event ph
  case h_2 => exact fail_event ph
  case h_4 | h_6 => split <;> rfl
  all_goals rfl

/-- A session delivers the event of its request. -/
theorem deliveryOf_event {t : T} {σ : Session WebhookSql WebhookRequest Thrown Unit}
    (hat : w.session t = some σ) :
    (deliveryOf uuid registry w t).event = accepted uuid registry σ.request := by
  have hphase : deliveryOf uuid registry w t =
      Server.phaseAfter delivering (.start uuid registry σ.request) σ.trace := by
    simp [deliveryOf, deliveryTracker, Server.traceTracker, Server.tracePhase, hat]
  have hstart : (DeliveryPhase.start uuid registry σ.request).event =
      accepted uuid registry σ.request := by
    unfold DeliveryPhase.start
    cases accepted uuid registry σ.request <;> rfl
  rw [hphase, ← hstart]
  generalize DeliveryPhase.start uuid registry σ.request = ph
  induction σ.trace generalizing ph with
  | nil => rfl
  | cons x tr ih => exact (ih _).trans (delivering_next_event ph x.1 x.2)

/-! ## The invariant of runs -/

omit [DecidableEq T] in
/-- A tenant that subscribes leaves all deliveries alone. -/
theorem BillingInv.subscribes {g g' : BillingDb T} {phase : T → DeliveryPhase}
    (h : BillingInv uuid g phase) (hg : g.Subscribes uuid g') : BillingInv uuid g' phase := by
  obtain ⟨s, nonce, hnew, hfree, -, -, rfl⟩ := hg
  refine ⟨h.receipts, h.subscriptions.record (e := s) (fun u => hfree u) ?_, fun u =>
    (h.sound u).keeps ?_⟩
  · have hnone : subscriptionTable.row g.subscriptions.committed s.id = none :=
      subscriptionTable.row_of_ne hnew
    change StatusChange (subscriptionTable.row g.subscriptions.committed s.id) s
    rw [hnone]
    trivial
  · refine ⟨rfl, rfl, rfl, fun r hr => hr, fun id s' hs' => ⟨s', ?_, .refl s'⟩, fun s' hs' => ?_⟩
    · exact subscription_kept hnew hs'
    · exact subscriptionTable.row_cons_ne (hfree u s' hs').symm _

theorem deliveryOf_start (h : (deliveryTracker uuid registry).Conforms delivered w) {t : T}
    {q : WebhookRequest} (hidle : w.session t = none) :
    deliveryOf uuid registry (w.start (webhookServer uuid registry) t q) =
      Function.update (deliveryOf uuid registry w) t (.start uuid registry q) :=
  Function.eq_update_iff.2
    ⟨(deliveryTracker uuid registry).start_eq w t q hidle (h.phase_idle hidle),
      fun u hu => (deliveryTracker uuid registry).start_frame w t q u hu⟩

theorem deliveryOf_answered {t : T} {q : WebhookRequest} {tr : List (Exchange WebhookSql)}
    {s : WebhookStatement} {k : WebhookSql.Ans s → Prog WebhookSql Thrown Unit}
    {x : WebhookSql.Ans s} (hat : w.session t = some ⟨q, .call s k, tr⟩)
    (hx : w.shared.possible uuid t s x) :
    deliveryOf uuid registry (w.answered (webhookServer uuid registry) t q (k x) tr s x) =
      Function.update (deliveryOf uuid registry w) t
        (delivering.next (deliveryOf uuid registry w t) s x) :=
  Function.eq_update_iff.2 ⟨(deliveryTracker uuid registry).call_eq w t q s k tr x hat hx,
    fun u hu => (deliveryTracker uuid registry).call_frame w t q (k x) tr s x u hu⟩

theorem deliveryOf_crashed (t : T) :
    deliveryOf uuid registry (w.crashed (webhookServer uuid registry) t) =
      Function.update (deliveryOf uuid registry w) t .ended :=
  Function.eq_update_iff.2 ⟨(deliveryTracker uuid registry).crash_eq w t,
    fun u hu => (deliveryTracker uuid registry).crash_frame w t u hu⟩

/-- Every step keeps the invariant. -/
theorem WebhooksInv.step (h : WebhooksInv uuid registry w) {l : Label WebhookSql T WebhookRequest}
    (hs : World.Step (webhookServer uuid registry) w l w') : WebhooksInv uuid registry w' := by
  refine ⟨h.conforms.step (follows_delivering uuid registry) hs, ?_⟩
  cases hs with
  | @start t q hidle =>
    -- a session that starts has nothing pending
    have hover : Sound uuid w.shared t .ended := by
      have hmine := h.tables.sound t
      rwa [deliveryOf, h.conforms.phase_idle hidle] at hmine
    have hself : Sound uuid w.shared t (.start uuid registry q) := by
      unfold DeliveryPhase.start
      cases accepted uuid registry q <;> exact hover
    rw [deliveryOf_start h.conforms hidle]
    exact h.tables.moved h.tables.receipts h.tables.subscriptions
      (fun u _ => BillingDb.keeps_of_frame rfl rfl rfl rfl rfl) hself
  | @call t q tr s k x hat hx =>
    rw [deliveryOf_answered hat hx]
    exact h.tables.delivers (.of_statement (h.conforms.allows hat) hx)
  | @crash t σ hat hrun =>
    rw [deliveryOf_crashed]
    exact h.tables.rolled_back (rollback_untouched w.shared t)
  | @env g hg => exact h.tables.subscribes hg

theorem WebhooksInv.initial {g : BillingDb T} (hg : g.Initial) :
    WebhooksInv uuid registry (World.fresh g) where
  conforms _ := rfl
  tables := by
    refine ⟨.of_idle (.of_nodup ?_ fun _ _ => rfl) hg.noReceipts,
      .of_idle (.of_nodup hg.ids fun _ _ => trivial) hg.noUpdates, fun t => ?_⟩
    · rw [show receiptTable.key = id from rfl, List.map_id]
      exact hg.receipts
    · exact ⟨hg.noReceipts t, hg.noUpdates t⟩

/-- The invariant holds along every run. -/
theorem WebhooksInv.run (h : WebhooksInv uuid registry w)
    (hrun : Runs (World.Step (webhookServer uuid registry)) anyStep w w') :
    WebhooksInv uuid registry w' :=
  hrun.invariant (fun _ _ _ hw _ hs => hw.step hs) h

/-! ## What a step does to the committed rows -/

/-- A successful commit is the commit of an accepted event whose work is done. -/
theorem WebhooksInv.committing (h : WebhooksInv uuid registry w) {t : T}
    (hs : World.Step (webhookServer uuid registry) w (.call t ⟨.commit, .ok ()⟩) w') :
    ∃ σ d, w.session t = some σ ∧ accepted uuid registry σ.request = some d ∧
      (deliveryOf uuid registry w t).Committing ∧ (deliveryOf uuid registry w t).event = some d ∧
      w'.shared = w.shared.commit t := by
  cases hs with
  | @call _ q tr _ k _ hat hx =>
    have hallow := h.conforms.allows hat
    have hcommitting : (deliveryOf uuid registry w t).Committing := by
      unfold deliveryOf
      generalize (deliveryTracker uuid registry).phase w t = ph at hallow
      cases ph <;> exact hallow.2
    have hevent : (deliveryOf uuid registry w t).event = accepted uuid registry q :=
      deliveryOf_event hat
    cases hd : accepted uuid registry q with
    -- the request of a committing session has been accepted
    | none =>
      rw [hd] at hevent
      generalize deliveryOf uuid registry w t = ph at hcommitting hevent
      cases ph with
      | repeated _ | dropped _ | applied _ _ => cases hevent
      | _ => exact hcommitting.elim
    | some d => exact ⟨_, d, hat, hd, hcommitting, hevent.trans hd, rfl⟩

theorem WebhooksInv.commit (h : WebhooksInv uuid registry w) {t : T}
    (hs : World.Step (webhookServer uuid registry) w (.call t ⟨.commit, .ok ()⟩) w') :
    ∃ σ d, w.session t = some σ ∧ accepted uuid registry σ.request = some d ∧
      Consumes uuid d w.shared w'.shared := by
  obtain ⟨σ, d, hat, hd, hcommitting, hevent, hshared⟩ := h.committing hs
  rw [hshared]
  exact ⟨σ, d, hat, hd, h.tables.commit_consumes hcommitting hevent⟩

/-- A delivery is told whether its receipt was committed. -/
theorem WebhooksInv.claim (h : WebhooksInv uuid registry w) {t : T}
    {provider : PaymentProviderName} {eventId : String} {claimed : Bool}
    (hs : World.Step (webhookServer uuid registry) w
      (.call t ⟨.claimReceipt provider eventId, .ok claimed⟩) w') :
    claimed = true ↔ ⟨provider, eventId⟩ ∉ w.shared.receipts.committed := by
  cases hs with
  | @call _ q tr _ k _ hat hx =>
    obtain ⟨hrun, hopened⟩ := h.conforms.allows hat
    have hmine := h.tables.sound t
    unfold deliveryOf at hmine
    generalize (deliveryTracker uuid registry).phase w t = ph at hrun hopened hmine
    cases ph with
    | opened d =>
      have hclaim := hx.2
      rwa [LogStore.visible, hmine.1.receipts] at hclaim
    | _ => exact hopened.elim

/-- A delivery that is answered without an error has its receipt committed. -/
theorem WebhooksInv.answered (h : WebhooksInv uuid registry w) {t : T}
    {σ : Session WebhookSql WebhookRequest Thrown Unit} {d : AcceptedEvent}
    (hat : w.session t = some σ) (hd : accepted uuid registry σ.request = some d)
    (hok : σ.prog.outcome = some (.ok ())) :
    d.receipt ∈ w.shared.receipts.committed := by
  have hevent : (deliveryOf uuid registry w t).event = some d := (deliveryOf_event hat).trans hd
  have hends := h.conforms.running hat
  have hmine := h.tables.sound t
  unfold deliveryOf at hevent hmine
  obtain ⟨q, p, tr⟩ := σ
  cases p with
  -- it has returned, so that its receipt is committed
  | ret a =>
    rw [Prog.follows_ret] at hends
    generalize (deliveryTracker uuid registry).phase w t = ph at hevent hends hmine
    cases ph with
    | done d' =>
      cases hevent
      exact hmine.2
    | ended => cases hevent
    | _ => exact hends.elim
  | raise e => cases hok
  | call s k => cases hok

/-- Only commits of deliveries touch the committed rows; the environment adds some. -/
theorem quiet_step {l : Label WebhookSql T WebhookRequest}
    (hs : World.Step (webhookServer uuid registry) w l w')
    (hl : ∀ t, l ≠ .call t ⟨.commit, .ok ()⟩) :
    w'.shared.receipts.committed = w.shared.receipts.committed ∧
      (w'.shared.subscription = w.shared.subscription ∨
        l = .env ∧ ∀ id s, w.shared.subscription id = some s →
        w'.shared.subscription id = some s) := by
  cases hs with
  | start q hidle => exact ⟨rfl, .inl rfl⟩
  | @call t q tr s k x hat hx =>
    cases x with
    | error code => cases s <;> exact ⟨rfl, .inl rfl⟩
    | ok v =>
      cases s with
      | commit => exact absurd rfl (hl t)
      | _ => exact ⟨rfl, .inl rfl⟩
  | crash hat hrun => exact ⟨rfl, .inl rfl⟩
  | env hg =>
    obtain ⟨s, nonce, hnew, -, -, -, rfl⟩ := hg
    exact ⟨rfl, .inr ⟨rfl, fun _ _ hrow => subscription_kept hnew hrow⟩⟩

/-- A committed receipt, and a canceled subscription, stay as they are. -/
theorem WebhooksInv.step_keeps (h : WebhooksInv uuid registry w)
    {l : Label WebhookSql T WebhookRequest} (hs : World.Step (webhookServer uuid registry) w l w') :
    (∀ r ∈ w.shared.receipts.committed, r ∈ w'.shared.receipts.committed) ∧
      ∀ id s, w.shared.subscription id = some s → s.status = .canceled →
        w'.shared.subscription id = some s := by
  -- only a commit changes receipts, and it adds one
  by_cases hl : ∃ t, l = .call t ⟨.commit, .ok ()⟩
  · obtain ⟨t, rfl⟩ := hl
    obtain ⟨σ, d, -, -, hconsumes⟩ := h.commit hs
    rcases hconsumes with ⟨-, hreceipts, hrows⟩ | ⟨-, hreceipts,
      hrows | ⟨s', hrow', -, hlive, -, hrows⟩⟩
    · exact ⟨fun r hr => hreceipts ▸ hr, fun id s hs _ => hrows ▸ hs⟩
    · exact ⟨fun r hr => hreceipts ▸ List.mem_cons_of_mem _ hr, fun id s hs _ => hrows ▸ hs⟩
    · refine ⟨fun r hr => hreceipts ▸ List.mem_cons_of_mem _ hr, fun id s hs hcanceled => ?_⟩
      -- a canceled subscription is not the one that moves
      have hne : id ≠ s'.id := by
        rintro rfl
        have hsame : s' = s := Option.some.inj (hrow'.symm.trans hs)
        exact hlive (hsame ▸ hcanceled)
      rw [hrows, Function.update_of_ne hne]
      exact hs
  · obtain ⟨hreceipts, hrows | ⟨-, hrows⟩⟩ := quiet_step hs fun t ht => hl ⟨t, ht⟩
    · exact ⟨fun r hr => hreceipts ▸ hr, fun id s hs _ => hrows ▸ hs⟩
    · exact ⟨fun r hr => hreceipts ▸ hr, fun id s hs _ => hrows id s hs⟩

/-- Over a whole run as well. -/
theorem WebhooksInv.run_keeps (h : WebhooksInv uuid registry w)
    (hrun : Runs (World.Step (webhookServer uuid registry)) anyStep w w') :
    (∀ r ∈ w.shared.receipts.committed, r ∈ w'.shared.receipts.committed) ∧
      ∀ id s, w.shared.subscription id = some s → s.status = .canceled →
        w'.shared.subscription id = some s := by
  refine (hrun.invariant (I := fun w' => WebhooksInv uuid registry w' ∧
    (∀ r ∈ w.shared.receipts.committed, r ∈ w'.shared.receipts.committed) ∧
      ∀ id s, w.shared.subscription id = some s → s.status = .canceled →
        w'.shared.subscription id = some s) ?_ ⟨h, fun _ hr => hr, fun _ _ hs _ => hs⟩).2
  rintro w₁ l w₂ ⟨hw, hreceipts, hcanceled⟩ - hs
  obtain ⟨hreceipts', hcanceled'⟩ := hw.step_keeps hs
  exact ⟨hw.step hs, fun r hr => hreceipts' r (hreceipts r hr),
    fun id s hs hstatus => hcanceled' id s (hcanceled id s hs hstatus) hstatus⟩

/-! ## A delivery alone -/

section Alone

variable {g g₁ : BillingDb T} {t : T} {d : AcceptedEvent}

theorem executes_webhook {s : WebhookStatement} {v : s.Result} (hv : g.returns uuid t s v) :
    (webhookServer uuid registry).Executes t (WebhookM.exec s) g (.ok v) (g.apply uuid t s v) :=
  Server.executes_call (.ok v) hv (Server.executes_ret v)

/-- An accepted request consumes its event in the tenant of its reference. -/
theorem handleWebhook_of_accepted {req : WebhookRequest}
    (hd : accepted uuid registry req = some d) :
    tenantFromReference uuid d.event.subscriptionReference = some d.tenantId ∧
      PaymentController.handleWebhook uuid registry req =
        SubscriptionService.consumeWebhook uuid d.provider d.event := by
  unfold accepted at hd
  unfold PaymentController.handleWebhook
  -- an accepted request has passed each check
  cases hget : PaymentProviderRegistry.get req.provider with
  | error e => simp [hget] at hd
  | ok provider =>
    simp only [hget] at hd
    split at hd
    · rename_i hverify
      split at hd
      · rename_i event hparse
        obtain ⟨tenantId, htenant, rfl⟩ := Option.map_eq_some_iff.1 hd
        refine ⟨htenant, ?_⟩
        simp [WebhookM.ofExcept, hverify, hparse]
      · cases hd
    · cases hd

/-- What the lookup of a delivery can find when no other transaction is in its way. -/
def BillingDb.Lookup (uuid : UuidText) (g : BillingDb T) (d : AcceptedEvent) :
    Option Subscription → Prop
  | none => ∀ id s, g.subscription id = some s → ¬d.Names uuid s
  | some s => g.subscription s.id = some s ∧ d.Names uuid s ∧
      ∀ u, ∀ s' ∈ g.subscriptions.pending u, s'.id ≠ s.id

/-- What a delivery writes when it has found `found`. -/
def settles (d : AcceptedEvent) : Option Subscription → List Subscription
  | none => []
  | some s =>
    if SubscriptionStateMachine.canTransition s.status d.next then
      [{ s with status := d.next }] else []

/-- The database after the work of a delivery that has found `found`. -/
def BillingDb.settle (g : BillingDb T) (t : T) (d : AcceptedEvent) (found : Option Subscription) :
    BillingDb T where
  receipts := g.receipts.pushAll t [d.receipt]
  subscriptions := g.subscriptions.pushAll t (settles d found)
  tenant := g.tenant

/-- The work of a delivery whose event is new. -/
theorem claimAndApply_executes {found : Option Subscription} (huntouched : g.Untouched t)
    (htenant : g.tenant t = some d.tenantId) (hnew : d.receipt ∉ g.receipts.committed)
    (hfree : ∀ u, d.receipt ∉ g.receipts.pending u) (hlookup : g.Lookup uuid d found) :
    (webhookServer uuid registry).Executes t (SubscriptionService.claimAndApply d.provider d.event)
      g (.ok ()) (g.settle t d found) := by
  -- nobody has the receipt: the claim succeeds at once
  have hclaim : g.returns uuid t (.claimReceipt d.provider d.event.id) true := by
    refine ⟨fun u _ => hfree u, iff_of_true rfl ?_⟩
    rw [LogStore.visible, huntouched.receipts]
    exact hnew
  let g₁ := g.apply uuid t (.claimReceipt d.provider d.event.id) true
  have hpinned : g₁.tenant t = some d.tenantId := htenant
  have hupdates : g₁.subscriptions.pending t = [] := huntouched.updates
  -- the delivery sees the committed subscriptions
  have hrow : ∀ id, g₁.visibleRow t id = g.subscription id := by
    intro id
    rw [BillingDb.visibleRow, LogStore.visible, hupdates]
    rfl
  have hclaimed : (webhookServer uuid registry).Executes t
      (WebhookM.exec (.claimReceipt d.provider d.event.id)) g (.ok true) g₁ :=
        executes_webhook hclaim
  refine Server.executes_bind hclaimed ?_
  cases found with
  -- no subscription of the reference is in sight
  | none =>
    have hnone : g₁.returns uuid t (.findByReference d.event.subscriptionReference) none := by
      intro id s hs href hsees
      rw [hrow] at hs
      rw [BillingDb.Sees, hpinned] at hsees
      exact hlookup id s hs ⟨href, hsees⟩
    have hsettled : g.settle t d none = g₁ := by
      change { g₁ with subscriptions := g₁.subscriptions.pushAll t [] } = g₁
      rw [LogStore.pushAll_nil]
    rw [hsettled]
    exact Server.executes_bind (executes_webhook hnone) (Server.executes_ret ())
  | some s =>
    obtain ⟨hs, hnames, hunlocked⟩ := hlookup
    have hsome : g₁.returns uuid t (.findByReference d.event.subscriptionReference) (some s) := by
      refine ⟨(hrow s.id).trans hs, hnames.1, ?_⟩
      rw [BillingDb.Sees, hpinned]
      exact hnames.2
    refine Server.executes_bind (executes_webhook hsome) ?_
    change (webhookServer uuid registry).Executes t
      (if !SubscriptionStateMachine.canTransition s.status d.next then .ret ()
        else WebhookM.exec (.updateStatus s.id d.next)) g₁ (.ok ()) (g.settle t d (some s))
    have hsettled : g.settle t d (some s) =
        { g₁ with subscriptions := g₁.subscriptions.pushAll t (settles d (some s)) } := rfl
    rw [hsettled, settles]
    cases hcan : SubscriptionStateMachine.canTransition s.status d.next with
    | false =>
      have hstill : g₁.subscriptions.pushAll t [] = g₁.subscriptions := LogStore.pushAll_nil _ t
      simp only [Bool.not_false, if_true, Bool.false_eq_true, if_false, hstill]
      exact Server.executes_ret ()
    -- the transition is allowed, and nobody has locked the row
    | true =>
      have hupdate : g₁.returns uuid t (.updateStatus s.id d.next) () := fun u _ => hunlocked u
      have hupdated : g₁.updated uuid t s.id d.next = [{ s with status := d.next }] :=
        updated_eq hupdates hpinned hnames hs
      have happly : (webhookServer uuid registry).Executes t
        (WebhookM.exec (.updateStatus s.id d.next)) g₁
          (.ok ()) (g₁.apply uuid t (.updateStatus s.id d.next) ()) := executes_webhook hupdate
      simp only [BillingDb.apply, hupdated] at happly
      exact happly

theorem settles_reverse (d : AcceptedEvent) (found : Option Subscription) :
    (settles d found).reverse = settles d found := by
  cases found with
  | none => rfl
  | some s =>
    simp only [settles]
    split <;> rfl

/-- An accepted event that is new can be consumed, whatever else is going on. -/
theorem WebhooksInv.retry (h : WebhooksInv uuid registry w) {req : WebhookRequest}
    {found : Option Subscription} (hidle : w.session t = none)
    (hd : accepted uuid registry req = some d) (hnew : d.receipt ∉ w.shared.receipts.committed)
    (hfree : ∀ u, d.receipt ∉ w.shared.receipts.pending u)
    (hlookup : w.shared.Lookup uuid d found) :
    ∃ w' σ, Runs (World.Step (webhookServer uuid registry)) anyStep w w' ∧
      w'.session t = some σ ∧ σ.prog.outcome = some (.ok ()) ∧
      w'.shared.receipts.committed = d.receipt :: w.shared.receipts.committed ∧
      w'.shared.subscriptions.committed = settles d found ++ w.shared.subscriptions.committed := by
  obtain ⟨htenant, hprogram⟩ := handleWebhook_of_accepted hd
  have huntouched : w.shared.Untouched t := by
    have hmine := h.tables.sound t
    rwa [deliveryOf, h.conforms.phase_idle hidle] at hmine
  -- the tenant is set, then the work, then the commit
  let g₀ : BillingDb T :=
    { w.shared with tenant := Function.update w.shared.tenant t (some d.tenantId) }
  have hwork : (webhookServer uuid registry).Executes t
      (SubscriptionService.claimAndApply d.provider d.event) g₀ (.ok ()) (g₀.settle t d found) :=
    claimAndApply_executes ⟨huntouched.receipts, huntouched.updates⟩
      (Function.update_self _ _ _) hnew
      hfree hlookup
  have hexecutes : (webhookServer uuid registry).Executes t
      (PaymentController.handleWebhook uuid registry req) w.shared (.ok ())
      ((g₀.settle t d found).commit t) := by
    rw [hprogram, SubscriptionService.consumeWebhook, htenant]
    refine Server.executes_tryCatch (Server.executes_bind (b := ()) (executes_webhook trivial) ?_)
    refine Server.executes_bind hwork ?_
    exact Server.executes_bind (b := ()) (executes_webhook trivial) (Server.executes_ret ())
  have hself : (w.start (webhookServer uuid registry) t req).session t =
      some ⟨req, PaymentController.handleWebhook uuid registry req, []⟩ := by
    rw [World.start_session, if_pos rfl]
    rfl
  -- all of it in one run of this session
  obtain ⟨w', p', tr', hrun, hshared, hat, hok⟩ := Server.exists_run_of_executes
    (w := w.start (webhookServer uuid registry) t req) hexecutes hself
  refine ⟨w', _, .head ⟨_, trivial, .start req hidle⟩ hrun, hat, hok, ?_, ?_⟩
  · rw [hshared]
    simp [BillingDb.settle, BillingDb.commit, g₀, huntouched.receipts]
  · rw [hshared]
    simp [BillingDb.settle, BillingDb.commit, g₀, huntouched.updates, settles_reverse]

end Alone

/-! ## Every delivery is consumed once -/

variable (uuid registry)

/-- Deliveries in a world that has been reached. A receipt is committed once; a delivery that is
answered has its receipt committed; a commit adds the receipt and at most one lawful status
change, or finds the receipt committed and changes nothing; no other step of a delivery changes
a committed row; committed receipts and canceled subscriptions stay; and a delivery whose receipt
is not committed is not taken for a repeated one, and can be completed. -/
structure WebhookSafety (w : WebhookWorld T) : Prop where
  once : w.shared.receipts.committed.Nodup
  answered : ∀ t σ d, w.session t = some σ → accepted uuid registry σ.request = some d →
    σ.prog.outcome = some (.ok ()) → d.receipt ∈ w.shared.receipts.committed
  commit : ∀ t w', World.Step (webhookServer uuid registry) w (.call t ⟨.commit, .ok ()⟩) w' →
    ∃ σ d, w.session t = some σ ∧ accepted uuid registry σ.request = some d ∧
      Consumes uuid d w.shared w'.shared
  quiet : ∀ l w', World.Step (webhookServer uuid registry) w l w' →
    (∀ t, l ≠ .call t ⟨.commit, .ok ()⟩) →
    w'.shared.receipts.committed = w.shared.receipts.committed ∧
      (w'.shared.subscription = w.shared.subscription ∨
        l = .env ∧ ∀ id s, w.shared.subscription id = some s → w'.shared.subscription id = some s)
  keeps : ∀ w', Runs (World.Step (webhookServer uuid registry)) anyStep w w' →
    (∀ r ∈ w.shared.receipts.committed, r ∈ w'.shared.receipts.committed) ∧
      ∀ id s, w.shared.subscription id = some s → s.status = .canceled →
        w'.shared.subscription id = some s
  claim : ∀ t provider eventId claimed w',
    World.Step (webhookServer uuid registry) w
      (.call t ⟨.claimReceipt provider eventId, .ok claimed⟩) w' →
    (claimed = true ↔ ⟨provider, eventId⟩ ∉ w.shared.receipts.committed)
  retry : ∀ t req d found, w.session t = none → accepted uuid registry req = some d →
    d.receipt ∉ w.shared.receipts.committed → (∀ u, d.receipt ∉ w.shared.receipts.pending u) →
    w.shared.Lookup uuid d found →
    ∃ w' σ, Runs (World.Step (webhookServer uuid registry)) anyStep w w' ∧
      w'.session t = some σ ∧ σ.prog.outcome = some (.ok ()) ∧
      w'.shared.receipts.committed = d.receipt :: w.shared.receipts.committed ∧
      w'.shared.subscriptions.committed = settles d found ++ w.shared.subscriptions.committed

/-- Whatever requests arrive, in whatever interleaving, deliveries are atomic and consumed once. -/
theorem webhooks_consumedOnce {g : BillingDb T} (hg : g.Initial) {w : WebhookWorld T}
    (hrun : Runs (World.Step (webhookServer uuid registry)) anyStep (World.fresh g) w) :
    WebhookSafety uuid registry w := by
  have h : WebhooksInv uuid registry w := (WebhooksInv.initial hg).run hrun
  exact
    { once := h.tables.receipts_nodup
      answered := fun _ _ _ hat hd hok => h.answered hat hd hok
      commit := fun _ _ hs => h.commit hs
      quiet := fun _ _ hs hl => quiet_step hs hl
      keeps := fun _ hrun' => h.run_keeps hrun'
      claim := fun _ _ _ _ _ hs => h.claim hs
      retry := fun _ _ _ _ hidle hd hnew hfree hlookup => h.retry hidle hd hnew hfree hlookup }

end Runs

/-- Two deliveries of one event overlap, the first fails before its commit and is retried. -/
def duplicateDeliveries : List (Move (Fin 3) WebhookRequest WebhookChoice) :=
  [.start 0 (sampleRequest .sepay), .start 1 (sampleRequest .sepay), .go 0 .good, .go 1 .good,
    .go 0 .good, .go 0 .good, .go 0 .good, .go 0 .lost, .go 0 .good, .go 1 .good, .go 1 .good,
    .start 2 (sampleRequest .sepay), .go 2 .good, .go 1 .good, .go 1 .good,
    .go 2 .good, .go 2 .good]

theorem webhooks_consumedOnce_duplicateDeliveries :
    ∃ w : WebhookWorld (Fin 3), w.shared.receipts.committed = [⟨.sepay, "evt_1"⟩] ∧
      (w.shared.subscription 3).map (·.status) = some .active ∧
      WebhookSafety sampleUuid sampleRegistry w := by
  obtain ⟨w, hrun, hw⟩ := (webhookResponder sampleUuid sampleRegistry).exists_anyRun
    (World.fresh (sampleBilling (Fin 3))) duplicateDeliveries
    (fun w => w.shared.receipts.committed = [⟨.sepay, "evt_1"⟩] ∧
      (w.shared.subscription 3).map (·.status) = some .active) (by decide +kernel)
  obtain ⟨hreceipts, hstatus⟩ := of_decide_eq_true hw
  exact ⟨w, hreceipts, hstatus, webhooks_consumedOnce sampleUuid sampleRegistry
    (sampleBilling_initial (Fin 3)) hrun⟩

end BookingPlatform
