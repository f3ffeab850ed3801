import BookingPlatform.Subscription.Delivery

/-!
# What a Delivery Writes

A delivery holds the receipt of its event from the claim to its end, so no other delivery of
that event gets past its claim meanwhile. The status it checks may be an old one, but every
status that a delivery can set is allowed from every status that another can have set.

## Main definitions

- `Delivers`: what one statement of a delivery does.
- `Sound`: what a delivery has written when it has come so far.
- `BillingInv`: the tables while any number of deliveries run.

## Main results

- `BillingInv.delivers`: one statement keeps the invariant.
- `commit_delivers`: what the commit of a delivery does to the tables.
-/

namespace BookingPlatform

open Library

namespace SubscriptionStateMachine

/-- A subscription that is not canceled can move to every status an event asks for. -/
theorem canTransition_next {status : SubscriptionStatus} (h : status ≠ .canceled)
    (type : PaymentEventType) : canTransition status type.next = true := by
  cases status with
  | canceled => exact absurd rfl h
  | trialing | active | pastDue => cases type <;> rfl

theorem ne_canceled_of_canTransition_next {status : SubscriptionStatus} {type : PaymentEventType}
    (h : canTransition status type.next = true) : status ≠ .canceled := by
  rintro rfl
  cases type <;> cases h

end SubscriptionStateMachine

theorem PaymentEventType.next_ne_canceled (type : PaymentEventType) : type.next ≠ .canceled := by
  cases type <;> nofun

/-! ## Row versions -/

/-- The receipts, which are never written twice. -/
def receiptTable : Table WebhookReceipt WebhookReceipt Unit where
  key r := r
  val _ := ()
  base _ := none

@[simp] theorem receiptTable_key (r : WebhookReceipt) : receiptTable.key r = r := rfl

/-- A receipt is new. -/
def NewReceipt (previous : Option Unit) (_ : WebhookReceipt) : Prop := previous = none

/-- How a subscription may change: its status only, along the lifecycle, and never to or
from `canceled`. -/
def StatusChange : Option Subscription → Subscription → Prop
  | none, _ => True
  | some s, s' => s' = { s with status := s'.status } ∧ s.status ≠ .canceled ∧
    s'.status ≠ .canceled ∧
      SubscriptionStateMachine.canTransition s.status s'.status = true

/-- `s'` is `s` or a later version of it. -/
def LaterVersion (s s' : Subscription) : Prop :=
  s' = { s with status := s'.status } ∧ (s.status = .canceled ↔ s'.status = .canceled)

theorem LaterVersion.refl (s : Subscription) : LaterVersion s s := ⟨rfl, Iff.rfl⟩

theorem LaterVersion.trans {s s' s'' : Subscription} (h : LaterVersion s s')
    (h' : LaterVersion s' s'') :
    LaterVersion s s'' := by
  refine ⟨?_, h.2.trans h'.2⟩
  rw [h'.1, h.1]

theorem StatusChange.later {s s' : Subscription} (h : StatusChange (some s) s') :
    LaterVersion s s' :=
  ⟨h.1, iff_of_false h.2.1 h.2.2.1⟩

theorem LaterVersion.id_eq {s s' : Subscription} (h : LaterVersion s s') : s'.id = s.id := by
  rw [h.1]

/-- The event names this subscription, which is of the tenant that the reference encodes. -/
def AcceptedEvent.Names (uuid : UuidText) (d : AcceptedEvent) (s : Subscription) : Prop :=
  s.providerReference = d.event.subscriptionReference ∧ uuid.cast d.tenantId = some s.tenantId

theorem AcceptedEvent.Names.later {uuid : UuidText} {d : AcceptedEvent} {s s' : Subscription}
    (h : d.Names uuid s) (hlater : LaterVersion s s') : d.Names uuid s' := by
  rw [AcceptedEvent.Names, hlater.1]
  exact h

section Log

variable {T : Type} [DecidableEq T] {g : LogStore T Subscription}

/-- A row that is written again is a later version of itself. -/
theorem later_of_linked {l c : List Subscription}
    (h : subscriptionTable.Linked StatusChange (l ++ c)) {id : Uuid} {s : Subscription}
    (hrow : subscriptionTable.row c id = some s) :
    ∃ s', subscriptionTable.row (l ++ c) id = some s' ∧ LaterVersion s s' :=
  h.row_rel LaterVersion.refl (fun _ _ _ => LaterVersion.trans) (fun _ _ => StatusChange.later) hrow

/-- A new row leaves the others as they are. -/
theorem subscription_kept {log : List Subscription} {s s' : Subscription} {id : Uuid}
    (hnew : ∀ e ∈ log, e.id ≠ s.id) (hrow : subscriptionTable.row log id = some s') :
    subscriptionTable.row (s :: log) id = some s' := by
  have hne : s.id ≠ id := by
    rintro rfl
    rw [subscriptionTable.row_of_ne hnew] at hrow
    cases hrow
  rw [subscriptionTable.row_cons_ne hne]
  exact hrow

end Log

/-! ## Statements of a delivery -/

section Delivers

variable {T : Type} [DecidableEq T] (uuid : UuidText)

/-- One statement of transaction `t`: from phase `ph` the database becomes `g'` and the phase
`ph'`. -/
inductive Delivers (g : BillingDb T) (t : T) :
    DeliveryPhase → BillingDb T → DeliveryPhase → Prop where
  | fails {ph} (hrun : ph.Running) : Delivers g t ph g ph.fail
  | undoes {ph ph'} (hrun : ph.Running) (hph' : ph' = ph.undo ∨ ph' = ph.fail) :
      Delivers g t ph (g.rollback t) ph'
  | pins (d : AcceptedEvent) :
      Delivers g t (.opening d) { g with tenant := Function.update g.tenant t (some d.tenantId) }
        (.opened d)
  | claims (d : AcceptedEvent) (hfree : ∀ u, u ≠ t → d.receipt ∉ g.receipts.pending u)
      (hnew : d.receipt ∉ g.receipts.visible t) :
      Delivers g t (.opened d) { g with receipts := g.receipts.pushAll t [d.receipt] } (.claimed d)
  | repeats (d : AcceptedEvent) (hold : d.receipt ∈ g.receipts.visible t) :
      Delivers g t (.opened d) g (.repeated d)
  | drops (d : AcceptedEvent) : Delivers g t (.claimed d) g (.dropped d)
  | finds (d : AcceptedEvent) (s : Subscription) (hrow : g.visibleRow t s.id = some s)
      (hreference : s.providerReference = d.event.subscriptionReference) (hsees : g.Sees uuid t s)
      (hcan : SubscriptionStateMachine.canTransition s.status d.next = true) :
      Delivers g t (.claimed d) g (.found d s)
  | applies (d : AcceptedEvent) (s : Subscription)
      (hfree : ∀ u, u ≠ t → ∀ s' ∈ g.subscriptions.pending u, s'.id ≠ s.id) :
      Delivers g t (.found d s)
        { g with subscriptions := g.subscriptions.pushAll t (g.updated uuid t s.id d.next) }
          (.applied d s)
  | commits {ph} (d : AcceptedEvent) (hph : ph.Committing) (hd : ph.event = some d) :
      Delivers g t ph (g.commit t) (.done d)

variable {uuid} {g : BillingDb T} {t : T} {ph : DeliveryPhase}

/-- Everything a statement of a delivery can do. -/
theorem Delivers.of_statement {s : WebhookStatement} (hallow : delivering.allows ph s)
    {x : Except SqlState s.Result} (hx : g.possible uuid t s x) :
    Delivers uuid g t ph (g.effect uuid t s x) (delivering.next ph s x) := by
  obtain ⟨hrun, hallow⟩ := hallow
  cases s with
  | rollback =>
    have hundone : delivering.next ph .rollback x = ph.undo := by cases ph <;> rfl
    rw [hundone]
    -- a `ROLLBACK` undoes the work even if it fails, and so does a failed `COMMIT`
    cases x <;> exact .undoes hrun (.inl rfl)
  | commit =>
    cases x with
    | error code =>
      have hfailed : delivering.next ph .commit (.error code) = ph.fail := by cases ph <;> rfl
      rw [hfailed]
      exact .undoes hrun (.inr rfl)
    | ok v =>
      cases ph with
      | repeated d | dropped d => exact .commits d trivial rfl
      | applied d s => exact .commits d trivial rfl
      | _ => exact hallow.elim
  | setTenant tenantId =>
    cases ph with
    | opening d =>
      have htenant : tenantId = d.tenantId := hallow
      subst htenant
      cases x with
      | error code => exact .fails hrun
      | ok v => exact .pins d
    | _ => exact hallow.elim
  | claimReceipt provider eventId =>
    cases ph with
    | opened d =>
      obtain ⟨hprovider, hevent⟩ : provider = d.provider ∧ eventId = d.event.id := hallow
      subst hprovider hevent
      cases x with
      | error code => exact .fails hrun
      | ok claimed =>
        cases claimed with
        | true => exact .claims d hx.1 (hx.2.1 rfl)
        | false =>
          -- the claim has found the receipt, so that it was there
          have hold : d.receipt ∈ g.receipts.visible t := by
            by_contra hnew
            exact Bool.false_ne_true (hx.2.2 hnew)
          have hsame : g.effect uuid t (.claimReceipt d.provider d.event.id) (.ok false) = g := by
            simp [BillingDb.effect, BillingDb.apply]
          rw [hsame]
          exact .repeats d hold
    | _ => exact hallow.elim
  | findByReference reference =>
    cases ph with
    | claimed d =>
      have hreference : reference = d.event.subscriptionReference := hallow
      subst hreference
      cases x with
      | error code => exact .fails hrun
      | ok v =>
        cases v with
        | none => exact .drops d
        | some s =>
          obtain ⟨hrow, href, hsees⟩ := hx
          change Delivers uuid g t (.claimed d) g
            (if SubscriptionStateMachine.canTransition s.status d.next then
              .found d s else .dropped d)
          -- a transition that the machine does not allow drops the event
          split
          · rename_i hcan
            exact .finds d s hrow href hsees hcan
          · exact .drops d
    | _ => exact hallow.elim
  | updateStatus id status =>
    cases ph with
    | found d s =>
      obtain ⟨hid, hstatus⟩ : id = s.id ∧ status = d.next := hallow
      subst hid hstatus
      cases x with
      | error code => exact .fails hrun
      | ok v => exact .applies d s hx
    | _ => exact hallow.elim

end Delivers

/-! ## What a delivery has written -/

section Sound

variable {T : Type} (uuid : UuidText)

/-- The transaction has written nothing. -/
structure BillingDb.Untouched (g : BillingDb T) (t : T) : Prop where
  receipts : g.receipts.pending t = []
  updates : g.subscriptions.pending t = []

/-- The transaction of `d` has claimed the event, and written nothing else. -/
structure BillingDb.Claimed (g : BillingDb T) (t : T) (d : AcceptedEvent) : Prop where
  receipts : g.receipts.pending t = [d.receipt]
  updates : g.subscriptions.pending t = []

/-- The transaction of `d` has claimed the event, and set the status of a subscription that the
event names. -/
structure BillingDb.Applied (g : BillingDb T) (t : T) (d : AcceptedEvent) (s : Subscription) :
    Prop where
  receipts : g.receipts.pending t = [d.receipt]
  updates : g.subscriptions.pending t = [{ s with status := d.next }]
  row : g.subscription s.id = some s
  names : d.Names uuid s
  can : SubscriptionStateMachine.canTransition s.status d.next = true

/-- What transaction `t` has written, and read, when its delivery has come to this phase. -/
def Sound (g : BillingDb T) (t : T) : DeliveryPhase → Prop
  | .ended | .opening _ | .undone _ => g.Untouched t
  | .opened d => g.Untouched t ∧ g.tenant t = some d.tenantId
  | .repeated d | .done d => g.Untouched t ∧ d.receipt ∈ g.receipts.committed
  | .claimed d => g.Claimed t d ∧ g.tenant t = some d.tenantId
  | .dropped d => g.Claimed t d
  | .found d s => g.Claimed t d ∧ g.tenant t = some d.tenantId ∧ d.Names uuid s ∧
      SubscriptionStateMachine.canTransition s.status d.next = true ∧
      ∃ s', g.subscription s.id = some s' ∧ LaterVersion s s'
  | .applied d s => ∃ s', g.Applied uuid t d s' ∧ LaterVersion s s'
  | .failed _ => True

/-- What others leave alone of the tables as transaction `t` depends on them. -/
structure BillingDb.Keeps (g g' : BillingDb T) (t : T) : Prop where
  receipts : g'.receipts.pending t = g.receipts.pending t
  updates : g'.subscriptions.pending t = g.subscriptions.pending t
  tenant : g'.tenant t = g.tenant t
  committed : ∀ r ∈ g.receipts.committed, r ∈ g'.receipts.committed
  rows : ∀ id s, g.subscription id = some s → ∃ s', g'.subscription id = some s' ∧ LaterVersion s s'
  locked : ∀ s ∈ g.subscriptions.pending t, g'.subscription s.id = g.subscription s.id

variable {uuid} {g g' : BillingDb T} {t : T}

theorem BillingDb.Untouched.keeps (h : g.Untouched t) (hkeep : g.Keeps g' t) : g'.Untouched t :=
  ⟨hkeep.receipts.trans h.receipts, hkeep.updates.trans h.updates⟩

theorem BillingDb.Claimed.keeps {d : AcceptedEvent} (h : g.Claimed t d) (hkeep : g.Keeps g' t) :
    g'.Claimed t d :=
  ⟨hkeep.receipts.trans h.receipts, hkeep.updates.trans h.updates⟩

/-- What a delivery has read and written survives what others do. -/
theorem Sound.keeps {ph : DeliveryPhase} (h : Sound uuid g t ph) (hkeep : g.Keeps g' t) :
    Sound uuid g' t ph := by
  cases ph with
  | ended | opening _ | undone _ => exact BillingDb.Untouched.keeps h hkeep
  | opened d => exact ⟨h.1.keeps hkeep, hkeep.tenant.trans h.2⟩
  | repeated d | done d => exact ⟨h.1.keeps hkeep, hkeep.committed _ h.2⟩
  | claimed d => exact ⟨h.1.keeps hkeep, hkeep.tenant.trans h.2⟩
  | dropped d => exact BillingDb.Claimed.keeps h hkeep
  | found d s =>
    obtain ⟨hclaimed, htenant, hnames, hcan, s', hrow, hlater⟩ := h
    obtain ⟨s'', hrow', hlater'⟩ := hkeep.rows _ _ hrow
    exact ⟨hclaimed.keeps hkeep, hkeep.tenant.trans htenant, hnames, hcan, s'', hrow',
      hlater.trans hlater'⟩
  | applied d _ =>
    obtain ⟨s, happlied, hlater⟩ := h
    -- the row is locked, so it is the version that was checked
    have hlocked : g'.subscription s.id = g.subscription s.id :=
      hkeep.locked { s with status := d.next } (by rw [happlied.updates]; exact List.mem_cons_self)
    exact ⟨s, ⟨hkeep.receipts.trans happlied.receipts, hkeep.updates.trans happlied.updates,
      hlocked.trans happlied.row, happlied.names, happlied.can⟩, hlater⟩
  | failed d => trivial

end Sound

/-! ## The invariant -/

section Inv

variable {T : Type} [DecidableEq T]

/-- The tables while any number of deliveries run. -/
structure BillingInv (uuid : UuidText) (g : BillingDb T) (phase : T → DeliveryPhase) : Prop where
  receipts : g.receipts.Serial receiptTable NewReceipt
  subscriptions : g.subscriptions.Serial subscriptionTable StatusChange
  sound : ∀ t, Sound uuid g t (phase t)

variable {uuid : UuidText} {g g' : BillingDb T} {phase : T → DeliveryPhase} {t u : T}

namespace BillingDb

omit [DecidableEq T] in
/-- Changes of the settings and pending writes of `t` leave the others alone. -/
theorem keeps_of_frame (hreceipts : g'.receipts.pending u = g.receipts.pending u)
    (hupdates : g'.subscriptions.pending u = g.subscriptions.pending u)
    (htenant : g'.tenant u = g.tenant u) (hreceipts' : g'.receipts.committed = g.receipts.committed)
    (hrows : g'.subscriptions.committed = g.subscriptions.committed) : g.Keeps g' u where
  receipts := hreceipts
  updates := hupdates
  tenant := htenant
  committed r hr := hreceipts' ▸ hr
  rows id s hs := ⟨s, by rw [subscription, hrows]; exact hs, .refl s⟩
  locked s _ := by rw [subscription, hrows]; rfl

theorem rollback_keeps (hu : u ≠ t) : g.Keeps (g.rollback t) u :=
  keeps_of_frame (LogStore.rollback_pending_ne _ hu) (LogStore.rollback_pending_ne _ hu)
    (Function.update_of_ne hu _ _) rfl rfl

/-- A commit changes no row that another transaction has locked. -/
theorem commit_keeps (hsubs : g.subscriptions.Serial subscriptionTable StatusChange) (hu : u ≠ t) :
    g.Keeps (g.commit t) u where
  receipts := LogStore.commit_pending_ne _ hu
  updates := LogStore.commit_pending_ne _ hu
  tenant := Function.update_of_ne hu _ _
  committed r hr := List.mem_append_right _ hr
  rows id s hs := later_of_linked (hsubs.linked t) hs
  locked s hs := by
    refine subscriptionTable.row_append_of_ne (fun e he => ?_) _
    exact (hsubs.exclusive u t hu s hs e he).symm

end BillingDb

/-- The receipt of a claim is new to everybody. -/
theorem claim_serial (h : g.receipts.Serial receiptTable NewReceipt) {r : WebhookReceipt}
    (hfree : ∀ u, u ≠ t → r ∉ g.receipts.pending u) (hnew : r ∉ g.receipts.visible t) :
    (g.receipts.pushAll t [r]).Serial receiptTable NewReceipt := by
  refine h.pushAll (fun e he u hu f hf heq => ?_) (List.nodup_singleton _) fun e he => ?_
  · have hsame : f = r := heq.trans (List.mem_singleton.1 he)
    exact hfree u hu (hsame ▸ hf)
  · rw [List.mem_singleton.1 he]
    refine receiptTable.row_of_ne fun f hf heq => ?_
    have hsame : f = r := heq
    exact hnew (hsame ▸ hf)

omit [DecidableEq T] in
/-- The update of a delivery writes the current version of the row that it found. -/
theorem updated_eq {d : AcceptedEvent} {s s' : Subscription}
    (hupdates : g.subscriptions.pending t = []) (htenant : g.tenant t = some d.tenantId)
    (hnames : d.Names uuid s') (hrow : g.subscription s.id = some s') :
    g.updated uuid t s.id d.next = [{ s' with status := d.next }] := by
  have hvisible : g.visibleRow t s.id = some s' := by
    rw [BillingDb.visibleRow, LogStore.visible, hupdates]
    exact hrow
  have hsees : (g.tenant t).bind uuid.cast = some s'.tenantId := by
    rw [htenant]
    exact hnames.2
  rw [BillingDb.updated, hvisible]
  exact if_pos hsees

omit [DecidableEq T] in
theorem sound_fail {ph : DeliveryPhase} (hrun : ph.Running) : Sound uuid g t ph.fail := by
  cases ph with
  | ended => exact hrun.elim
  | _ => exact trivial

omit [DecidableEq T] in
theorem sound_undo {ph : DeliveryPhase} (h : g.Untouched t) : Sound uuid g t ph.undo := by
  cases ph <;> exact h

theorem rollback_untouched (g : BillingDb T) (t : T) : (g.rollback t).Untouched t :=
  ⟨LogStore.rollback_pending_self _ t, LogStore.rollback_pending_self _ t⟩

theorem commit_untouched (g : BillingDb T) (t : T) : (g.commit t).Untouched t :=
  ⟨LogStore.commit_pending_self _ t, LogStore.commit_pending_self _ t⟩

/-- The receipt of a delivery that is about to commit is committed by it, or was before. -/
theorem receipt_of_committing {ph : DeliveryPhase} {d : AcceptedEvent} (h : Sound uuid g t ph)
    (hph : ph.Committing) (hd : ph.event = some d) :
    d.receipt ∈ (g.commit t).receipts.committed := by
  cases ph with
  | repeated d' =>
    cases hd
    exact List.mem_append_right _ h.2
  | dropped d' =>
    cases hd
    have hclaimed : g.receipts.pending t = [d.receipt] := h.receipts
    simp [BillingDb.commit, hclaimed]
  | applied d' s' =>
    cases hd
    obtain ⟨s, happlied, -⟩ := h
    simp [BillingDb.commit, happlied.receipts]
  | _ => exact hph.elim

/-- A change by transaction `t` that leaves the others alone. -/
theorem BillingInv.moved (h : BillingInv uuid g phase) {ph' : DeliveryPhase}
    (hreceipts : g'.receipts.Serial receiptTable NewReceipt)
    (hsubscriptions : g'.subscriptions.Serial subscriptionTable StatusChange)
    (hkeeps : ∀ u, u ≠ t → g.Keeps g' u) (hself : Sound uuid g' t ph') :
    BillingInv uuid g' (Function.update phase t ph') := by
  refine ⟨hreceipts, hsubscriptions, fun u => ?_⟩
  by_cases hu : u = t
  · subst hu
    rw [Function.update_self]
    exact hself
  · rw [Function.update_of_ne hu]
    exact (h.sound u).keeps (hkeeps u hu)

theorem BillingInv.rolled_back (h : BillingInv uuid g phase) {ph' : DeliveryPhase}
    (hself : Sound uuid (g.rollback t) t ph') :
    BillingInv uuid (g.rollback t) (Function.update phase t ph') :=
  h.moved (h.receipts.rollback t) (h.subscriptions.rollback t)
    (fun _ hu => BillingDb.rollback_keeps hu) hself

/-- One statement of a delivery keeps the invariant. -/
theorem BillingInv.delivers (h : BillingInv uuid g phase) {ph' : DeliveryPhase}
    (hstep : Delivers uuid g t (phase t) g' ph') :
    BillingInv uuid g' (Function.update phase t ph') := by
  have hmine := h.sound t
  have hsame : ∀ u, u ≠ t → g.Keeps g u := fun u _ => BillingDb.keeps_of_frame rfl rfl rfl rfl rfl
  generalize hph : phase t = ph at hstep hmine
  cases hstep with
  | fails hrun => exact h.moved h.receipts h.subscriptions hsame (sound_fail hrun)
  | undoes hrun hph' =>
    refine h.rolled_back ?_
    rcases hph' with rfl | rfl
    · exact sound_undo (rollback_untouched g t)
    · exact sound_fail hrun
  | pins d =>
    refine h.moved h.receipts h.subscriptions (fun u hu => ?_) ⟨⟨hmine.receipts, hmine.updates⟩, ?_⟩
    · exact BillingDb.keeps_of_frame rfl rfl (Function.update_of_ne hu _ _) rfl rfl
    · exact Function.update_self t _ _
  | claims d hfree hnew =>
    obtain ⟨huntouched, htenant⟩ := hmine
    refine h.moved (claim_serial h.receipts hfree hnew) h.subscriptions (fun u hu => ?_)
      ⟨⟨?_, ?_⟩, htenant⟩
    · exact BillingDb.keeps_of_frame (LogStore.pushAll_pending_ne _ hu _) rfl rfl rfl rfl
    · simp [huntouched.receipts]
    · exact huntouched.updates
  | repeats d hold =>
    refine h.moved h.receipts h.subscriptions hsame ⟨hmine.1, ?_⟩
    rw [LogStore.visible, hmine.1.receipts] at hold
    exact hold
  | drops d => exact h.moved h.receipts h.subscriptions hsame hmine.1
  | finds d s hrow hreference hsees hcan =>
    obtain ⟨hclaimed, htenant⟩ := hmine
    have hnames : d.Names uuid s := by
      rw [BillingDb.Sees, htenant] at hsees
      exact ⟨hreference, hsees⟩
    have hcommitted : g.subscription s.id = some s := by
      rw [BillingDb.visibleRow, LogStore.visible, hclaimed.updates] at hrow
      exact hrow
    exact h.moved h.receipts h.subscriptions hsame
      ⟨hclaimed, htenant, hnames, hcan, s, hcommitted, .refl s⟩
  | applies d s hfree =>
    obtain ⟨hclaimed, htenant, hnames, hcan, s', hrow, hlater⟩ := hmine
    have hid : s'.id = s.id := hlater.id_eq
    have hnames' := hnames.later hlater
    -- others may have moved the status since it was checked, but not to `canceled`
    have hlive : s'.status ≠ .canceled := fun hcanceled =>
      SubscriptionStateMachine.ne_canceled_of_canTransition_next hcan (hlater.2.2 hcanceled)
    have hcan' : SubscriptionStateMachine.canTransition s'.status d.next = true :=
      SubscriptionStateMachine.canTransition_next hlive d.event.type
    rw [updated_eq hclaimed.updates htenant hnames' hrow]
    refine h.moved h.receipts (h.subscriptions.pushAll ?_ (List.nodup_singleton _) ?_)
      (fun u hu => ?_) ?_
    · intro e he u hu f hf
      rw [List.mem_singleton.1 he]
      have hother : f.id ≠ s.id := hfree u hu f hf
      exact hid ▸ hother
    · intro e he
      rw [List.mem_singleton.1 he]
      have hvisible : subscriptionTable.row (g.subscriptions.visible t) s'.id = some s' := by
        rw [LogStore.visible, hclaimed.updates, hid]
        exact hrow
      change StatusChange (subscriptionTable.row (g.subscriptions.visible t) s'.id) _
      rw [hvisible]
      exact ⟨rfl, hlive, d.event.type.next_ne_canceled, hcan'⟩
    · exact BillingDb.keeps_of_frame rfl (LogStore.pushAll_pending_ne _ hu _) rfl rfl rfl
    · refine ⟨s', ⟨hclaimed.receipts, ?_, ?_, hnames', hcan'⟩, hlater⟩
      · simp [hclaimed.updates]
      · exact hid ▸ hrow
  | commits d hcommitting hd =>
    have hreceipt := receipt_of_committing hmine hcommitting hd
    exact h.moved (h.receipts.commit t) (h.subscriptions.commit t)
      (fun u hu => BillingDb.commit_keeps h.subscriptions hu) ⟨commit_untouched g t, hreceipt⟩

/-! ## The commit of a delivery -/

omit [DecidableEq T] in
/-- A receipt is committed once. -/
theorem BillingInv.receipts_nodup (h : BillingInv uuid g phase) : g.receipts.committed.Nodup := by
  have hnd := h.receipts.committed.nodup fun _ _ hnew => hnew
  rwa [show receiptTable.key = id from rfl, List.map_id] at hnd

/-- What the delivery of `d` may do to the committed rows: nothing if its receipt was there, and
else add the receipt and set the status of at most one subscription, that the event names. -/
def Consumes (uuid : UuidText) (d : AcceptedEvent) (g g' : BillingDb T) : Prop :=
  (d.receipt ∈ g.receipts.committed ∧ g'.receipts.committed = g.receipts.committed ∧
    g'.subscription = g.subscription) ∨
  (d.receipt ∉ g.receipts.committed ∧ g'.receipts.committed = d.receipt :: g.receipts.committed ∧
    (g'.subscription = g.subscription ∨
      ∃ s, g.subscription s.id = some s ∧ d.Names uuid s ∧ s.status ≠ .canceled ∧
        SubscriptionStateMachine.canTransition s.status d.next = true ∧
        g'.subscription = Function.update g.subscription s.id (some { s with status := d.next })))

theorem commit_subscription_of_empty (h : g.subscriptions.pending t = []) :
    (g.commit t).subscription = g.subscription := by
  funext id
  rw [BillingDb.subscription, BillingDb.commit, LogStore.commit_of_empty h]
  rfl

theorem commit_subscription_of_single {s : Subscription} (h : g.subscriptions.pending t = [s]) :
    (g.commit t).subscription = Function.update g.subscription s.id (some s) := by
  funext id
  have hcommitted : (g.commit t).subscriptions.committed = s :: g.subscriptions.committed := by
    simp [BillingDb.commit, h]
  rw [BillingDb.subscription, hcommitted, Table.row_cons, Function.update_apply]
  by_cases hid : s.id = id
  · simp [hid]
  · simp only [subscriptionTable_key, hid, Ne.symm hid, if_false]
    rfl

omit [DecidableEq T] in
/-- A claimed receipt is not committed yet. -/
theorem BillingInv.claimed_new (h : BillingInv uuid g phase) {r : WebhookReceipt}
    (hclaimed : g.receipts.pending t = [r]) : r ∉ g.receipts.committed := by
  intro hmem
  have hlinked := h.receipts.linked t
  rw [LogStore.visible, hclaimed] at hlinked
  have hnone : receiptTable.row g.receipts.committed r = none := hlinked.1
  have hsome := receiptTable.row_isSome_of_mem hmem
  rw [receiptTable_key, hnone] at hsome
  cases hsome

/-- The commit of a delivery. -/
theorem BillingInv.commit_consumes (h : BillingInv uuid g phase) {d : AcceptedEvent}
    (hph : (phase t).Committing) (hd : (phase t).event = some d) :
    Consumes uuid d g (g.commit t) := by
  have hmine := h.sound t
  generalize phase t = ph at hph hd hmine
  cases ph with
  -- the event was consumed before: nothing is written
  | repeated d' =>
    cases hd
    obtain ⟨huntouched, hmem⟩ := hmine
    refine .inl ⟨hmem, ?_, commit_subscription_of_empty huntouched.updates⟩
    rw [BillingDb.commit, LogStore.commit_of_empty huntouched.receipts]
  -- the receipt only
  | dropped d' =>
    cases hd
    have hclaimed : g.Claimed t d := hmine
    refine .inr ⟨h.claimed_new hclaimed.receipts, ?_,
      .inl (commit_subscription_of_empty hclaimed.updates)⟩
    simp [BillingDb.commit, hclaimed.receipts]
  -- the receipt and the status of the subscription
  | applied d' s' =>
    cases hd
    obtain ⟨s, happlied, -⟩ := hmine
    refine .inr ⟨h.claimed_new happlied.receipts, ?_,
      .inr ⟨s, happlied.row, happlied.names, ?_, happlied.can, ?_⟩⟩
    · simp [BillingDb.commit, happlied.receipts]
    · exact SubscriptionStateMachine.ne_canceled_of_canTransition_next happlied.can
    · exact commit_subscription_of_single happlied.updates
  | _ => exact hph.elim

end Inv

end BookingPlatform
