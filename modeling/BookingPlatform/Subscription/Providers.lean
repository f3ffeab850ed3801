import BookingPlatform.Subscription.Safety

/-!
# Events of Another Provider

A delivery is verified with the secret of the provider that the path names, but nothing
compares that provider with the one the subscription was created for. An event applies to
whatever subscription its reference names.

## Main definitions

- `ProviderIsolation`: a subscription changes only by an event of its own provider.
- `OwnProvider`: a lookup finds no subscription of another provider that could move.

## Main results

- `subscriptions_keepToProvider`: isolation holds in every run whose lookups do.
- `stripeEvent_changesSepaySubscription`: a run in which it does not.
-/

namespace BookingPlatform

open Library

section Providers

variable {T : Type} [DecidableEq T] (uuid : UuidText) (registry : PaymentProviderRegistry)

/-- Whatever step comes next, a subscription changes only by the commit of a request that was
verified by the provider of the subscription. -/
def ProviderIsolation (w : WebhookWorld T) : Prop :=
  ∀ l w', World.Step (webhookServer uuid registry) w l w' →
    ∀ id s s', w.shared.subscription id = some s → w'.shared.subscription id = some s' → s' ≠ s →
      ∃ t σ d, l = .call t ⟨.commit, .ok ()⟩ ∧ w.session t = some σ ∧
        accepted uuid registry σ.request = some d ∧ d.provider = s.provider

/-- A lookup that hands a delivery a subscription it may move hands it one of the provider that
verified the request. -/
def OwnProvider (w : WebhookWorld T) (l : Label WebhookSql T WebhookRequest) : Prop :=
  ∀ t reference s, l = .call t ⟨.findByReference reference, .ok (some s)⟩ →
    ∀ σ d, w.session t = some σ → accepted uuid registry σ.request = some d →
      SubscriptionStateMachine.canTransition s.status d.next = true → s.provider = d.provider

/-- The subscription that a delivery is about to move is of its provider. -/
def DeliveryPhase.Own : DeliveryPhase → Prop
  | found d s | applied d s => s.provider = d.provider
  | _ => True

variable {uuid registry} {w w' : WebhookWorld T}

/-- Only the lookup hands a delivery a subscription. -/
theorem DeliveryPhase.Own.delivers {g g' : BillingDb T} {t : T} {ph ph' : DeliveryPhase}
    (h : ph.Own) (hstep : Delivers uuid g t ph g' ph')
    (hfind : ∀ d s, ph = .claimed d → ph' = .found d s → s.provider = d.provider) : ph'.Own := by
  cases hstep with
  | fails hrun => cases ph <;> trivial
  | undoes hrun hph' => rcases hph' with rfl | rfl <;> cases ph <;> trivial
  | finds d s => exact hfind d s rfl rfl
  | applies d s => exact h
  | _ => trivial

/-- The statement that finds a subscription is the lookup. -/
theorem lookup_of_found {st : WebhookStatement} {x : Except SqlState st.Result} {d : AcceptedEvent}
    {s : Subscription} (h : delivering.next (.claimed d) st x = .found d s) :
    SubscriptionStateMachine.canTransition s.status d.next = true ∧
      ∃ reference, (⟨st, x⟩ : Exchange WebhookSql) =
        ⟨.findByReference reference, .ok (some s)⟩ := by
  cases st with
  | findByReference reference =>
    rcases x with code | _ | s'
    · cases h
    · cases h
    · simp only [delivering] at h
      split at h
      · rename_i hcan
        cases h
        exact ⟨hcan, reference, rfl⟩
      · cases h
  | _ => cases x <;> cases h

/-- Every delivery that is about to move a subscription is of its provider. -/
structure IsolationInv (uuid : UuidText) (registry : PaymentProviderRegistry) (w : WebhookWorld T) :
    Prop where
  webhooks : WebhooksInv uuid registry w
  own : ∀ t, (deliveryOf uuid registry w t).Own

theorem IsolationInv.step (h : IsolationInv uuid registry w) {l : Label WebhookSql T WebhookRequest}
    (hown : OwnProvider uuid registry w l) (hs : World.Step (webhookServer uuid registry) w l w') :
    IsolationInv uuid registry w' := by
  -- only the delivery that moves is to be looked at
  have hothers : ∀ {t : T} {ph : DeliveryPhase}, ph.Own →
      ∀ u, (Function.update (deliveryOf uuid registry w) t ph u).Own := by
    intro t ph hph u
    by_cases hu : u = t
    · subst hu
      rw [Function.update_self]
      exact hph
    · rw [Function.update_of_ne hu]
      exact h.own u
  refine ⟨h.webhooks.step hs, ?_⟩
  cases hs with
  | @start t q hidle =>
    rw [deliveryOf_start h.webhooks.conforms hidle]
    refine hothers ?_
    unfold DeliveryPhase.start
    cases accepted uuid registry q <;> trivial
  | @call t q tr st k x hat hx =>
    rw [deliveryOf_answered hat hx]
    refine hothers ((h.own t).delivers
      (.of_statement (h.webhooks.conforms.allows hat) hx) fun d s hclaimed hfound => ?_)
    have hevent : (deliveryOf uuid registry w t).event = accepted uuid registry q :=
      deliveryOf_event hat
    change delivering.next (deliveryOf uuid registry w t) st x = _ at hfound
    rw [hclaimed] at hevent hfound
    -- it has found a subscription, which is its own provider's
    obtain ⟨hcan, reference, hlookup⟩ := lookup_of_found hfound
    exact hown t reference s (by rw [hlookup]) _ d hat hevent.symm hcan
  | @crash t σ hat hrun =>
    rw [deliveryOf_crashed]
    exact hothers trivial
  | @env g hg => exact h.own

/-- A commit moves a subscription of the provider that verified the request. -/
theorem IsolationInv.isolation (h : IsolationInv uuid registry w) :
    ProviderIsolation uuid registry w := by
  intro l w' hs id s s' hrow hrow' hne
  -- only a commit moves a subscription
  by_cases hl : ∃ t, l = .call t ⟨.commit, .ok ()⟩
  · obtain ⟨t, rfl⟩ := hl
    obtain ⟨σ, d, hat, hd, hcommitting, hevent, hshared⟩ := h.webhooks.committing hs
    refine ⟨t, σ, d, rfl, hat, hd, ?_⟩
    have hmine := h.webhooks.tables.sound t
    have hown := h.own t
    rw [hshared] at hrow'
    generalize deliveryOf uuid registry w t = ph at hcommitting hevent hmine hown
    cases ph with
    | repeated d' =>
      rw [commit_subscription_of_empty hmine.1.updates, hrow] at hrow'
      exact absurd (Option.some.inj hrow').symm hne
    | dropped d' =>
      rw [commit_subscription_of_empty hmine.updates, hrow] at hrow'
      exact absurd (Option.some.inj hrow').symm hne
    | applied d' found =>
      cases hevent
      obtain ⟨moved, happlied, hlater⟩ := hmine
      rw [commit_subscription_of_single happlied.updates] at hrow'
      -- of those that are committed, the one that was found
      by_cases hid : id = moved.id
      · subst hid
        have hsame : s = moved := Option.some.inj (hrow.symm.trans happlied.row)
        have hprovider : moved.provider = found.provider := by rw [hlater.1]
        rw [hsame, hprovider]
        exact hown.symm
      · rw [Function.update_of_ne hid, hrow] at hrow'
        exact absurd (Option.some.inj hrow').symm hne
    | _ => exact hcommitting.elim
  · obtain ⟨-, hrows | ⟨-, hrows⟩⟩ := quiet_step hs fun t ht => hl ⟨t, ht⟩
    · rw [hrows, hrow] at hrow'
      exact absurd (Option.some.inj hrow').symm hne
    · rw [hrows id s hrow] at hrow'
      exact absurd (Option.some.inj hrow').symm hne

variable (uuid registry)

/-- Subscriptions keep to their provider in every run whose lookups do. -/
theorem subscriptions_keepToProvider {g : BillingDb T} (hg : g.Initial) {w : WebhookWorld T}
    (hrun : Runs (World.Step (webhookServer uuid registry)) (OwnProvider uuid registry)
      (World.fresh g) w) :
    ProviderIsolation uuid registry w := by
  have h : IsolationInv uuid registry w :=
    hrun.invariant (fun _ _ _ hw hown hs => hw.step hown hs) ⟨.initial hg, fun _ => trivial⟩
  exact h.isolation

end Providers

/-- A payment of the provider of the subscription. -/
def ownEvent : List (Move (Fin 1) WebhookRequest WebhookChoice) :=
  .start 0 (sampleRequest .sepay) :: List.replicate 5 (.go 0 .good)

/-- Whether a move meets the condition on lookups, for the sample subscription. -/
def ownProvider (w : WebhookWorld (Fin 1)) : Label WebhookSql (Fin 1) WebhookRequest → Bool
  | .call t ⟨.findByReference _, .ok (some s)⟩ =>
    ((w.session t).bind fun σ => accepted sampleUuid sampleRegistry σ.request).all fun d =>
      s.provider = d.provider
  | _ => true

theorem ownProvider_sound (w : WebhookWorld (Fin 1)) (l : Label WebhookSql (Fin 1) WebhookRequest)
    (h : ownProvider w l = true) : OwnProvider sampleUuid sampleRegistry w l := by
  rintro t reference s rfl σ d hat hd -
  simpa [ownProvider, hat, hd] using h

theorem subscriptions_keepToProvider_ownEvent :
    ∃ w : WebhookWorld (Fin 1), (w.shared.subscription 3).map (·.status) = some .active ∧
      ProviderIsolation sampleUuid sampleRegistry w := by
  obtain ⟨w, hrun, hw⟩ := (webhookResponder sampleUuid sampleRegistry).exists_run ownProvider_sound
    (World.fresh (sampleBilling (Fin 1))) ownEvent
    (fun w => (w.shared.subscription 3).map (·.status) = some .active) (by decide +kernel)
  exact ⟨w, of_decide_eq_true hw, subscriptions_keepToProvider sampleUuid sampleRegistry
    (sampleBilling_initial (Fin 1)) hrun⟩

/-- A payment that Stripe reports for the reference of a SePay subscription, up to the commit. -/
def foreignEvent : List (Move (Fin 1) WebhookRequest WebhookChoice) :=
  .start 0 (sampleRequest .stripe) :: List.replicate 4 (.go 0 .good)

/-- An event that was verified with the secret of Stripe changes a subscription of SePay. -/
theorem stripeEvent_changesSepaySubscription :
    ∃ w : WebhookWorld (Fin 1),
      Runs (World.Step (webhookServer sampleUuid sampleRegistry)) anyStep
        (World.fresh (sampleBilling (Fin 1))) w ∧
      ¬ProviderIsolation sampleUuid sampleRegistry w := by
  -- the run up to the commit, and the commit as its next step
  let commit := (webhookResponder (n := 1) sampleUuid sampleRegistry).move (fun _ _ => true)
  obtain ⟨w, hrun, hw⟩ := (webhookResponder sampleUuid sampleRegistry).exists_anyRun
    (World.fresh (sampleBilling (Fin 1))) foreignEvent
    (fun w => (w.session 0).map (·.request) = some (sampleRequest .stripe) ∧
      w.shared.subscription 3 = some sampleSubscription ∧
      (commit w (.go 0 .good)).bind (·.shared.subscription 3) =
        some { sampleSubscription with status := .active }) (by decide +kernel)
  obtain ⟨hrequest, hrow, hmoved⟩ := of_decide_eq_true hw
  obtain ⟨w', hcommit, hrow'⟩ := Option.bind_eq_some_iff.1 hmoved
  obtain ⟨l, -, hs⟩ := Responder.move_step hcommit
  refine ⟨w, hrun, fun hisolation => ?_⟩
  obtain ⟨t, σ, d, -, hat, hd, hprovider⟩ := hisolation l w' hs 3 _ _ hrow hrow' (by decide)
  have hσ : σ.request = sampleRequest .stripe := by
    rw [Subsingleton.elim t 0] at hat
    simpa [hat] using hrequest
  have hstripe : (accepted sampleUuid sampleRegistry (sampleRequest .stripe)).map (·.provider) =
      some .stripe := by decide +kernel
  rw [← hσ, hd] at hstripe
  have hsame : d.provider = .stripe := Option.some.inj hstripe
  rw [hsame] at hprovider
  cases hprovider

end BookingPlatform
