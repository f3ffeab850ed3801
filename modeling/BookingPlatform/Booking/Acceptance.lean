import BookingPlatform.Booking.Sessions

/-!
# When a Booking Is Accepted

`POST /bookings` in its request transaction, while no other transaction runs. The request is
answered if it passes the lookups, its interval is valid and free, or if a response is stored under
its key.

## Main definitions

- `Bookable`: the checks of `doCreate`, and the constraint.
- `Answerable`: the same behind an Idempotency-Key.

## Main results

- `runBooking_ok_iff`: a request succeeds exactly if it is answerable.
- `runBooking_error`: one that fails leaves the rows as they were.
-/

namespace BookingPlatform

open Library BaseTenantRepository

section Acceptance

variable (rt : Runtime) (tenantId : Uuid) (db : Store platformSchema) (dto : CreateBookingDto)

/-- The request passes the lookups. -/
structure Passes (service : ServiceRow) : Prop where
  serviceFound : (rowsOf db .services tenantId fun r => r.id = dto.serviceId).head? = some service
  linked : (rowsOf db .staffServices tenantId fun r =>
    r.staffId = dto.staffId ∧ r.serviceId = dto.serviceId) ≠ []
  customerFound : (rowsOf db .customers tenantId fun r => r.id = dto.customerId) ≠ []

/-- What the request inserts. -/
def bookingData (service : Service) : BookingData :=
  { tenantId, staffId := dto.staffId, serviceId := dto.serviceId, customerId := dto.customerId,
    startsAt := rt.parseDate dto.startsAt,
    endsAt := addMs (rt.parseDate dto.startsAt) (service.durationMin * minuteMs),
    status := .pending, priceAmount := service.priceAmount,
    priceCurrency := service.priceCurrency, recurrenceId := none }

/-- The request passes the lookups, its dates are valid, and no booking occupies its interval. -/
def Bookable : Prop :=
  ∃ service slot, Passes tenantId db dto service ∧
    (bookingData rt tenantId dto service.toService).Stores slot ∧
    ∀ b ∈ db .bookings, ¬Occupies tenantId dto.staffId slot b

/-- The row of an Idempotency-Key. -/
def storedKey (key : String) : Option IdempotencyKey :=
  ((db .idempotencyKeys).filter fun r => r.key = key ∧ r.tenantId = tenantId).head?

/-- A response to the same request is stored under its key; without such a row, the request is
bookable. -/
def Answerable (key : Option String) : Prop :=
  match key.filter (· ≠ "") with
  | none => Bookable rt tenantId db dto
  | some key =>
    match storedKey tenantId db key with
    | none => Bookable rt tenantId db dto
    | some existing => existing.requestHash = rt.hashBody dto ∧ existing.responseBody ≠ none

end Acceptance

section Request

variable {rt : Runtime} {tenantId : Uuid} {db : Store platformSchema}
  {env : Environment platformSchema} {dto : CreateBookingDto} {tx : Tx platformSchema}

theorem Passes.unique {service service' : ServiceRow} (h : Passes tenantId db dto service)
    (h' : Passes tenantId db dto service') : service = service' :=
  Option.some.inj (h.serviceFound.symm.trans h'.serviceFound)

/-- The rows of the keys do not matter. -/
theorem Bookable.congr {db' : Store platformSchema} (h : ∀ τ, τ ≠ .idempotencyKeys → db' τ = db τ) :
    Bookable rt tenantId db' dto ↔ Bookable rt tenantId db dto := by
  -- none of the lookups reads the keys
  have hrows : ∀ τ, τ ≠ .idempotencyKeys →
      ∀ p, rowsOf db' τ tenantId p = rowsOf db τ tenantId p := by
    intro τ hτ p
    unfold rowsOf
    rw [h τ hτ]
  have hpasses : ∀ service, Passes tenantId db' dto service ↔ Passes tenantId db dto service := by
    intro service
    constructor
    · rintro ⟨hservice, hlinked, hcustomer⟩
      exact ⟨hrows .services (by decide) _ ▸ hservice, hrows .staffServices (by decide) _ ▸ hlinked,
        hrows .customers (by decide) _ ▸ hcustomer⟩
    · rintro ⟨hservice, hlinked, hcustomer⟩
      exact ⟨(hrows .services (by decide) _).symm ▸ hservice,
        (hrows .staffServices (by decide) _).symm ▸ hlinked,
        (hrows .customers (by decide) _).symm ▸ hcustomer⟩
  unfold Bookable
  simp only [hpasses, h .bookings (by decide)]

/-- `doCreate` inserts the booking and its event, and nothing else, or it throws. -/
theorem follows_doCreate (hrunning : tx.aborted = false) (hfails : ¬env.fails exclusionViolation)
    {post : Tx platformSchema → Except Thrown Booking → Prop}
    (hok : ∀ tx' b, tx'.aborted = false → Bookable rt tenantId (tx.view db) dto →
      (∀ τ, τ ≠ .bookings → τ ≠ .outboxEvents → tx'.view db τ = tx.view db τ) → post tx' (.ok b))
    (herror : ∀ tx' e, (env.Calm → ¬Bookable rt tenantId (tx.view db) dto) → post tx' (.error e)) :
    ((BookingService.doCreate rt tenantId dto).translate bookingCommands).Follows
      (session db env) post
      tx := by
  have hfail : ∀ tx' code, env.fails code → post tx' (.error (.query code)) := fun tx' code hcode =>
    herror tx' _ fun hcalm => absurd hcode (hcalm.1 code)
  -- a lookup that fails is one that a bookable request passes
  have hrefuse : ∀ tx' e, (∀ service, ¬Passes tenantId (tx.view db) dto service) →
      post tx' (.error e) :=
    fun tx' e hnot => herror tx' e fun _ hbookable => by
      obtain ⟨service, slot, hpasses, -⟩ := hbookable
      exact hnot service hpasses
  unfold BookingService.doCreate
  refine follows_translate_bind.2 (session_getService hrunning ?_ ?_ hfail)
  · intro service hservice
    refine follows_translate_bind.2 (session_canPerform hrunning ?_ ?_ hfail)
    · intro hlinked
      refine follows_translate_bind.2 (session_getCustomer hrunning ?_ ?_ hfail)
      · intro customer hcustomer
        have hpasses : Passes tenantId (tx.view db) dto service := ⟨hservice, hlinked, hcustomer⟩
        have hactive : BookingStatus.pending ∈ activeBookingStatuses := by decide
        refine follows_translate_bind.2 (follows_insertBooking
          (bookingData rt tenantId dto service.toService) hrunning hactive hfails ?_ ?_ ?_)
        · intro slot row hstores hrow _ hfree
          have hrunning' : (tx.write (.put .bookings row)).aborted = false := hrunning
          refine follows_translate_bind.2 (session_emit hrunning' ?_ ?_)
          · intro event _ _
            refine hok _ _ hrunning ⟨service, slot, hpasses, hstores,
              hfree⟩ fun τ hbookings hevents => ?_
            rw [Tx.view_write, Store.apply_put_of_ne _ _ hevents, Tx.view_write,
              Store.apply_put_of_ne _ _ hbookings]
          · intro code hcalm
            exact herror _ _ fun hc => absurd hc hcalm
        · intro slot hstores htaken
          refine herror _ _ fun _ hbookable => ?_
          obtain ⟨service', slot', hpasses', hstores', hfree⟩ := hbookable
          obtain rfl := hpasses.unique hpasses'
          obtain rfl := hstores.unique hstores'
          obtain ⟨b, hb, hoccupies⟩ := htaken
          exact hfree b hb hoccupies
        · intro e _ hcalm
          refine herror _ e fun hc hbookable => ?_
          obtain ⟨service', slot, hpasses', hstores, -⟩ := hbookable
          obtain rfl := hpasses.unique hpasses'
          exact hcalm hc slot hstores
      · intro e hmissing
        exact hrefuse _ _ fun _ hpasses => hpasses.customerFound hmissing
    · intro hunlinked
      exact hrefuse _ _ fun _ hpasses => hpasses.linked hunlinked
  · intro e hmissing
    exact hrefuse _ _ fun _ hpasses => nomatch hmissing.symm.trans hpasses.serviceFound

/-- A new key has no row yet, and the rows with another id do not have it either. -/
theorem storedKey_none_of_refusal {key : String} {row : IdempotencyKey}
    (hkey : row.key = key) (htenant : row.tenantId = tenantId)
    (h : refusal (D := platformSchema) (τ := .idempotencyKeys) (db .idempotencyKeys) row = none) :
    storedKey tenantId db key = none := by
  unfold storedKey
  rw [List.head?_eq_none_iff, List.filter_eq_nil_iff]
  intro r hr hsame
  have hnone := List.findSome?_eq_none_iff.1 h r hr
  have hid : r.id ≠ row.id := fresh_of_refusal h r hr
  have hsame : r.key = key ∧ r.tenantId = tenantId := by simpa using hsame
  simp [rowId, hid, constraint, unique, hsame.1, hsame.2, hkey, htenant] at hnone

/-- If the row of a key is refused for another reason than its id, the key has a row. -/
theorem storedKey_of_refusal {key : String} {row : IdempotencyKey} {code : SqlState}
    (hkey : row.key = key) (htenant : row.tenantId = tenantId)
    (hid : ∀ r ∈ db .idempotencyKeys, r.id ≠ row.id)
    (h : refusal (D := platformSchema) (τ :=
      .idempotencyKeys) (db .idempotencyKeys) row = some code) :
    storedKey tenantId db key ≠ none := by
  obtain ⟨r, hr, hconflict⟩ := List.exists_of_findSome?_eq_some h
  have hne : rowId .idempotencyKeys r ≠ rowId .idempotencyKeys row := hid r hr
  simp only [hne, if_false, constraint] at hconflict
  -- what is left is the unique index on the tenant and the key
  have hsame : r.tenantId = row.tenantId ∧ r.key = row.key := by
    unfold unique at hconflict
    split at hconflict
    · rename_i hsame
      simpa using hsame
    · cases hconflict
  have hmem : r ∈ (db .idempotencyKeys).filter fun r => r.key = key ∧ r.tenantId = tenantId := by
    simp [hr, hsame.1, hsame.2, hkey, htenant]
  unfold storedKey
  intro hnone
  rw [List.head?_eq_none_iff] at hnone
  rw [hnone] at hmem
  exact absurd hmem List.not_mem_nil

/-- A replay answers with the stored response, if the request is the same and there is one. -/
theorem follows_replay {key requestHash : String} (hrunning : tx.aborted = false)
    {post : Tx platformSchema → Except Thrown CreateResult → Prop}
    (hok : ∀ result existing, storedKey tenantId (tx.view db) key = some existing →
      existing.requestHash = requestHash → existing.responseBody ≠ none → post tx (.ok result))
    (herror : ∀ e, (∀ existing, storedKey tenantId (tx.view db) key = some existing →
      existing.requestHash = requestHash → existing.responseBody = none) → post tx (.error e))
    (hfail : ∀ tx' code, env.fails code → post tx' (.error (.query code))) :
    ((IdempotencyService.replay tenantId key requestHash).translate bookingCommands).Follows
      (session db env) post tx := by
  unfold IdempotencyService.replay
  refine follows_translate_bind.2 (session_exec.2 (issues_select hrunning ?_ (hfail _)))
  have hrow : ((tx.view db .idempotencyKeys).filter
      fun r => r.key = key ∧ r.tenantId = tenantId).head? = storedKey tenantId (tx.view db) key :=
        rfl
  dsimp only [bookingAnswer, Except.map]
  rw [hrow]
  cases hstored : storedKey tenantId (tx.view db) key with
  | none => exact herror _ fun existing h => nomatch hstored.symm.trans h
  | some existing =>
    have hunique : ∀ existing', storedKey tenantId (tx.view db) key = some existing' →
        existing' = existing := fun existing' h => Option.some.inj (h.symm.trans hstored)
    dsimp only
    -- the key is being used for something else
    by_cases hhash : existing.requestHash ≠ requestHash
    · rw [if_pos hhash]
      exact herror _ fun existing' h hsame => absurd (hunique existing' h ▸ hsame) hhash
    · rw [if_neg hhash]
      -- the first request with the key has no answer yet
      cases hbody : existing.responseBody with
      | none => exact herror _ fun existing' h _ => hunique existing' h ▸ hbody
      | some body => exact hok _ existing hstored (not_not.1 hhash) (by rw [hbody]; simp)

/-- The row of a claimed key gets the response, unless the statement fails by itself. -/
theorem follows_updateKey {row : IdempotencyKey} {rows : List IdempotencyKey} {body : Json}
    (hrunning : tx.aborted = false) (hrows : tx.view db .idempotencyKeys = rows ++ [row])
    (hadmitted : refusal (D := platformSchema) (τ := .idempotencyKeys) rows row = none)
    {post : Tx platformSchema → Except Thrown (List IdempotencyKey) → Prop}
    (hok : ∀ tx' updated, tx'.aborted = false → post tx' (.ok updated))
    (hfail : ∀ tx' code, env.fails code → post tx' (.error (.query code))) :
    ((TenantM.exec (.updateKey row.id body)).translate bookingCommands).Follows
      (session db env) post
      tx := by
  have hfresh : ∀ r ∈ rows, r.id ≠ row.id := fresh_of_refusal hadmitted
  have hmatching : (tx.view db .idempotencyKeys).filter (fun r => r.id = row.id) = [row] := by
    have hnone : rows.filter (fun r => r.id = row.id) = [] :=
      List.filter_eq_nil_iff.2 fun r hr => by simpa using hfresh r hr
    rw [hrows, List.filter_append, hnone]
    simp
  have hothers : (tx.view db .idempotencyKeys).filter (fun r => r.id ≠ row.id) = rows := by
    have hall : rows.filter (fun r => r.id ≠ row.id) = rows :=
      List.filter_eq_self.2 fun r hr => by simpa using hfresh r hr
    rw [hrows, List.filter_append, hall]
    simp
  -- no row refuses the new one, since none refuses the claimed one
  have hadmitted' : refusal (D := platformSchema) (τ := .idempotencyKeys) rows
      { row with responseBody := some body } = none := hadmitted
  have hset : setRows (D := platformSchema) (τ := .idempotencyKeys)
      (fun r => .ok { r with responseBody := some body }) [row] (tx.view db .idempotencyKeys) =
        .ok [{ row with responseBody := some body }] := by
    unfold setRows
    dsimp only
    have hrefusal : refusal (D := platformSchema) (τ := .idempotencyKeys)
        ((tx.view db .idempotencyKeys).filter fun r => r.id ≠ row.id)
        { row with responseBody := some body } = none := by
      rw [hothers]
      exact hadmitted'
    split
    · rename_i code hrefused
      cases hrefusal.symm.trans hrefused
    · rfl
  refine session_exec.2 (issues_update hrunning ?_ ?_ ?_ (hfail _))
  · intro time r r' hr'
    cases hr'
    rfl
  · intro time updated _
    exact hok _ updated hrunning
  · intro time code herror
    rw [hmatching, hset] at herror
    cases herror

theorem answerable_of_absent {key : Option String} (hkey : key.filter (· ≠ "") = none) :
    Answerable rt tenantId db dto key ↔ Bookable rt tenantId db dto := by
  unfold Answerable
  rw [hkey]

theorem answerable_of_new {key : Option String} {key' : String}
    (hkey : key.filter (· ≠ "") = some key') (hstored : storedKey tenantId db key' = none) :
    Answerable rt tenantId db dto key ↔ Bookable rt tenantId db dto := by
  unfold Answerable
  rw [hkey]
  dsimp only
  rw [hstored]

theorem answerable_of_stored {key : Option String} {key' : String} {existing : IdempotencyKey}
    (hkey : key.filter (· ≠ "") = some key')
    (hstored : storedKey tenantId db key' = some existing) :
    Answerable rt tenantId db dto key ↔
      existing.requestHash = rt.hashBody dto ∧ existing.responseBody ≠ none := by
  unfold Answerable
  rw [hkey]
  dsimp only
  rw [hstored]

/-- `BookingService.create` at the start of its transaction. -/
theorem follows_createBooking (hfails : ¬env.fails exclusionViolation) (key : Option String)
    {post : Tx platformSchema → Except Thrown CreateResult → Prop}
    (hok : ∀ tx' result, tx'.aborted = false → Answerable rt tenantId db dto key →
      post tx' (.ok result))
    (herror : ∀ tx' e, (env.Calm → ¬Answerable rt tenantId db dto key) → post tx' (.error e)) :
    ((BookingService.create rt tenantId dto key).translate bookingCommands).Follows
      (session db env) post
      .idle := by
  have hfail : ∀ tx' code, env.fails code → post tx' (.error (.query code)) := fun tx' code hcode =>
    herror tx' _ fun hcalm => absurd hcode (hcalm.1 code)
  unfold BookingService.create IdempotencyService.run
  cases hkey : key.filter (· ≠ "") with
  | none =>
    refine follows_translate_bind.2 (follows_doCreate rfl hfails ?_ ?_)
    · intro tx' b hrunning hbookable _
      exact hok tx' _ hrunning ((answerable_of_absent hkey).2 hbookable)
    · intro tx' e hcalm
      exact herror tx' e fun hc => (answerable_of_absent hkey).not.2 (hcalm hc)
  | some key' =>
    refine follows_translate_bind.2 (session_exec.2 (issues_insertIgnore rfl ?_ ?_ ?_ (hfail _)))
    · exact fun _ _ => rfl
    · -- the key has a row, or the drawn id is in use
      intro id time code hdraws hrefusal
      refine follows_replay rfl ?_ ?_ hfail
      · intro result existing hstored hhash hbody
        exact hok _ result rfl ((answerable_of_stored hkey hstored).2 ⟨hhash, hbody⟩)
      · intro e hnone
        refine herror _ e fun hcalm => ?_
        have hid : ∀ r ∈ db .idempotencyKeys, r.id ≠ id := hcalm.2 _ id hdraws .idempotencyKeys
        have htaken : storedKey tenantId db key' ≠ none := storedKey_of_refusal rfl rfl hid hrefusal
        obtain ⟨existing, hstored⟩ := Option.ne_none_iff_exists'.1 htaken
        rw [answerable_of_stored hkey hstored]
        rintro ⟨hhash, hbody⟩
        exact hbody (hnone existing hstored hhash)
    · -- the key is claimed
      intro id time _ hrefusal
      have hnew : Answerable rt tenantId db dto key ↔ Bookable rt tenantId db dto :=
        answerable_of_new hkey (storedKey_none_of_refusal rfl rfl hrefusal)
      have hclaimed : ∀ row : IdempotencyKey, ∀ τ, τ ≠ .idempotencyKeys →
          ((Tx.idle : Tx platformSchema).write (.put .idempotencyKeys row)).view db τ = db τ := by
        intro row τ hτ
        rw [Tx.view_write, Store.apply_put_of_ne _ _ hτ]
        rfl
      refine follows_translate_bind.2 (follows_doCreate rfl hfails ?_ ?_)
      · intro tx' b hrunning hbookable hframe
        have hrows := hframe .idempotencyKeys (by decide) (by decide)
        rw [Tx.view_write, Store.apply_put_self,
          upsert_of_fresh (fresh_of_refusal hrefusal)] at hrows
        refine follows_translate_bind.2 (follows_updateKey hrunning hrows hrefusal ?_ hfail)
        intro tx'' _ hrunning'
        exact hok tx'' _ hrunning' (hnew.2 ((Bookable.congr (hclaimed _)).1 hbookable))
      · intro tx' e hcalm
        refine herror tx' e fun hc => ?_
        rw [hnew, ← Bookable.congr (hclaimed _)]
        exact hcalm hc

end Request

/-! ## Runs of the request -/

section Run

/-- `POST /bookings`, run alone from a state. -/
def runBooking (rt : Runtime) (supply : ℕ → Uuid × ℤ) (fault : ℕ → Option SqlState)
    (tenantId : Uuid) (dto : CreateBookingDto) (key : Option String) (db : Store platformSchema)
    (n : ℕ) :
    Except Thrown Response × Machine platformSchema :=
  ((handle rt ⟨tenantId, .create dto key⟩).translate bookingCommands).run
    (Machine.stepFaulty supply fault) ⟨db, .idle, n⟩

variable {rt : Runtime} {supply : ℕ → Uuid × ℤ} {fault : ℕ → Option SqlState} {tenantId : Uuid}
  {db : Store platformSchema} {dto : CreateBookingDto} {key : Option String} {n : ℕ}

/-- What the body of the request does in an environment. -/
theorem follows_routeCreate {env : Environment platformSchema}
    (hfails : ¬env.fails exclusionViolation) :
    ((route rt ⟨tenantId, .create dto key⟩).translate bookingCommands).Follows (session db env)
      (fun tx r =>
        (∀ response, r = .ok response → tx.aborted = false ∧ Answerable rt tenantId db dto key) ∧
        ∀ e, r = .error e → env.Calm → ¬Answerable rt tenantId db dto key) .idle := by
  refine follows_translate_bind.2 (follows_createBooking hfails key ?_ ?_)
  · intro tx result hrunning hanswerable
    exact ⟨fun _ _ => ⟨hrunning, hanswerable⟩, fun e he => (nomatch he)⟩
  · intro tx e hcalm
    exact ⟨fun response h => (nomatch h), fun _ _ => hcalm⟩

/-- A request that fails leaves the rows as they were, whatever else has failed. -/
theorem runBooking_error (hfault : ∀ k, fault k ≠ some exclusionViolation) {e : Thrown}
    (h : (runBooking rt supply fault tenantId dto key db n).1 = .error e) :
    (runBooking rt supply fault tenantId dto key db n).2.store = db := by
  let env : Environment platformSchema := anyDraws platformSchema (· ≠ exclusionViolation)
  have hsupplies : Supplies db env supply fault fun _ _ => True :=
    any_supplies db supply fun k code hcode heq => hfault k (heq ▸ hcode)
  have hfollows := @follows_routeCreate rt tenantId db dto key env fun h => h rfl
  unfold runBooking handle at h ⊢
  rcases run_request (n := n) hsupplies hfollows trivial with
    ⟨e', m, hrun, hstore, -⟩ | ⟨_, _, m, hrun, -⟩
  · rw [hrun]
    exact hstore
  · rw [hrun] at h
    cases h

/-- In calm conditions, a request succeeds exactly if it is answerable. -/
theorem runBooking_ok_iff (hunused : Unused db supply n .idle)
    (hdistinct : Function.Injective fun n => (supply n).1) :
    (∃ response, (runBooking rt supply (fun _ => none) tenantId dto key db n).1 = .ok response) ↔
      Answerable rt tenantId db dto key := by
  have hfollows := @follows_routeCreate rt tenantId db dto key (calm platformSchema) fun h => h
  unfold runBooking handle
  -- the program follows its discipline, so that the run ends as the discipline says
  rcases run_request (fresh_supplies db hdistinct) hfollows hunused with
    ⟨e, m, hrun, -, he⟩ | ⟨response, tx, m, hrun, -, hpost⟩
  · rw [hrun]
    constructor
    · rintro ⟨response, h⟩
      cases h
    · intro hanswerable
      -- nothing fails by itself here, so the error is one of the code
      rcases he with ⟨tx, e', hpost⟩ | ⟨k, code, hcode⟩
      · exact absurd hanswerable (hpost.2 e' rfl calm_calm)
      · cases hcode
  · rw [hrun]
    exact ⟨fun _ => (hpost.1 response rfl).2, fun _ => ⟨response, rfl⟩⟩

end Run

end BookingPlatform
