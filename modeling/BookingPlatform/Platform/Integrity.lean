import BookingPlatform.Availability.Bookable
import BookingPlatform.Library.Integrity
import BookingPlatform.Platform.Scoping

/-!
# Rows Refer to Their Own Tenant

A foreign key is satisfied by a row of any tenant. That the rows of a tenant refer to rows of the
same tenant is due to the services: each reads what a new row will refer to, within the tenant,
before it inserts the row. A booking trusts the link between its staff member and its service, which
was checked when it was made.

## Main definitions

- `ServiceCall.request`: a call in its transaction.
- `TenantConsistent`: what is to hold of the rows.

## Main results

- `discipline_request`: every request keeps to the discipline of the references.
-/

namespace BookingPlatform

open Library BaseTenantRepository

/-- The call as it is served. The webhook of a payment provider opens a transaction of its own. -/
def ServiceCall.request (rt : AvailabilityRuntime) (tenantId : Uuid) : (call : ServiceCall) →
    PlatformM call.Result
  | .consumeWebhook provider event =>
    (SubscriptionService.consumeWebhook rt.platform.uuid provider event).translate webhookCommands
  | call => PlatformM.transaction (call.program rt tenantId)

/-! ## Statements that need to know nothing -/

/-- The tables whose rows refer to nothing in their tenant. -/
def independent : TableName → Bool
  | .services | .customers | .outboxEvents | .webhookEndpoints | .subscriptions => true
  | _ => false

theorem needs_of_independent {τ : TableName} (h : independent τ = true) (r : Row τ) :
    rowNeeds τ r = [] := by
  cases τ <;> first | rfl | cases h

section Discipline

variable {uuid : UuidText} {tenantId : Uuid} {ph : (references uuid).Knowledge} {α : Type}

/-- A statement that is confined to a tenant, and inserts rows that refer to nothing. -/
theorem always_of_scoped {s : Command} (h : TenantScoped uuid tenantId independent s) :
    (references uuid).Always s := by
  intro ph
  cases s with
  -- a new row that refers to nothing needs nothing
  | insert τ row =>
    intro id time r hr
    obtain ⟨hid, -, hsound⟩ := h.2 id time r hr
    exact ⟨hid, hsound, fun k hk =>
      absurd (needs_of_independent h.1 r ▸ hk : k ∈ []) List.not_mem_nil⟩
  | insertIgnore τ row =>
    intro id time
    obtain ⟨hid, -, hsound⟩ := h.2 id time
    exact ⟨hid, hsound, fun k hk =>
      absurd (needs_of_independent h.1 _ ▸ hk : k ∈ []) List.not_mem_nil⟩
  -- an update leaves what its row refers to as it is
  | update τ p set =>
    intro time r r' hset
    obtain ⟨hid, -, hprovides, hneeds, hsound⟩ := h.2 time r r' hset
    exact ⟨hid, hprovides, hsound, fun k hk => (hneeds ▸ hk : k ∈ rowNeeds τ r)⟩
  | delete τ p => exact fun hlasting => by cases h.1.symm.trans hlasting
  | _ => trivial

/-- The transaction of a request adds nothing that needs to be known. -/
theorem discipline_transaction {body : PlatformM α}
    (h : body.Follows (references uuid).discipline (fun _ _ => True) ph) :
    (PlatformM.transaction body).Follows (references uuid).discipline (fun _ _ => True) ph :=
  PlatformM.transaction_follows (fun _ => trivial) (fun _ => trivial) h

theorem discipline_mapCode {code : SqlState} {e : AppException} {body : PlatformM α}
    (h : body.Follows (references uuid).discipline (fun _ _ => True) ph) :
    (PlatformM.mapCode code e body).Follows (references uuid).discipline (fun _ _ => True) ph := by
  refine Prog.follows_tryCatch_any h fun error ph => ?_
  split
  · trivial
  · trivial

end Discipline

/-! ## Lookups -/

section Lookups

variable {uuid : UuidText} {tenantId : Uuid} {ph : (references uuid).Knowledge}

/-- What a lookup within the tenant finds is known from then on. -/
theorem discipline_findOne {τ : TableName} {p : Row τ → Bool}
    {post : (references uuid).Knowledge → Except Thrown (Option (Row τ)) → Prop}
    (hfound : ∀ r ph', ph.Extends ph' → p r = true → rowTenant τ r = some tenantId →
      (∀ k ∈ rowProvides τ r, k ∈ ph'.keys) → post ph' (.ok (some r)))
    (hmissing : ∀ ph', post ph' (.ok none)) (hfail : ∀ ph' e, post ph' (.error e)) :
    (findOne τ tenantId p).Follows (references uuid).discipline post ph := by
  refine follows_execSql_bind.2 (Dependencies.issues_select ?_ fun code => hfail ph _)
  intro rows ph' hext hrows
  cases rows with
  | nil => exact hmissing ph'
  | cons r rows =>
    obtain ⟨hr, hkeys⟩ := hrows r List.mem_cons_self
    simp only [scopedWhere, Bool.and_eq_true, decide_eq_true_eq] at hr
    exact hfound r ph' hext hr.1.1 hr.1.2 fun k hk => hkeys (.inl hk)

theorem discipline_getStaff {id : Uuid}
    {post : (references uuid).Knowledge → Except Thrown Staff → Prop}
    (hok : ∀ staff ph', ph.Extends ph' → .row .staff id tenantId ∈ ph'.keys → post ph' (.ok staff))
    (hfail : ∀ ph' e, post ph' (.error e)) :
    (StaffService.getById tenantId id).Follows (references uuid).discipline post ph := by
  refine Prog.follows_bind.2 (discipline_findOne ?_ (fun ph' => hfail ph' _) hfail)
  intro staff ph' hext hid htenant hkeys
  have hkey : Referent.row .staff id tenantId = .row .staff staff.id staff.tenantId := by
    rw [of_decide_eq_true hid, Option.some.inj htenant]
  exact hok staff ph' hext (hkey ▸ hkeys _ (List.mem_singleton.2 rfl))

theorem discipline_getService {id : Uuid}
    {post : (references uuid).Knowledge → Except Thrown ServiceRow → Prop}
    (hok : ∀ service ph', ph.Extends ph' → .row .services id tenantId ∈ ph'.keys →
      post ph' (.ok service))
    (hfail : ∀ ph' e, post ph' (.error e)) :
    (ServiceService.getById tenantId id).Follows (references uuid).discipline post ph := by
  refine Prog.follows_bind.2 (discipline_findOne ?_ (fun ph' => hfail ph' _) hfail)
  intro service ph' hext hid htenant hkeys
  have hkey : Referent.row .services id tenantId = .row .services service.id service.tenantId := by
    rw [of_decide_eq_true hid, Option.some.inj htenant]
  exact hok service ph' hext (hkey ▸ hkeys _ (List.mem_singleton.2 rfl))

/-- A row is inserted when what it refers to is known. -/
theorem discipline_persist {τ : TableName}
    {entity : Uuid → Uuid → Instant → Except SqlState (Row τ)}
    (h : ∀ id time r, entity tenantId id time = .ok r →
      rowId τ r = id ∧ rowSound uuid τ r ∧ ∀ k ∈ rowNeeds τ r, k ∈ ph.keys) :
    (persist τ tenantId entity).Follows (references uuid).discipline (fun _ _ => True) ph :=
  follows_execSql.2 ⟨h, fun r _ => by cases r <;> trivial⟩

end Lookups

/-! ## Capabilities, schedules and staff -/

section Schedule

variable {uuid : UuidText} {tenantId : Uuid} {ph : (references uuid).Knowledge}

theorem discipline_link (staffId serviceId : Uuid) :
    (StaffServiceService.link tenantId staffId serviceId).Follows (references uuid).discipline
      (fun _ _ => True) ph := by
  refine Prog.follows_bind.2 (discipline_getStaff ?_ fun _ _ => trivial)
  intro staff ph₁ hext₁ hstaff
  refine Prog.follows_bind.2 (discipline_getService ?_ fun _ _ => trivial)
  intro service ph₂ hext₂ hservice
  refine discipline_mapCode (discipline_persist (τ := .staffServices) fun id time r hr => ?_)
  cases hr
  refine ⟨rfl, trivial, fun k hk => ?_⟩
  rcases List.mem_cons.1 hk with rfl | hk
  · exact hext₂.keys hstaff
  · obtain rfl := List.mem_singleton.1 hk
    exact hservice

theorem discipline_createWorkingHours (staffId : Uuid) (dto : CreateWorkingHoursDto) :
    (WorkingHoursService.create tenantId staffId dto).Follows (references uuid).discipline
      (fun _ _ => True) ph := by
  refine Prog.follows_bind.2 (discipline_getStaff ?_ fun _ _ => trivial)
  -- the member of the staff is known once it is read
  intro staff ph₁ hext₁ hstaff
  dsimp only
  split
  · trivial
  · refine follows_execSql_bind.2 (Dependencies.issues_select ?_ fun _ => trivial)
    intro sameDay ph₂ hext₂ _
    dsimp only
    split
    · trivial
    · refine discipline_mapCode (discipline_persist (τ := .workingHours) fun id time r hr => ?_)
      cases hr
      refine ⟨rfl, trivial, fun k hk => ?_⟩
      obtain rfl := List.mem_singleton.1 hk
      exact hext₂.keys hstaff

theorem discipline_createTimeOff (rt : PlatformRuntime) (staffId : Uuid) (dto : CreateTimeOffDto) :
    (TimeOffService.create rt tenantId staffId dto).Follows (references uuid).discipline
      (fun _ _ => True) ph := by
  refine Prog.follows_bind.2 (discipline_getStaff ?_ fun _ _ => trivial)
  intro staff ph₁ hext₁ hstaff
  dsimp only
  split
  · trivial
  · refine discipline_persist (τ := .timeOff) fun id time r hr => ?_
    split at hr
    · cases hr
      refine ⟨rfl, trivial, fun k hk => ?_⟩
      obtain rfl := List.mem_singleton.1 hk
      exact hstaff
    · cases hr

/-- The rest of `StaffService.create`, for a user who is known to be a member. -/
theorem discipline_insertStaff (dto : CreateStaffDto)
    (hmember : .member dto.userId tenantId ∈ ph.keys) :
    ((do
      let count ← StaffM.exec (.count tenantId)
      SubscriptionService.assertWithinStaffLimit tenantId count
      Prog.tryCatch
        (StaffM.exec (.insertStaff
          { userId := dto.userId, displayName := dto.displayName, tenantId }))
        fun error =>
          if error = .query uniqueViolation then
            throwSql (.conflict "This user is already a staff member")
          else .raise error : StaffM Staff).translate staffCommands).Follows
            (references uuid).discipline (fun _ _ => True) ph := by
  rw [Prog.translate_bind]
  refine Prog.follows_bind.2 (Dependencies.issues_select ?_ fun _ => trivial)
  intro staff ph₁ hext₁ _
  -- the check of the limit only reads
  have hlimit : ((SubscriptionService.assertWithinStaffLimit tenantId staff.length).translate
    staffCommands).Uses
      fun s => ∃ τ q, s = Stmt.select τ q :=
    Prog.Uses.translated staffCommands
      (uses_staffLimit ⟨_, _, rfl⟩ (fun _ => ⟨_, _, rfl⟩) ⟨_, _, rfl⟩ staff.length)
  change Prog.Follows _ _ (Prog.translate staffCommands
    (SubscriptionService.assertWithinStaffLimit tenantId staff.length >>= _)) ph₁
  rw [Prog.translate_bind]
  refine Prog.follows_bind.2 ((Dependencies.follows_of_reads hlimit).mono fun ph₂ r hext₂ => ?_)
  cases r with
  | error e => trivial
  | ok _ =>
    dsimp only
    rw [Prog.translate_tryCatch]
    refine Prog.follows_tryCatch_any
      ⟨fun id time r hr => ?_, fun r _ => by cases r <;> trivial⟩ fun e ph => ?_
    · -- the new row needs the membership that was read before
      cases hr
      refine ⟨rfl, trivial, fun k hk => ?_⟩
      obtain rfl := List.mem_singleton.1 hk
      exact hext₂.keys (hext₁.keys hmember)
    · split
      · trivial
      · trivial

/-- A staff profile is made after the membership has been read. -/
theorem discipline_createStaff (dto : CreateStaffDto) :
    ((StaffService.create tenantId dto).translate staffCommands).Follows
      (references uuid).discipline
      (fun _ _ => True) ph := by
  unfold StaffService.create
  rw [Prog.translate_bind]
  refine Prog.follows_bind.2 (Dependencies.issues_select ?_ fun _ => trivial)
  intro rows ph₁ hext₁ hrows
  cases rows with
  | nil => trivial
  | cons member rows =>
    obtain ⟨hmember, hkeys⟩ := hrows member List.mem_cons_self
    simp only [Bool.decide_and, Bool.and_eq_true, decide_eq_true_eq] at hmember
    have hknown : .member dto.userId tenantId ∈ ph₁.keys := by
      rw [← hmember.1, ← hmember.2]
      exact hkeys (.inl (List.mem_singleton.2 rfl))
    exact discipline_insertStaff dto hknown

end Schedule

/-! ## Bookings and series -/

section Bookings

variable {uuid : UuidText} {tenantId : Uuid} {ph : (references uuid).Knowledge} {α : Type}

theorem discipline_findService {id : Uuid}
    {post : (references uuid).Knowledge → Except Thrown Service → Prop}
    (hok : ∀ service ph', ph.Extends ph' → .row .services id tenantId ∈ ph'.keys →
      post ph' (.ok service))
    (hfail : ∀ ph' e, post ph' (.error e)) :
    ((TenantM.getService tenantId id).translate bookingCommands).Follows
      (references uuid).discipline post
      ph := by
  unfold TenantM.getService
  refine follows_translate_bind.2
    (session_exec.2 (Dependencies.issues_select ?_ fun _ => hfail _ _))
  intro rows ph' hext hrows
  cases rows with
  | nil => exact hfail ph' _
  | cons r rows =>
    obtain ⟨hr, hkeys⟩ := hrows r List.mem_cons_self
    simp only [Bool.decide_and, Bool.and_eq_true, decide_eq_true_eq] at hr
    refine hok _ ph' hext ?_
    rw [← hr.1, ← hr.2.1]
    exact hkeys (.inl (List.mem_singleton.2 rfl))

/-- A link tells that the staff member is one of the tenant. -/
theorem discipline_canPerform {staffId serviceId : Uuid}
    {post : (references uuid).Knowledge → Except Thrown Bool → Prop}
    (hok : ∀ ph', ph.Extends ph' → .row .staff staffId tenantId ∈ ph'.keys → post ph' (.ok true))
    (hnone : ∀ ph', post ph' (.ok false)) (hfail : ∀ ph' e, post ph' (.error e)) :
    ((TenantM.canPerform tenantId staffId serviceId).translate bookingCommands).Follows
      (references uuid).discipline post ph := by
  unfold TenantM.canPerform
  refine follows_translate_bind.2
    (session_exec.2 (Dependencies.issues_select ?_ fun _ => hfail _ _))
  intro rows ph' hext hrows
  cases rows with
  | nil => exact hnone ph'
  | cons r rows =>
    obtain ⟨hr, hkeys⟩ := hrows r List.mem_cons_self
    simp only [Bool.decide_and, Bool.and_eq_true, decide_eq_true_eq] at hr
    refine hok ph' hext ?_
    rw [← hr.1, ← hr.2.2]
    exact hkeys (.inr List.mem_cons_self)

theorem discipline_findCustomer {id : Uuid}
    {post : (references uuid).Knowledge → Except Thrown Customer → Prop}
    (hok : ∀ customer ph', ph.Extends ph' → .row .customers id tenantId ∈ ph'.keys →
      post ph' (.ok customer))
    (hfail : ∀ ph' e, post ph' (.error e)) :
    ((TenantM.getCustomer tenantId id).translate bookingCommands).Follows
      (references uuid).discipline post
      ph := by
  unfold TenantM.getCustomer
  refine follows_translate_bind.2
    (session_exec.2 (Dependencies.issues_select ?_ fun _ => hfail _ _))
  intro rows ph' hext hrows
  cases rows with
  | nil => exact hfail ph' _
  | cons r rows =>
    obtain ⟨hr, hkeys⟩ := hrows r List.mem_cons_self
    simp only [Bool.decide_and, Bool.and_eq_true, decide_eq_true_eq] at hr
    refine hok _ ph' hext ?_
    rw [← hr.1, ← hr.2.1]
    exact hkeys (.inl (List.mem_singleton.2 rfl))

/-- What a new booking refers to. -/
def bookingNeeds (data : BookingData) : List Referent :=
  appointment data.tenantId data.staffId data.serviceId data.customerId ++
    data.recurrenceId.toList.map fun id => .row .recurrences id data.tenantId

theorem discipline_bookingCreate {data : BookingData}
    (hneeds : ∀ k ∈ bookingNeeds data, k ∈ ph.keys)
    {post : (references uuid).Knowledge → Except Thrown Booking → Prop}
    (hok : ∀ booking ph', ph.Extends ph' → post ph' (.ok booking))
    (hfail : ∀ e, post ph (.error e)) :
    ((BookingRepository.create data).translate bookingCommands).Follows
      (references uuid).discipline post ph := by
  unfold BookingRepository.create
  refine follows_translate_tryCatch.2
    (session_exec.2 (Dependencies.issues_insert ?_ ?_ fun _ => hfail _))
  · intro id time b hb
    obtain ⟨slot, rfl⟩ := stored_eq hb
    exact ⟨rfl, trivial, hneeds⟩
  · exact fun b ph' hext _ _ => hok _ ph' hext

theorem discipline_emit {booking : Booking} {eventType : String}
    {post : (references uuid).Knowledge → Except Thrown OutboxEvent → Prop}
    (hok : ∀ event ph', ph.Extends ph' → post ph' (.ok event)) (hfail : ∀ e, post ph (.error e)) :
    ((BookingService.emit tenantId booking eventType).translate bookingCommands).Follows
      (references uuid).discipline post ph := by
  refine session_exec.2 (Dependencies.issues_insert ?_ ?_ fun _ => hfail _)
  · exact @always_of_scoped uuid tenantId _ (scoped_event rfl _) ph
  · exact fun event ph' hext _ _ => hok event ph' hext

theorem discipline_doCreate (rt : Runtime) (dto : CreateBookingDto) :
    ((BookingService.doCreate rt tenantId dto).translate bookingCommands).Follows
      (references uuid).discipline
      (fun _ _ => True) ph := by
  unfold BookingService.doCreate
  refine follows_translate_bind.2 (discipline_findService ?_ fun _ _ => trivial)
  -- what is read is known from then on
  intro service ph₁ hext₁ hservice
  refine follows_translate_bind.2 (discipline_canPerform ?_ (fun _ => trivial) fun _ _ => trivial)
  intro ph₂ hext₂ hstaff
  refine follows_translate_bind.2 (discipline_findCustomer ?_ fun _ _ => trivial)
  intro customer ph₃ hext₃ hcustomer
  refine follows_translate_bind.2 (discipline_bookingCreate ?_ ?_ fun _ => trivial)
  · -- the booking refers to the staff, the service and the customer that were read
    intro k hk
    simp only [bookingNeeds, appointment, Option.toList_none, List.map_nil, List.append_nil,
      List.mem_cons, List.not_mem_nil, or_false] at hk
    rcases hk with rfl | rfl | rfl
    · exact hext₃.keys hstaff
    · exact hext₃.keys (hext₂.keys hservice)
    · exact hcustomer
  · intro booking ph₄ _
    exact follows_translate_bind.2 (discipline_emit (fun _ _ _ => trivial) fun _ => trivial)

theorem discipline_create (rt : Runtime) (dto : CreateBookingDto) (key : Option String) :
    ((BookingService.create rt tenantId dto key).translate bookingCommands).Follows
      (references uuid).discipline (fun _ _ => True) ph := by
  unfold BookingService.create IdempotencyService.run
  split
  · rw [Prog.translate_bind]
    exact Prog.follows_bind_any (discipline_doCreate rt dto) fun _ _ => trivial
  · dsimp only
    refine follows_translate_bind.2
      (session_exec.2 ⟨fun id time => ⟨rfl, trivial, ?_⟩, fun r _ => ?_⟩)
    · -- the row of the key refers to nothing
      exact fun k hk => absurd hk List.not_mem_nil
    · rcases r with code | _ | claimed
      · trivial
      · -- the key was claimed before: its row is only read
        refine Dependencies.follows_of_uses (Prog.Uses.translated bookingCommands ?_)
        refine (uses_exec fun _ => trivial).bind fun existing => ?_
        split
        · exact uses_raise _
        · split
          · exact uses_raise _
          · split
            · exact uses_raise _
            · exact uses_ret _
      · -- it is claimed now: the booking, then the update of the key
        dsimp only [bookingAnswer]
        rw [Prog.translate_bind]
        refine Prog.follows_bind_any (discipline_doCreate rt dto) fun booking ph => ?_
        refine Dependencies.follows_of_uses (Prog.Uses.translated bookingCommands ?_)
        refine (uses_exec fun ph time r r' hset => ?_).bind fun _ => uses_ret _
        cases hset
        exact ⟨rfl, rfl, fun h => h, List.Subset.refl _⟩

/-- What the occurrences of a series refer to. -/
def occurrenceNeeds (tenantId : Uuid) (spec : OccurrenceSpec) (recurrenceId : Uuid) :
    List Referent :=
  appointment tenantId spec.staffId spec.serviceId spec.customerId ++
    [.row .recurrences recurrenceId tenantId]

theorem discipline_createOccurrence {spec : OccurrenceSpec} {recurrenceId : Uuid}
    (hneeds : ∀ k ∈ occurrenceNeeds tenantId spec recurrenceId, k ∈ ph.keys)
    {post : (references uuid).Knowledge → Except Thrown Booking → Prop}
    (hok : ∀ booking ph', ph.Extends ph' → post ph' (.ok booking))
    (hfail : ∀ e ph', ph.Extends ph' → post ph' (.error e)) :
    ((BookingService.createOccurrence tenantId spec recurrenceId).translate bookingCommands).Follows
      (references uuid).discipline post ph := by
  unfold BookingService.createOccurrence
  refine follows_translate_bind.2 (discipline_bookingCreate ?_ ?_ fun e => hfail e ph (.refl ph))
  · exact hneeds
  · intro booking ph₁ hext₁
    refine follows_translate_bind.2 (discipline_emit ?_ fun e => hfail e ph₁ hext₁)
    exact fun _ ph₂ hext₂ => hok booking ph₂ (hext₁.trans hext₂)

/-- An occurrence knows afterwards what was known before its savepoint. -/
theorem discipline_tryOccurrence {spec : OccurrenceSpec} {recurrenceId : Uuid} {i : ℕ}
    (hneeds : ∀ k ∈ occurrenceNeeds tenantId spec recurrenceId, k ∈ ph.keys) :
    ((RecurrenceService.tryOccurrence tenantId spec recurrenceId i).translate
      bookingCommands).Follows (references uuid).discipline
      (fun ph' r => ∀ done, r = .ok done → ph.keys ⊆ ph'.keys) ph := by
  unfold RecurrenceService.tryOccurrence
  refine follows_translate_bind.2 (session_exec.2 ⟨trivial, fun r _ => ?_⟩)
  cases r with
  | error code => exact fun done h => by cases h
  | ok _ =>
    -- the savepoint remembers what is known
    let marked : (references uuid).Knowledge := ⟨ph.keys, (i, ph.keys) :: ph.marks⟩
    have hhandler : ∀ e ph', marked.Extends ph' →
        ((do
          TenantM.exec (.rollbackToSavepoint i)
          if !BookingService.isSlotTaken e then .raise e else return false : TenantM Bool).translate
            bookingCommands).Follows (references uuid).discipline
          (fun ph' r => ∀ done, r = .ok done → ph.keys ⊆ ph'.keys) ph' := by
      intro e ph' hext
      refine follows_translate_bind.2 (session_exec.2 ⟨trivial, fun r _ => ?_⟩)
      cases r with
      | error code => exact fun done h => by cases h
      | ok _ =>
        -- after `ROLLBACK TO` it is what was known at the savepoint
        have hback : ((references uuid).discipline.next ph' (.rollbackTo i) (.ok ())).keys =
            ph.keys := by
          have hmarks : ph'.marksFrom i = (i, ph.keys) :: ph.marks := by
            simp [Dependencies.Knowledge.marksFrom, hext.marks, marked]
          simp [Dependencies.discipline, Dependencies.Knowledge.next, hmarks]
        dsimp only [bookingAnswer]
        split
        · exact fun done h => by cases h
        · exact fun done _ => hback.ge
    -- the insert and the release, or the handler
    refine follows_translate_tryCatch.2 (follows_translate_bind.2 ?_)
    refine @discipline_createOccurrence uuid tenantId marked _ _ hneeds _ ?_ hhandler
    intro booking ph₁ hext₁
    refine follows_translate_bind.2 (session_exec.2 ⟨trivial, fun r _ => ?_⟩)
    cases r with
    | error code => exact hhandler _ ph₁ hext₁
    | ok _ => exact fun done _ => hext₁.keys

section Loops

variable {spec : Instant → OccurrenceSpec} {recurrenceId : Uuid}

theorem discipline_allOrNothing (occurrences created : List Instant)
    (hneeds : ∀ o, ∀ k ∈ occurrenceNeeds tenantId (spec o) recurrenceId, k ∈ ph.keys) :
    ((RecurrenceService.allOrNothing tenantId spec recurrenceId occurrences created).translate
      bookingCommands).Follows (references uuid).discipline (fun _ _ => True) ph := by
  induction occurrences generalizing created ph with
  | nil => trivial
  | cons o occurrences ih =>
    refine follows_translate_bind.2 (discipline_createOccurrence (hneeds o) ?_ fun _ _ _ => trivial)
    exact fun _ ph' hext => ih _ fun o' k hk => hext.keys (hneeds o' k hk)

theorem discipline_skipConflicts (i : ℕ) (occurrences created skipped : List Instant)
    (hneeds : ∀ o, ∀ k ∈ occurrenceNeeds tenantId (spec o) recurrenceId, k ∈ ph.keys) :
    ((RecurrenceService.skipConflicts tenantId spec recurrenceId i occurrences created
      skipped).translate
      bookingCommands).Follows (references uuid).discipline (fun _ _ => True) ph := by
  induction occurrences generalizing i created skipped ph with
  | nil => trivial
  | cons o occurrences ih =>
    refine follows_translate_bind.2
      ((discipline_tryOccurrence (hneeds o)).mono fun ph' r hknown => ?_)
    cases r with
    | error e => trivial
    | ok done =>
      -- the next occurrence finds what it needs still known
      have hneeds' : ∀ o', ∀ k ∈ occurrenceNeeds tenantId (spec o') recurrenceId, k ∈ ph'.keys :=
        fun o' k hk => hknown done rfl (hneeds o' k hk)
      dsimp only
      split
      · exact ih _ _ _ hneeds'
      · exact ih _ _ _ hneeds'

end Loops

/-- The row of a series is known to its occurrences. -/
theorem discipline_insertRecurrence {data : RecurrenceData} (htenant : data.tenantId = tenantId)
    (hneeds : ∀ k ∈ appointment tenantId data.staffId data.serviceId data.customerId, k ∈ ph.keys)
    {post : (references uuid).Knowledge → Except Thrown Recurrence → Prop}
    (hok : ∀ recurrence ph', ph.Extends ph' → .row .recurrences recurrence.id tenantId ∈ ph'.keys →
      post ph' (.ok recurrence))
    (hfail : ∀ e, post ph (.error e)) :
    ((TenantM.exec (.insertRecurrence data)).translate bookingCommands).Follows
      (references uuid).discipline
      post ph := by
  subst htenant
  refine session_exec.2 (Dependencies.issues_insert ?_ ?_ fun _ => hfail _)
  · intro id time r hr
    cases hr
    exact ⟨rfl, trivial, hneeds⟩
  · rintro r ph' hext ⟨id, time, hr⟩ hkeys
    cases hr
    exact hok _ ph' hext (hkeys (.inl (List.mem_singleton.2 rfl)))

theorem discipline_createRecurrence (rt : Runtime) (dto : CreateRecurrenceDto) :
    ((RecurrenceService.create rt tenantId dto).translate bookingCommands).Follows
      (references uuid).discipline
      (fun _ _ => True) ph := by
  unfold RecurrenceService.create
  split
  · trivial
  · refine follows_translate_bind.2 (discipline_findService ?_ fun _ _ => trivial)
    intro service ph₁ hext₁ hservice
    refine follows_translate_bind.2 (discipline_canPerform ?_ (fun _ => trivial) fun _ _ => trivial)
    intro ph₂ hext₂ hstaff
    refine follows_translate_bind.2 (discipline_findCustomer ?_ fun _ _ => trivial)
    intro customer ph₃ hext₃ hcustomer
    -- what the recurrence and its bookings refer to has been read
    have hneeds : ∀ k ∈ appointment tenantId dto.staffId dto.serviceId dto.customerId,
        k ∈ ph₃.keys := by
      intro k hk
      simp only [appointment, List.mem_cons, List.not_mem_nil, or_false] at hk
      rcases hk with rfl | rfl | rfl
      · exact hext₃.keys hstaff
      · exact hext₃.keys (hext₂.keys hservice)
      · exact hcustomer
    have htenant : ((TenantM.getTenant tenantId).translate bookingCommands).Uses
        fun s => ∃ τ q, s = Stmt.select τ q :=
      Prog.Uses.translated bookingCommands (uses_getTenant ⟨_, _, rfl⟩)
    refine follows_translate_bind.2
      ((Dependencies.follows_of_reads htenant).mono fun ph₄ r hext₄ => ?_)
    cases r with
    | error e => trivial
    | ok tenant =>
      dsimp only
      split
      · trivial
      · refine follows_translate_bind.2 (discipline_insertRecurrence rfl ?_ ?_ fun _ => trivial)
        · exact fun k hk => hext₄.keys (hneeds k hk)
        · intro recurrence ph₅ hext₅ hrecurrence
          -- its own row is known, too
          have hknown : ∀ k ∈ appointment tenantId dto.staffId dto.serviceId dto.customerId ++
              [.row .recurrences recurrence.id tenantId], k ∈ ph₅.keys := by
            intro k hk
            rcases List.mem_append.1 hk with hk | hk
            · exact hext₅.keys (hext₄.keys (hneeds k hk))
            · exact List.mem_singleton.1 hk ▸ hrecurrence
          dsimp only
          split
          all_goals
            rw [Prog.translate_bind]
            refine Prog.follows_bind_any ?_ fun _ _ => trivial
          · exact discipline_allOrNothing _ _ fun _ => hknown
          · exact discipline_skipConflicts _ _ _ _ fun _ => hknown

end Bookings

/-! ## Requests -/

section Requests

/-- The event of a payment provider changes the status of a subscription. -/
theorem uses_claimAndApply {uuid : UuidText} (provider : PaymentProviderName)
    (event : PaymentEvent) :
    (SubscriptionService.claimAndApply provider event).Uses
      fun s => (references uuid).Always (webhookCommand s) := by
  refine Prog.Uses.bind (uses_execSql fun ph id time => ⟨rfl, trivial, ?_⟩) fun claimed => ?_
  · exact fun k hk => absurd hk List.not_mem_nil
  · split
    · exact uses_pure _
    · refine Prog.Uses.bind (uses_execSql fun _ => trivial) fun subscription => ?_
      split
      · exact uses_pure _
      · split
        · exact uses_pure _
        · refine uses_execSql fun ph time r r' hset => ?_
          cases hset
          exact ⟨rfl, rfl, fun h => h, List.Subset.refl _⟩

theorem uses_consumeWebhook {uuid : UuidText} (provider : PaymentProviderName)
    (event : PaymentEvent) :
    (SubscriptionService.consumeWebhook uuid provider event).Uses
      fun s => (references uuid).Always (webhookCommand s) := by
  unfold SubscriptionService.consumeWebhook
  split
  · exact uses_pure _
  · refine Prog.Uses.tryCatch ?_ fun e => ?_
    · refine Prog.Uses.bind (uses_execSql fun _ => trivial) fun _ => ?_
      refine Prog.Uses.bind (uses_claimAndApply provider event) fun _ => ?_
      exact Prog.Uses.bind (uses_execSql fun _ => trivial) fun _ => uses_pure _
    · refine Prog.Uses.bind (Prog.Uses.tryCatch (uses_execSql fun _ => trivial) fun _ =>
        uses_pure _) fun _ => ?_
      exact uses_throw _

/-- Every call reads what its new rows refer to before it inserts them. -/
theorem discipline_program (rt : AvailabilityRuntime) (tenantId : Uuid) (call : ServiceCall)
    {ph : (references rt.platform.uuid).Knowledge} :
    (call.program rt tenantId).Follows (references rt.platform.uuid).discipline
      (fun _ _ => True) ph := by
  -- the calls whose rows refer to nothing
  have hplain : ∀ call : ServiceCall, call.writesById = false →
      (∀ τ ∈ call.creates, independent τ = true) →
      (call.program rt tenantId).Follows (references rt.platform.uuid).discipline
        (fun _ _ => True) ph :=
    fun call hid hcreates => Dependencies.follows_of_uses
      ((scoped_program rt hid hcreates).mono fun _ => always_of_scoped)
  cases call with
  | booking o =>
    cases o with
    | create dto key =>
      change ((BookingService.create rt.platform.booking tenantId dto key >>= _).translate
        bookingCommands).Follows _ _ _
      rw [Prog.translate_bind]
      exact Prog.follows_bind_any (discipline_create rt.platform.booking dto key) fun _ _ => trivial
    | createRecurrence dto =>
      change ((RecurrenceService.create rt.platform.booking tenantId dto >>= _).translate
        bookingCommands).Follows _ _ _
      rw [Prog.translate_bind]
      exact Prog.follows_bind_any (discipline_createRecurrence rt.platform.booking dto) fun _ _ =>
        trivial
    | _ => exact hplain _ rfl (by simp [ServiceCall.creates, Operation.creates, independent])
  | createStaff dto => exact discipline_createStaff dto
  | link staffId serviceId => exact discipline_link staffId serviceId
  | createWorkingHours staffId dto => exact discipline_createWorkingHours staffId dto
  | createTimeOff staffId dto => exact discipline_createTimeOff rt.platform staffId dto
  | consumeWebhook provider event =>
    exact Dependencies.follows_of_uses
      (Prog.Uses.translated webhookCommands (uses_claimAndApply provider event))
  | _ => exact hplain _ rfl (by simp [ServiceCall.creates, independent])

theorem discipline_request (rt : AvailabilityRuntime) (tenantId : Uuid) (call : ServiceCall)
    {ph : (references rt.platform.uuid).Knowledge} :
    (call.request rt tenantId).Follows (references rt.platform.uuid).discipline
      (fun _ _ => True) ph := by
  cases call with
  | consumeWebhook provider event =>
    exact Dependencies.follows_of_uses
      (Prog.Uses.translated webhookCommands (uses_consumeWebhook provider event))
  | _ => exact discipline_transaction (discipline_program rt tenantId _)

end Requests

/-! ## All runs -/

/-- A call in the context of a tenant. -/
structure TenantCall where
  tenantId : Uuid
  call : ServiceCall

/-- Whatever the call returns is sent to its client. -/
def TenantCall.program (rt : AvailabilityRuntime) (q : TenantCall) : PlatformM Unit := do
  let _ ← q.call.request rt q.tenantId
  return ()

/-- What the services outside of a tenant commit: new tenants and memberships, plans, changes to
tenants, and the delivery state of events. They never remove a row. -/
def otherServices (db : Store platformSchema) (id : Uuid) : Change platformSchema → Prop
  | .put .tenants r => r.id = id ∨ ∃ r₀ ∈ db .tenants, r.id = r₀.id
  | .put .memberships r => r.id = id
  | .put .plans r => r.id = id ∨ ∃ r₀ ∈ db .plans, r.id = r₀.id
  | .put .outboxEvents r => ∃ r₀ ∈ db .outboxEvents, r.id = r₀.id
  | _ => False

theorem outside_of_otherServices (uuid : UuidText) {db : Store platformSchema} {id : Uuid}
    {c : Change platformSchema} (h : otherServices db id c) :
    (references uuid).Outside db id c := by
  cases c with
  | remove τ id => cases h
  -- the other services write rows that refer to nothing, and keep the ids of those they update
  | put τ r =>
    cases τ with
    | tenants =>
      rcases h with h | ⟨r₀, hr₀, h⟩
      · exact ⟨trivial, rfl, .inl h⟩
      · exact ⟨trivial, rfl, .inr ⟨r₀, hr₀, h, rfl⟩⟩
    | memberships => exact ⟨trivial, rfl, .inl h⟩
    | plans =>
      rcases h with h | ⟨r₀, hr₀, h⟩
      · exact ⟨trivial, rfl, .inl h⟩
      · exact ⟨trivial, rfl, .inr ⟨r₀, hr₀, h, rfl⟩⟩
    | outboxEvents =>
      obtain ⟨r₀, hr₀, h⟩ := h
      exact ⟨trivial, rfl, .inr ⟨r₀, hr₀, h, rfl⟩⟩
    | _ => cases h

/-- The id names a row, and only rows of the tenant. -/
structure RefersTo (db : Store platformSchema) (τ : TableName) (id tenantId : Uuid) : Prop where
  exist : ∃ r ∈ db τ, rowId τ r = id
  tenant : ∀ r ∈ db τ, rowId τ r = id → rowTenant τ r = some tenantId

/-- What holds of the rows of all tenants. -/
structure TenantConsistent (uuid : UuidText) (db : Store platformSchema) : Prop where
  staffServices : ∀ r ∈ db .staffServices,
    RefersTo db .staff r.staffId r.tenantId ∧ RefersTo db .services r.serviceId r.tenantId
  workingHours : ∀ r ∈ db .workingHours, RefersTo db .staff r.staffId r.tenantId
  timeOff : ∀ r ∈ db .timeOff, RefersTo db .staff r.staffId r.tenantId
  bookings : ∀ r ∈ db .bookings,
    (RefersTo db .staff r.staffId r.tenantId ∧ RefersTo db .services r.serviceId r.tenantId ∧
      RefersTo db .customers r.customerId r.tenantId) ∧
    ∀ id ∈ r.recurrenceId, RefersTo db .recurrences id r.tenantId
  recurrences : ∀ r ∈ db .recurrences,
    RefersTo db .staff r.staffId r.tenantId ∧ RefersTo db .services r.serviceId r.tenantId ∧
      RefersTo db .customers r.customerId r.tenantId
  staff : ∀ r ∈ db .staff, ∃ m ∈ db .memberships, m.userId = r.userId ∧ m.tenantId = r.tenantId
  subscriptions : ∀ r ∈ db .subscriptions,
    tenantFromReference uuid r.providerReference = some (uuid.text r.tenantId)

section Consistency

variable {uuid : UuidText} {τ : TableName} {id tenantId userId : Uuid} {T : Type}
  {supply : ℕ → Uuid × ℤ} {g : SharedStore platformSchema T} {ph : T → (references uuid).Knowledge}

/-- The tables whose rows are referred to by their ids. -/
theorem mem_provides_row {σ : TableName} {r : Row σ} (h : .row τ id tenantId ∈ rowProvides σ r) :
    ∃ hσ : σ = τ, rowId τ (hσ ▸ r) = id ∧ rowTenant τ (hσ ▸ r) = some tenantId := by
  cases σ <;>
    simp only [rowProvides, List.mem_singleton, List.not_mem_nil, Referent.row.injEq,
      reduceCtorEq] at h
  all_goals
    obtain ⟨rfl, rfl, rfl⟩ := h
    exact ⟨rfl, rfl, rfl⟩

theorem exists_member_of_held {db : Store platformSchema}
    (h : (references uuid).Held db (.member userId tenantId)) :
    ∃ m ∈ db .memberships, m.userId = userId ∧ m.tenantId = tenantId := by
  obtain ⟨σ, r, hr, hprovides⟩ := h
  cases σ <;>
    simp only [rowProvides, List.mem_singleton, List.not_mem_nil, Referent.member.injEq,
      reduceCtorEq] at hprovides
  obtain ⟨rfl, rfl⟩ := hprovides
  exact ⟨r, hr, rfl, rfl⟩

/-- A row that is held is one of the tenant, and no other row has its id. -/
theorem refersTo_of_held (h : (references uuid).Intact supply g ph)
    (hheld : (references uuid).Held g.store (.row τ id tenantId)) :
    RefersTo g.store τ id tenantId := by
  obtain ⟨σ, r, hr, hprovides⟩ := hheld
  obtain ⟨rfl, hid, -⟩ := mem_provides_row hprovides
  refine ⟨⟨r, hr, hid⟩, fun r' hr' hid' => ?_⟩
  have hsame : rowProvides σ r' = rowProvides σ r :=
    h.agree σ r' r (.inl hr') (.inl hr) (hid'.trans hid.symm)
  have hprovides' : .row σ id tenantId ∈ rowProvides σ r' := by
    rw [hsame]
    exact hprovides
  obtain ⟨hτ, -, htenant⟩ := mem_provides_row hprovides'
  cases hτ
  exact htenant

/-- An intact store is consistent in every tenant. -/
theorem tenantConsistent_of_intact (h : (references uuid).Intact supply g ph) :
    TenantConsistent uuid g.store := by
  -- what a row needs is there, and of the row's tenant
  have hneeds : ∀ {τ : TableName} {r : Row τ}, r ∈ g.store τ → ∀ {σ id tenantId},
      .row σ id tenantId ∈ rowNeeds τ r → RefersTo g.store σ id tenantId := by
    intro τ r hr σ id tenantId hk
    exact refersTo_of_held h ((h.met τ r hr).2 _ hk)
  constructor
  case staffServices =>
    exact fun r hr => ⟨hneeds hr (by simp [rowNeeds]), hneeds hr (by simp [rowNeeds])⟩
  case workingHours => exact fun r hr => hneeds hr (by simp [rowNeeds])
  case timeOff => exact fun r hr => hneeds hr (by simp [rowNeeds])
  case bookings =>
    intro r hr
    refine ⟨⟨hneeds hr ?_, hneeds hr ?_, hneeds hr ?_⟩, fun id hid => hneeds hr ?_⟩
    · simp [rowNeeds, appointment]
    · simp [rowNeeds, appointment]
    · simp [rowNeeds, appointment]
    · have hmem : id ∈ r.recurrenceId.toList := Option.mem_toList.2 hid
      exact List.mem_append_right _ (List.mem_map.2 ⟨id, hmem, rfl⟩)
  case recurrences =>
    intro r hr
    refine ⟨hneeds hr ?_, hneeds hr ?_, hneeds hr ?_⟩
    all_goals simp [rowNeeds, appointment]
  case staff =>
    exact fun r hr => exists_member_of_held ((h.met .staff r hr).2 _ (List.mem_singleton.2 rfl))
  case subscriptions => exact fun r hr => (h.met .subscriptions r hr).1

end Consistency

/-- In every run of calls of any tenants from an empty database, whatever ids they carry, rows refer
to rows of their own tenant, staff are members, and payment references encode their tenant. -/
theorem tenantConsistent_run {T : Type} [DecidableEq T] (rt : AvailabilityRuntime)
    (supply : ℕ → Uuid × ℤ) (hdistinct : Function.Injective fun n => (supply n).1)
    (w : World (storeSignature platformSchema) T
      (SharedStore platformSchema T) TenantCall Thrown Unit)
    (hrun : Runs (World.Step (storeServer supply otherServices (TenantCall.program rt))) anyStep
      (World.fresh (SharedStore.initial T fun _ => [])) w) :
    TenantConsistent rt.platform.uuid w.shared.store := by
  have hprogram : ∀ q : TenantCall, (q.program rt).Follows (references rt.platform.uuid).discipline
      (fun _ _ => True) .empty :=
    fun q => Prog.follows_bind_any (discipline_request rt q.tenantId q.call) fun _ _ => trivial
  obtain ⟨ph, hintact⟩ := Dependencies.intact_run hdistinct
    (fun db id c => outside_of_otherServices rt.platform.uuid) hprogram hrun
  exact tenantConsistent_of_intact hintact

/-- A runtime that reads no dates. -/
def timelessRuntime : AvailabilityRuntime :=
  sampleAvailability ⟨[], by decide, by decide⟩ "" 0 0 0 0

/-- User 2 is a member of tenant 1. -/
def hiredMember : MembershipRow where
  userId := 2
  tenantId := 1
  role := .staff
  id := 1000

/-- The member becomes one of the staff. -/
def sampleHiring : TenantCall := ⟨1, .createStaff { userId := 2, displayName := "Bob" }⟩

/-- The profile is made with the id that is drawn for it. -/
theorem tenantConsistent_run_hiring :
    ∃ w : World (storeSignature platformSchema) Unit (SharedStore platformSchema Unit)
        TenantCall Thrown Unit,
      w.shared.store .staff = [⟨1005, 1, 2, "Bob", true, false⟩] ∧
      TenantConsistent sampleUuid w.shared.store := by
  have hdistinct : Function.Injective fun n => (sampleSupply n).1 := fun n n' h =>
    Nat.add_left_cancel h
  -- the membership comes from outside
  have hjoin : World.Step (storeServer sampleSupply otherServices
    (TenantCall.program timelessRuntime)) (World.fresh (SharedStore.initial Unit fun _ => [])) .env
      { shared := ⟨Store.apply (fun _ => []) (.put .memberships hiredMember), fun _ => .idle, 1⟩,
        session := fun _ => none } := .env ⟨.put .memberships hiredMember, rfl, rfl⟩
  obtain ⟨w, hrun, hshared⟩ : ∃ w', Runs (World.Step (storeServer sampleSupply otherServices
      (TenantCall.program timelessRuntime))) anyStep
      { shared := ⟨Store.apply (fun _ => []) (.put .memberships hiredMember), fun _ => .idle, 1⟩,
        session := fun _ => none } w' ∧ _ := exists_run_of_request (t := ()) sampleHiring rfl
  refine ⟨w, ?_, tenantConsistent_run timelessRuntime sampleSupply hdistinct w
    (.head ⟨_, trivial, hjoin⟩ hrun)⟩
  rw [hshared]
  decide +kernel

end BookingPlatform
