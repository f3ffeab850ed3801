import BookingPlatform.Staff.Store
import Mathlib.Tactic.Linarith

/-!
# The Plan Limit under Concurrency

Any number of creations and removals, interleaved statement by statement. A creation checks
the plan limit on a count, and other requests may commit between the count and its commit.

## Main definitions

- `StaffPhase`: how far a request has come, and what it has read.
- `StaffLimit`: no creation left more live staff than the plan in force allows.
- `Unraced`: since the count no more staff was added than taken.
- `FitsPlan`: what others committed since the count fits into the places it left.

## Main results

- `creations_withinPlan`: the limit is kept in every run in which no creation overtakes another
  one, and is broken by the first creation that does not fit when it commits.
- `simultaneousCreations_exceedPlan`: a run in which it is broken.
-/

namespace BookingPlatform

open Library StaffM

/-- How far a request has come, with what it has read: the staff count `n`, the
subscription, the plan. -/
inductive StaffPhase where
  | ended
  | failed
  | asked (tenantId : Uuid)
  | allowed (tenantId : Uuid)
  | counted (tenantId : Uuid) (n : ℕ)
  | subscribed (tenantId : Uuid) (n : ℕ) (subscription : Option Subscription)
  | planned (tenantId : Uuid) (n : ℕ) (plan : Option Plan)
  | inserted (tenantId : Uuid) (n : ℕ) (plan : Option Plan) (row : Staff)
  | removing (tenantId : Uuid)
  | removed (tenantId id : Uuid)

def StaffPhase.start : StaffRequest → StaffPhase
  | .create tenantId _ => asked tenantId
  | .remove tenantId _ => removing tenantId

/-- The count leaves a place under the plan. -/
def WithinPlan (n : ℕ) (plan : Option Plan) : Prop :=
  ∀ p, plan = some p → 0 ≤ p.maxStaff → (n : ℤ) < p.maxStaff

/-- The course of a staff request. A request may give up at any point. -/
def staffing : Protocol (sqlSignature StaffStatement StaffStatement.Result) StaffPhase where
  allows ph s := match ph, s with
    | .ended, _ => False
    | _, .rollback => True
    | .asked tenantId, .findByUserAndTenant _ tenantId' => tenantId' = tenantId
    | .allowed tenantId, .count tenantId' => tenantId' = tenantId
    | .counted tenantId _, .findActive tenantId' => tenantId' = tenantId
    | .subscribed _ _ (some subscription), .findPlanById id =>
      subscription.status ≠ .canceled ∧ id = subscription.planId
    | .subscribed _ _ subscription, .findPlanByCode code =>
      (∀ s, subscription = some s → s.status = .canceled) ∧ code = defaultPlanCode
    | .planned tenantId n plan, .insertStaff data => data.tenantId = tenantId ∧ WithinPlan n plan
    | .removing tenantId, .softDelete _ tenantId' => tenantId' = tenantId
    | .inserted .., .commit => True
    | .removed .., .commit => True
    | _, _ => False
  answers _ _ _ := True
  next ph s r := match ph, s, r with
    | _, .rollback, _ => .ended
    | _, .commit, _ => .ended
    | _, _, .error _ => .failed
    | .asked tenantId, .findByUserAndTenant .., .ok _ => .allowed tenantId
    | .allowed tenantId, .count _, .ok n => .counted tenantId n
    | .counted tenantId n, .findActive _, .ok subscription => .subscribed tenantId n subscription
    | .subscribed tenantId n _, .findPlanById _, .ok plan => .planned tenantId n plan
    | .subscribed tenantId n _, .findPlanByCode _, .ok plan => .planned tenantId n plan
    | .planned tenantId n plan, .insertStaff _, .ok row => .inserted tenantId n plan row
    | .removing _, .softDelete id tenantId, .ok _ => .removed tenantId id
    | ph, _, _ => ph

/-! ## The code keeps to this course -/

/-- A request that throws has not ended its transaction, and one that returns has something
to commit. -/
def answeredStaff : StaffPhase → Except Thrown StaffResponse → Prop
  | ph, .ok _ => (∃ tenantId n plan row, ph = .inserted tenantId n plan row) ∨
      ∃ tenantId id, ph = .removed tenantId id
  | ph, .error _ => ph ≠ .ended

/-- Where the check leads: it throws, or the count is within the plan that was looked up. -/
def checkedStaff (tenantId : Uuid) (n : ℕ) : StaffPhase → Except Thrown Unit → Prop
  | ph, .ok _ => ∃ plan, ph = .planned tenantId n plan ∧ WithinPlan n plan
  | ph, .error _ => ph ≠ .ended

/-- The entitlement that a plan grants. -/
def resolvedStaff (tenantId : Uuid) (n : ℕ) : StaffPhase → Except Thrown StaffEntitlement → Prop
  | ph, .ok entitlement => ∃ plan, ph = .planned tenantId n plan ∧
      ∀ p, plan = some p → 0 ≤ p.maxStaff → entitlement = .capped p.maxStaff
  | ph, .error _ => ph ≠ .ended

theorem resolveStaffEntitlement_staffing (tenantId : Uuid) (n : ℕ) :
    (SubscriptionService.resolveStaffEntitlement tenantId).Follows staffing
      (resolvedStaff tenantId n) (.counted tenantId n) := by
  -- what is made of the plan, whichever way it is looked up
  have hunmetered : (return .unmetered : StaffM StaffEntitlement).Follows staffing
    (resolvedStaff tenantId n) (.planned tenantId n none) := ⟨none, rfl, fun _ hp => by cases hp⟩
  have hmetered : ∀ plan : Plan, (if plan.maxStaff < 0 then return .unlimited else
      return .capped plan.maxStaff :
        StaffM StaffEntitlement).Follows staffing (resolvedStaff tenantId n)
        (.planned tenantId n (some plan)) := by
    intro p
    split
    · rename_i hneg
      refine ⟨some p, rfl, ?_⟩
      rintro _ ⟨⟩ hpos
      omega
    · refine ⟨some p, rfl, ?_⟩
      rintro _ ⟨⟩ -
      rfl
  refine follows_execSql_bind.2 ⟨rfl, fun r _ => ?_⟩
  rcases r with code | subscription
  · exact fun hended => by cases hended
  cases subscription with
  | none =>
    refine follows_execSql_bind.2 ⟨⟨fun _ hs => (by cases hs), rfl⟩, fun r _ => ?_⟩
    rcases r with code | plan
    · exact fun hended => by cases hended
    · cases plan with
      | none => exact hunmetered
      | some p => exact hmetered p
  | some subscription =>
    dsimp only
    split
    · rename_i hactive
      refine follows_execSql_bind.2 ⟨⟨hactive, rfl⟩, fun r _ => ?_⟩
      rcases r with code | plan
      · exact fun hended => by cases hended
      · cases plan with
        | none => exact hunmetered
        | some p => exact hmetered p
    · rename_i hcanceled
      have hdefault : ∀ s, some subscription = some s → s.status = .canceled := by
        rintro _ ⟨⟩
        exact not_not.1 hcanceled
      refine follows_execSql_bind.2 ⟨⟨hdefault, rfl⟩, fun r _ => ?_⟩
      rcases r with code | plan
      · exact fun hended => by cases hended
      · cases plan with
        | none => exact hunmetered
        | some p => exact hmetered p

theorem assertWithinStaffLimit_staffing (tenantId : Uuid) (n : ℕ) :
    (SubscriptionService.assertWithinStaffLimit tenantId n).Follows staffing
      (checkedStaff tenantId n) (.counted tenantId n) := by
  refine Prog.follows_bind.2 ((resolveStaffEntitlement_staffing tenantId n).mono fun ph r h => ?_)
  rcases r with error | entitlement
  · exact h
  · obtain ⟨plan, rfl, hplan⟩ := h
    -- without a cap the count is within the plan
    have hfree : (∀ max, entitlement ≠ .capped max) → WithinPlan n plan := by
      intro hnot p hp hpos
      exact absurd (hplan p hp hpos) (hnot _)
    cases entitlement with
    | unmetered => exact ⟨plan, rfl, hfree nofun⟩
    | unlimited => exact ⟨plan, rfl, hfree nofun⟩
    | capped max =>
      dsimp only
      split
      · exact nofun
      · -- the check has let it pass, so that one more fits
        rename_i hbelow
        refine ⟨plan, rfl, fun p hp hpos => ?_⟩
        have hmax : StaffEntitlement.capped max = .capped p.maxStaff := hplan p hp hpos
        cases hmax
        omega

theorem create_staffing (tenantId : Uuid) (dto : CreateStaffDto) :
    (StaffService.create tenantId dto).Follows staffing
      (fun ph r => match r with
        | .ok _ => ∃ tenantId n plan row, ph = .inserted tenantId n plan row
        | .error _ => ph ≠ .ended)
      (.asked tenantId) := by
  refine follows_execSql_bind.2 ⟨rfl, fun r _ => ?_⟩
  rcases r with code | role
  · exact nofun
  cases role with
  | none => exact nofun
  | some role =>
    refine follows_execSql_bind.2 ⟨rfl, fun r _ => ?_⟩
    rcases r with code | n
    · exact nofun
    refine Prog.follows_bind.2 ((assertWithinStaffLimit_staffing tenantId n).mono fun ph r h => ?_)
    rcases r with error | _
    · exact h
    · obtain ⟨plan, rfl, hwithin⟩ := h
      -- a row, or an error after which the transaction has failed
      refine Prog.follows_tryCatch.2 (follows_execSql.2 ⟨⟨rfl, hwithin⟩, fun r _ => ?_⟩)
      rcases r with code | row
      · dsimp only
        split
        · exact nofun
        · exact nofun
      · exact ⟨tenantId, n, plan, row, rfl⟩

theorem remove_staffing (tenantId id : Uuid) :
    (StaffService.remove tenantId id).Follows staffing
      (fun ph r => match r with
        | .ok _ => ∃ tenantId id, ph = .removed tenantId id
        | .error _ => ph ≠ .ended)
      (.removing tenantId) := by
  refine follows_execSql_bind.2 ⟨rfl, fun r _ => ?_⟩
  rcases r with code | affected
  · exact nofun
  · dsimp only
    split
    · exact ⟨tenantId, id, rfl⟩
    · exact nofun

/-- Every staff request keeps to this course. -/
theorem follows_staffing (q : StaffRequest) :
    (handleStaff q).Follows staffing (fun ph _ => ph = .ended) (StaffPhase.start q) := by
  -- the request has written, or it has thrown
  have hroute : (routeStaff q).Follows staffing answeredStaff (StaffPhase.start q) := by
    cases q with
    | create tenantId dto =>
      refine Prog.follows_bind.2 ((create_staffing tenantId dto).mono fun ph r h => ?_)
      rcases r with error | row
      · exact h
      · exact .inl h
    | remove tenantId id =>
      refine Prog.follows_bind.2 ((remove_staffing tenantId id).mono fun ph r h => ?_)
      rcases r with error | _
      · exact h
      · exact .inr h
  refine Prog.follows_bind.2 (Prog.follows_tryCatch.2 (hroute.mono fun ph r h => ?_))
  rcases r with error | response
  · -- after an error it rolls back
    refine ⟨?_, fun r _ => ?_⟩
    · cases ph <;> trivial
    · cases ph <;> rfl
  · refine follows_execSql_bind.2 ⟨?_, fun r _ => ?_⟩
    · rcases h with ⟨tenantId, n, plan, row, rfl⟩ | ⟨tenantId, id, rfl⟩ <;> trivial
    · have hover : staffing.next ph .commit r = .ended := by
        rcases h with ⟨tenantId, n, plan, row, rfl⟩ | ⟨tenantId, id, rfl⟩ <;> rfl
      rcases r with code | _ <;> exact hover

/-! ## Counting live staff -/

variable {T : Type} {g g' : StaffDb T} {t : T}

/-- A request has changed at most one row. -/
def SmallChange (changes : List StaffChange) : Prop :=
  changes = [] ∨ (∃ row, row.deleted = false ∧ changes = [.insert row]) ∨
    ∃ id tenantId, changes = [.remove id tenantId]

/-- Deleting rows takes the live ones among them. -/
theorem liveStaff_remove (staff : List Staff) (id tenantId tenantId' : Uuid) :
    liveStaff ((StaffChange.remove id tenantId).apply staff) tenantId' +
      staff.countP (fun row =>
        row.LiveIn tenantId' ∧ (StaffChange.remove id tenantId).Removes row) =
      liveStaff staff tenantId' := by
  induction staff with
  | nil => rfl
  | cons row staff ih =>
    have hdead : ¬Staff.LiveIn tenantId' { row with deleted := true } := fun h => nomatch h.2
    simp only [liveStaff, StaffChange.apply, List.map_cons, List.countP_cons] at ih ⊢
    by_cases hremoves : (StaffChange.remove id tenantId).Removes row
    · by_cases hlive : row.LiveIn tenantId' <;> simp [hremoves, hlive, hdead] at ih ⊢ <;> omega
    · by_cases hlive : row.LiveIn tenantId' <;> simp [hremoves, hlive] at ih ⊢ <;> omega

/-- What a commit makes of the tenant's live staff. -/
theorem liveStaff_rows (hsmall : SmallChange (g.pending t)) (tenantId : Uuid) :
    liveStaff (g.rows t) tenantId + g.taken t tenantId =
      liveStaff g.staff tenantId + g.added t tenantId := by
  rcases hsmall with hnone | ⟨row, -, hinsert⟩ | ⟨id, tenantId', hremove⟩
  · simp [StaffDb.rows, StaffDb.taken, StaffDb.added, StaffDb.inserted, hnone, liveStaff]
  · simp [StaffDb.rows, StaffDb.taken, StaffDb.added, StaffDb.inserted, hinsert, liveStaff,
      StaffChange.apply, StaffChange.Removes, List.countP_cons]
  · have hcount := liveStaff_remove g.staff id tenantId' tenantId
    simp only [StaffDb.rows, StaffDb.taken, StaffDb.added, StaffDb.inserted, hremove,
      List.foldl_cons, List.foldl_nil, List.mem_singleton, exists_eq_left, List.filterMap_cons,
      List.filterMap_nil]
    exact hcount

/-! ## Requests and the tables -/

/-- The count that session `t` has made. -/
def Reads (g : StaffDb T) (t : T) (tenantId : Uuid) (n : ℕ) : Prop :=
  ∃ c, g.counted t = some c ∧ c.tenantId = tenantId ∧ c.count = n

/-- What a request has to do with the tables. -/
def StaffPhase.Sound (g : StaffDb T) (t : T) : StaffPhase → Prop
  | ended | failed | asked _ | allowed _ | removing _ => g.pending t = []
  | counted tenantId n => g.pending t = [] ∧ Reads g t tenantId n
  | subscribed tenantId n subscription =>
    g.pending t = [] ∧ Reads g t tenantId n ∧ subscription = g.activeSubscription tenantId
  | planned tenantId n plan =>
    g.pending t = [] ∧ Reads g t tenantId n ∧ plan = g.planInForce tenantId
  | inserted tenantId n plan row =>
    (g.pending t = [.insert row] ∧ row.tenantId = tenantId ∧ row.deleted = false) ∧
      Reads g t tenantId n ∧ plan = g.planInForce tenantId ∧ WithinPlan n plan
  | removed tenantId id => g.pending t = [.remove id tenantId]

/-- No creation left more live staff than the plan then in force allows. -/
def StaffLimit (g : StaffDb T) : Prop :=
  ∀ c ∈ g.creations, ∀ plan, c.plan = some plan → 0 ≤ plan.maxStaff → (c.live : ℤ) ≤ plan.maxStaff

/-- The live staff of a tenant is what a request has counted and what others have added and
taken since. -/
structure StaffInv (g : StaffDb T) (phase : T → StaffPhase) : Prop where
  sound : ∀ t, (phase t).Sound g t
  live : ∀ t c, g.counted t = some c →
    liveStaff g.staff c.tenantId + c.taken = c.count + c.added

variable {phase : T → StaffPhase} {ph : StaffPhase}

theorem StaffPhase.Sound.small (h : ph.Sound g t) : SmallChange (g.pending t) := by
  cases ph with
  | ended | failed | asked | allowed | removing => exact .inl h
  | counted | subscribed | planned => exact .inl h.1
  | inserted tenantId n plan row => exact .inr (.inl ⟨row, h.1.2.2, h.1.1⟩)
  | removed tenantId id => exact .inr (.inr ⟨id, tenantId, h⟩)

/-- A request does not depend on what others do, as long as its count is not lost. -/
theorem StaffPhase.Sound.frame (h : ph.Sound g t) (hpending : g'.pending t = g.pending t)
    (hreads : ∀ tenantId n, Reads g t tenantId n → Reads g' t tenantId n)
    (hsubscriptions : g'.subscriptions = g.subscriptions) (hplans : g'.plans = g.plans) :
    ph.Sound g' t := by
  -- the plan in force is found in tables that have not changed
  have hactive : ∀ tenantId, g'.activeSubscription tenantId = g.activeSubscription tenantId := by
    intro tenantId
    rw [StaffDb.activeSubscription, StaffDb.activeSubscription, hsubscriptions]
  have hplan : ∀ tenantId, g'.planInForce tenantId = g.planInForce tenantId := by
    intro tenantId
    simp only [StaffDb.planInForce, hactive, StaffDb.planById, StaffDb.planByCode, hplans]
  cases ph with
  | ended | failed | asked | allowed | removing | removed =>
    exact hpending.trans h
  | counted tenantId n => exact ⟨hpending.trans h.1, hreads _ _ h.2⟩
  | subscribed tenantId n subscription =>
    exact ⟨hpending.trans h.1, hreads _ _ h.2.1, h.2.2.trans (hactive _).symm⟩
  | planned tenantId n plan =>
    exact ⟨hpending.trans h.1, hreads _ _ h.2.1, h.2.2.trans (hplan _).symm⟩
  | inserted tenantId n plan row =>
    obtain ⟨⟨hrow, htenant⟩, hcount, hforce, hwithin⟩ := h
    exact ⟨⟨hpending.trans hrow, htenant⟩, hreads _ _ hcount, hforce.trans (hplan _).symm, hwithin⟩

section Step

variable [DecidableEq T]

/-- Session `t` moves on without a commit. -/
theorem StaffInv.move (h : StaffInv g phase) (hsound : ph.Sound g' t)
    (hpending : ∀ u, u ≠ t → g'.pending u = g.pending u)
    (hcounted : ∀ u, u ≠ t → g'.counted u = g.counted u)
    (hlive : ∀ c, g'.counted t = some c →
      liveStaff g.staff c.tenantId + c.taken = c.count + c.added)
    (hstaff : g'.staff = g.staff) (hsubscriptions : g'.subscriptions = g.subscriptions)
    (hplans : g'.plans = g.plans) : StaffInv g' (Function.update phase t ph) where
  sound u := by
    -- the others read what they read before
    by_cases hu : u = t
    · subst hu
      rw [Function.update_self]
      exact hsound
    · rw [Function.update_of_ne hu]
      refine (h.sound u).frame (hpending u hu) (fun tenantId n hreads => ?_) hsubscriptions hplans
      rw [Reads, hcounted u hu]
      exact hreads
  live u c hc := by
    rw [hstaff]
    by_cases hu : u = t
    · subst hu
      exact hlive c hc
    · rw [hcounted u hu] at hc
      exact h.live u c hc

/-- Session `t` only learns something. -/
theorem StaffInv.learn (h : StaffInv g phase) (hsound : ph.Sound g t) :
    StaffInv g (Function.update phase t ph) :=
  h.move hsound (fun _ _ => rfl) (fun _ _ => rfl) (h.live t) rfl rfl rfl

theorem StaffInv.rollback (h : StaffInv g phase) (t : T) :
    StaffInv (g.rollback t) (Function.update phase t .ended) := by
  have hmine : StaffPhase.ended.Sound (g.rollback t) t := by
    simp [StaffPhase.Sound, StaffDb.rollback]
  refine h.move hmine ?_ ?_ ?_ rfl rfl rfl
  · exact fun u hu => by simp [StaffDb.rollback, hu]
  · exact fun u hu => by simp [StaffDb.rollback, hu]
  · intro c hc
    simp [StaffDb.rollback] at hc

/-- A request that has written nothing counts the staff. -/
theorem StaffInv.count (h : StaffInv g phase) (hnone : g.pending t = []) {tenantId : Uuid} {n : ℕ}
    (hn : n = liveStaff (g.rows t) tenantId) :
    StaffInv (g.effect t (.count tenantId) (.ok n))
      (Function.update phase t (.counted tenantId n)) := by
  -- nothing is pending, so the rows counted are the committed ones
  have hrows : g.rows t = g.staff := by rw [StaffDb.rows, hnone, List.foldl_nil]
  refine h.move ⟨hnone, ⟨tenantId, n, 0, 0⟩, by simp [StaffDb.effect, StaffDb.apply], rfl, rfl⟩
    (fun _ _ => rfl) ?_ ?_ rfl rfl rfl
  · exact fun u hu => by simp [StaffDb.effect, StaffDb.apply, hu]
  · intro c hc
    have hself : (some ⟨tenantId, n, 0, 0⟩ : Option Counted) = some c := by
      simpa [StaffDb.effect, StaffDb.apply] using hc
    cases hself
    rw [hn, hrows]

/-- A request changes a row. -/
theorem StaffInv.write (h : StaffInv g phase) {change : StaffChange}
    (hsound : ph.Sound (g.write t change) t) :
    StaffInv (g.write t change) (Function.update phase t ph) :=
  h.move hsound (fun u hu => by simp [StaffDb.write, hu]) (fun _ _ => rfl) (h.live t) rfl rfl rfl

theorem StaffInv.commit (h : StaffInv g phase) (t : T) :
    StaffInv (g.commit t) (Function.update phase t .ended) where
  sound u := by
    by_cases hu : u = t
    · subst hu
      rw [Function.update_self]
      simp [StaffPhase.Sound, StaffDb.commit]
    · rw [Function.update_of_ne hu]
      refine (h.sound u).frame (by simp [StaffDb.commit, hu]) ?_ rfl rfl
      -- the counts of the others are overtaken by this commit
      rintro tenantId n ⟨c, hc, rfl, rfl⟩
      exact ⟨g.overtake t c, by simp [StaffDb.commit, hu, hc], rfl, rfl⟩
  live u c hc := by
    by_cases hu : u = t
    · subst hu
      simp [StaffDb.commit] at hc
    · have hc' : (g.counted u).map (g.overtake t) = some c := by simpa [StaffDb.commit, hu] using hc
      obtain ⟨c', hold, rfl⟩ := Option.map_eq_some_iff.1 hc'
      -- what is added and taken has changed by as much as the live rows have
      have hlive := h.live u c' hold
      have hrows := liveStaff_rows (h.sound t).small c'.tenantId
      change liveStaff (g.rows t) c'.tenantId + (c'.taken + g.taken t c'.tenantId) =
        c'.count + (c'.added + g.added t c'.tenantId)
      omega

/-- A statement fails. -/
theorem StaffInv.fails (h : StaffInv g phase) {s : StaffStatement}
    (hallow : staffing.allows (phase t) s) (code : SqlState) :
    StaffInv (g.abort t s) (Function.update phase t (staffing.next (phase t) s (.error code))) := by
  have hsound := h.sound t
  -- a statement other than the last ones finds nothing pending
  have hfailed : ∀ {ph}, ph = StaffPhase.failed → g.pending t = [] →
      StaffInv g (Function.update phase t ph) := by
    rintro _ rfl hnone
    exact h.learn hnone
  have hover : ∀ {ph}, ph = StaffPhase.ended →
      StaffInv (g.rollback t) (Function.update phase t ph) := by
    rintro _ rfl
    exact h.rollback t
  cases hph : phase t <;> rw [hph] at hallow hsound <;> cases s <;> first
    | exact hallow.elim
    | exact hover rfl
    | exact hfailed rfl hsound
    | exact hfailed rfl hsound.1

/-- One statement of a request keeps the counts right. -/
theorem StaffInv.statement (h : StaffInv g phase) {s : StaffStatement}
    {x : Except SqlState s.Result} (hallow : staffing.allows (phase t) s) (hx : g.possible t s x) :
    StaffInv (g.effect t s x) (Function.update phase t (staffing.next (phase t) s x)) := by
  have hsound := h.sound t
  rcases x with code | v
  · exact h.fails hallow code
  -- by the phase, which allows one statement besides the `ROLLBACK`
  cases hph : phase t with
  | ended =>
    rw [hph] at hallow
    exact hallow.elim
  | failed =>
    rw [hph] at hallow
    cases s with
    | rollback => exact h.rollback t
    | _ => exact hallow.elim
  | asked tenantId =>
    rw [hph] at hallow hsound
    cases s with
    | rollback => exact h.rollback t
    | findByUserAndTenant userId tenantId' => exact h.learn hsound
    | _ => exact hallow.elim
  | allowed tenantId =>
    rw [hph] at hallow hsound
    cases s with
    | rollback => exact h.rollback t
    | count tenantId' =>
      obtain rfl : tenantId' = tenantId := hallow
      exact h.count hsound hx
    | _ => exact hallow.elim
  | counted tenantId n =>
    rw [hph] at hallow hsound
    cases s with
    | rollback => exact h.rollback t
    | findActive tenantId' =>
      obtain rfl : tenantId' = tenantId := hallow
      exact h.learn ⟨hsound.1, hsound.2, hx⟩
    | _ => exact hallow.elim
  | subscribed tenantId n subscription =>
    rw [hph] at hallow hsound
    obtain ⟨hnone, hreads, hsubscription⟩ := hsound
    cases s with
    | rollback => exact h.rollback t
    | findPlanById id =>
      cases subscription with
      | none => exact hallow.elim
      -- the plan of the subscription is in force as long as it is not canceled
      | some subscription =>
        obtain ⟨hactive, rfl⟩ := hallow
        have hplan := StaffDb.planInForce_of_subscribed hsubscription.symm hactive
        exact h.learn ⟨hnone, hreads, hx.trans hplan.symm⟩
    | findPlanByCode code =>
      -- without a subscription, or with a canceled one, it is the default plan
      have hdefault : (∀ s, subscription = some s → s.status = .canceled) ∧
          code = defaultPlanCode := by
        cases subscription <;> exact hallow
      obtain ⟨hcanceled, rfl⟩ := hdefault
      rw [hsubscription] at hcanceled
      have hplan := StaffDb.planInForce_of_unsubscribed hcanceled
      exact h.learn ⟨hnone, hreads, hx.trans hplan.symm⟩
    | _ =>
      cases subscription <;> exact hallow.elim
  | planned tenantId n plan =>
    rw [hph] at hallow hsound
    obtain ⟨hnone, hreads, hplan⟩ := hsound
    cases s with
    | rollback => exact h.rollback t
    | insertStaff data =>
      obtain ⟨rfl, hwithin⟩ := hallow
      obtain ⟨-, -, htenant, -, hlive, -⟩ := hx
      refine h.write ⟨⟨?_, htenant, hlive⟩, hreads, hplan, hwithin⟩
      -- the row that is inserted is all that is pending
      simp [StaffDb.write, hnone]
    | _ => exact hallow.elim
  | inserted tenantId n plan row =>
    rw [hph] at hallow
    cases s with
    | rollback => exact h.rollback t
    | commit => exact h.commit t
    | _ => exact hallow.elim
  | removing tenantId =>
    rw [hph] at hallow hsound
    cases s with
    | rollback => exact h.rollback t
    | softDelete id tenantId' =>
      obtain rfl : tenantId' = tenantId := hallow
      have hnone : g.pending t = [] := hsound
      refine h.write (show (StaffPhase.removed tenantId' id).Sound _ t from ?_)
      simp [StaffPhase.Sound, StaffDb.write, hnone]
    | _ => exact hallow.elim
  | removed tenantId id =>
    rw [hph] at hallow
    cases s with
    | rollback => exact h.rollback t
    | commit => exact h.commit t
    | _ => exact hallow.elim

/-! ## Fitting into the plan -/

omit [DecidableEq T] in
/-- A transaction has inserted nothing, or one row after a count that was within the plan. -/
theorem StaffPhase.Sound.creation (h : ph.Sound g t) :
    g.inserted t = [] ∨ ∃ row c, g.pending t = [.insert row] ∧ row.deleted = false ∧
      g.counted t = some c ∧ c.tenantId = row.tenantId ∧
      WithinPlan c.count (g.planInForce row.tenantId) := by
  -- only the phase after the insert has a row of its own
  have hnone : g.pending t = [] → g.inserted t = [] := by
    intro hpending
    rw [StaffDb.inserted, hpending, List.filterMap_nil]
  cases ph with
  | ended | failed | asked | allowed | removing => exact .inl (hnone h)
  | counted | subscribed | planned => exact .inl (hnone h.1)
  | inserted tenantId n plan row =>
    obtain ⟨⟨hpending, rfl, hlive⟩, ⟨c, hc, htenant, rfl⟩, rfl, hwithin⟩ := h
    exact .inr ⟨row, c, hpending, hlive, hc, htenant, hwithin⟩
  | removed tenantId id =>
    left
    have hpending : g.pending t = [.remove id tenantId] := h
    rw [StaffDb.inserted, hpending]
    rfl

/-- What the session has counted, with what others have added and taken since, leaves a place
for its creation under the plan in force. -/
def Fits (g : StaffDb T) (t : T) : Prop :=
  ∀ row ∈ g.inserted t, ∀ plan, g.planInForce row.tenantId = some plan → 0 ≤ plan.maxStaff →
    ∀ c, g.counted t = some c → (c.count + c.added : ℤ) < plan.maxStaff + c.taken

/-- The commit of a creation keeps the limit exactly if the creation fits. -/
theorem StaffInv.limit_commit (h : StaffInv g phase) (hlimit : StaffLimit g) (t : T) :
    StaffLimit (g.commit t) ↔ Fits g t := by
  rcases (h.sound t).creation with hnone | ⟨row, c, hpending, hrow, hc, htenant, -⟩
  · have hsame : (g.commit t).creations = g.creations := by simp [StaffDb.commit, hnone]
    refine iff_of_true ?_ ?_
    · rw [StaffLimit, hsame]
      exact hlimit
    · rw [Fits, hnone]
      exact nofun
  · have hinserted : g.inserted t = [row] := by rw [StaffDb.inserted, hpending]; rfl
    have hnew : (g.commit t).creations =
        ⟨row.tenantId, liveStaff (g.rows t) row.tenantId,
          g.planInForce row.tenantId⟩ :: g.creations := by
      simp [StaffDb.commit, hinserted]
    -- the commit adds one live row to what the request has counted, others' commits included
    have hlive : liveStaff (g.rows t) row.tenantId + c.taken = c.count + c.added + 1 := by
      have hcount := h.live t c hc
      have hadded : g.added t row.tenantId = 1 := by
        simp [StaffDb.added, hinserted, liveStaff, Staff.LiveIn, hrow]
      have htaken : g.taken t row.tenantId = 0 := by
        simp [StaffDb.taken, hpending, StaffChange.Removes]
      have hrows := liveStaff_rows (h.sound t).small row.tenantId
      rw [htenant] at hcount
      omega
    constructor
    · intro hkept row' hmem plan hplan hpos c' hc'
      rw [hinserted, List.mem_singleton] at hmem
      subst hmem
      obtain rfl : c' = c := Option.some.inj (hc'.symm.trans hc)
      have hbound := hkept _ (hnew ▸ List.mem_cons_self) plan hplan hpos
      dsimp only at hbound
      omega
    · intro hfits creation hmem plan hplan hpos
      rw [hnew, List.mem_cons] at hmem
      rcases hmem with rfl | hold
      · have hbound := hfits row (hinserted ▸ List.mem_singleton_self row) plan hplan hpos c hc
        dsimp only
        omega
      · exact hlimit creation hold plan hplan hpos

omit [DecidableEq T] in
/-- A creation that no other one has overtaken fits. -/
theorem StaffInv.fits_of_unraced (h : StaffInv g phase)
    (hunraced : ∀ c, g.counted t = some c → c.added ≤ c.taken) : Fits g t := by
  intro row hmem plan hplan hpos c hc
  rcases (h.sound t).creation with hnone | ⟨row', c', hpending, -, hc', -, hwithin⟩
  · rw [hnone] at hmem
    cases hmem
  · have hinserted : g.inserted t = [row'] := by rw [StaffDb.inserted, hpending]; rfl
    rw [hinserted, List.mem_singleton] at hmem
    subst hmem
    obtain rfl : c' = c := Option.some.inj (hc'.symm.trans hc)
    have hbelow := hwithin plan hplan hpos
    have hfew := hunraced c' hc
    omega

/-- Only a commit records a creation. -/
theorem StaffDb.creations_step {s : StaffStatement} (x : Except SqlState s.Result) :
    (∃ v, (⟨s, x⟩ : (s : StaffStatement) × Except SqlState s.Result) = ⟨.commit, .ok v⟩) ∨
      (g.effect t s x).creations = g.creations := by
  rcases x with code | v
  · right
    cases s <;> rfl
  · cases s with
    | commit => exact .inl ⟨v, rfl⟩
    | _ =>
      right
      rfl

/-! ## Runs -/

/-- Staff statements as a signature. -/
abbrev StaffSql : Signature := sqlSignature StaffStatement StaffStatement.Result

/-- The staff requests over one set of tables, at some moment. -/
abbrev StaffWorld (T : Type) : Type :=
  World StaffSql T (StaffDb T) StaffRequest Thrown StaffResponse

/-- How far each request has come, by what it has done. -/
def staffingTracker : Tracker (staffServer (T := T)) staffing .ended StaffPhase.start :=
  Server.traceTracker _ _ _ _ fun _ _ _ => trivial

/-- How far session `t` has come. -/
def staffingOf (w : StaffWorld T) (t : T) : StaffPhase :=
  Server.tracePhase staffing .ended StaffPhase.start w t

/-- Nothing has overtaken a creation that commits: since it counted, others have added no more
live staff to the tenant than they have taken from it. -/
def Unraced (w : StaffWorld T) : Label StaffSql T StaffRequest → Prop
  | .call t ⟨.commit, .ok _⟩ => ∀ c, w.shared.counted t = some c → c.added ≤ c.taken
  | _ => True

/-- A creation that commits fits into the plan. -/
def FitsPlan (w : StaffWorld T) : Label StaffSql T StaffRequest → Prop
  | .call t ⟨.commit, .ok _⟩ => Fits w.shared t
  | _ => True

/-- The limit is kept so far, and the next step keeps it exactly if it fits; a creation fits
if no more live staff was added than taken since it counted. -/
structure WithinLimit (w : StaffWorld T) : Prop where
  kept : StaffLimit w.shared
  exact_step : ∀ l w', World.Step staffServer w l w' → (StaffLimit w'.shared ↔ FitsPlan w l)
  unraced : ∀ t, (∀ c, w.shared.counted t = some c → c.added ≤ c.taken) → Fits w.shared t

/-- The course of all requests and what holds of the tables. -/
structure StaffRequestsInv (w : StaffWorld T) : Prop where
  conforms : staffingTracker.Conforms (fun ph _ => ph = .ended) w
  tables : StaffInv w.shared (staffingOf w)

variable {w w' : StaffWorld T}

theorem StaffRequestsInv.step (h : StaffRequestsInv w) {l : Label StaffSql T StaffRequest}
    (hs : World.Step staffServer w l w') : StaffRequestsInv w' := by
  refine ⟨h.conforms.step follows_staffing hs, ?_⟩
  cases hs with
  | @start t q hidle =>
    have hph : staffingOf w t = .ended := h.conforms.phase_idle hidle
    have hself := staffingTracker.start_eq w t q hidle hph
    have hmoved : staffingOf (w.start staffServer t q) =
        Function.update (staffingOf w) t (StaffPhase.start q) :=
      Function.eq_update_iff.2 ⟨hself, fun u hu => staffingTracker.start_frame w t q u hu⟩
    rw [hmoved]
    have hnone : w.shared.pending t = [] := by
      have hsound := h.tables.sound t
      rw [hph] at hsound
      exact hsound
    refine h.tables.learn ?_
    cases q <;> exact hnone
  -- the statement is one that the course allows
  | @call t q tr s k x hat hx =>
    have hself := staffingTracker.call_eq w t q s k tr x hat hx
    have hmoved : staffingOf (w.answered staffServer t q (k x) tr s x) =
        Function.update (staffingOf w) t (staffing.next (staffingOf w t) s x) :=
      Function.eq_update_iff.2
        ⟨hself, fun u hu => staffingTracker.call_frame w t q (k x) tr s x u hu⟩
    rw [hmoved]
    exact h.tables.statement (h.conforms.allows hat) hx
  | @crash t σ hat hrun =>
    have hself := staffingTracker.crash_eq w t
    have hmoved : staffingOf (w.crashed staffServer t) = Function.update (staffingOf w) t .ended :=
      Function.eq_update_iff.2 ⟨hself, fun u hu => staffingTracker.crash_frame w t u hu⟩
    rw [hmoved]
    exact h.tables.rollback t
  | env hg => exact hg.elim

theorem StaffRequestsInv.limit_step (h : StaffRequestsInv w) (hlimit : StaffLimit w.shared)
    {l : Label StaffSql T StaffRequest} (hs : World.Step staffServer w l w') :
    StaffLimit w'.shared ↔ FitsPlan w l := by
  cases hs with
  | start q hidle => exact iff_of_true hlimit trivial
  | @call t q tr s k x hat hx =>
    -- a commit adds its creations, any other statement adds none
    rcases StaffDb.creations_step (g := w.shared) (t := t) x with ⟨v, hcommit⟩ | hsame
    · cases hcommit
      exact h.tables.limit_commit hlimit t
    · -- even a commit may leave the creations as they are
      by_cases hcommit : ∃ v, (⟨s, x⟩ : Exchange StaffSql) = ⟨.commit, .ok v⟩
      · obtain ⟨v, hcommit⟩ := hcommit
        cases hcommit
        exact h.tables.limit_commit hlimit t
      · refine iff_of_true ?_ ?_
        · rw [World.answered_shared]
          change StaffLimit (w.shared.effect t s x)
          rw [StaffLimit, hsame]
          exact hlimit
        · unfold FitsPlan
          split
          · rename_i heq
            exact absurd ⟨_, Label.call.inj heq |>.2⟩ hcommit
          · trivial
  | crash hat hrun => exact iff_of_true hlimit trivial
  | env hg => exact hg.elim

theorem StaffRequestsInv.fresh {g₀ : StaffDb T} (h₀ : g₀.Initial) :
    StaffRequestsInv (World.fresh g₀ : StaffWorld T) := by
  have hover : ∀ t : T, staffingOf (World.fresh g₀) t = .ended := fun t => by
    simp [staffingOf, Server.tracePhase]
  refine ⟨hover, fun t => ?_, fun t c hc => ?_⟩
  · rw [hover t]
    exact h₀.pending t
  · rw [World.fresh_shared, h₀.counted] at hc
    cases hc

/-- The limit is kept under every guard that makes the creations fit. -/
theorem StaffRequestsInv.limit_run {g₀ : StaffDb T} (h₀ : g₀.Initial)
    {guard : StaffWorld T → Label StaffSql T StaffRequest → Prop}
    (hfits : ∀ w l, StaffRequestsInv w → guard w l → FitsPlan w l)
    (hrun : Runs (World.Step staffServer) guard (World.fresh g₀) w) :
    StaffRequestsInv w ∧ StaffLimit w.shared := by
  have hnone : StaffLimit g₀ := by
    rw [StaffLimit, h₀.creations]
    exact nofun
  refine hrun.invariant (I := fun w =>
    StaffRequestsInv w ∧ StaffLimit w.shared) ?_ ⟨.fresh h₀, hnone⟩
  rintro w l w' ⟨hinv, hlimit⟩ hguard hs
  exact ⟨hinv.step hs, (hinv.limit_step hlimit hs).2 (hfits w l hinv hguard)⟩

/-- A creation that nothing has overtaken fits: this is what the count before it is for. -/
theorem StaffRequestsInv.fitsPlan_of_unraced (h : StaffRequestsInv w)
    {l : Label StaffSql T StaffRequest} (hunraced : Unraced w l) : FitsPlan w l := by
  unfold FitsPlan
  split
  · exact h.tables.fits_of_unraced hunraced
  · trivial

/-- The limit is kept in every run in which nothing overtakes a creation that commits. In every
run in which the creations that commit fit it is kept, too, and it is broken by the first one
that does not fit. -/
theorem creations_withinPlan {g₀ : StaffDb T} (h₀ : g₀.Initial) :
    (∀ w : StaffWorld T, Runs (World.Step staffServer) Unraced (World.fresh g₀) w →
      StaffLimit w.shared) ∧
    ∀ w : StaffWorld T, Runs (World.Step staffServer) FitsPlan (World.fresh g₀) w →
      WithinLimit w := by
  constructor
  · intro w hrun
    exact (StaffRequestsInv.limit_run h₀ (fun w l hinv => hinv.fitsPlan_of_unraced) hrun).2
  · intro w hrun
    obtain ⟨hinv, hlimit⟩ := StaffRequestsInv.limit_run h₀ (fun _ _ _ => id) hrun
    exact ⟨hlimit, fun l w' => hinv.limit_step hlimit, fun t => hinv.tables.fits_of_unraced⟩

end Step

/-! ## Computed runs -/

instance {n : ℕ} (g : StaffDb (Fin n)) (t : Fin n) (id : Uuid) : Decidable (g.RowFree t id) := by
  have hchange : ∀ change : StaffChange, Decidable (match change with
      | .insert row => row.id ≠ id
      | .remove id' _ => id' ≠ id) := by
    intro change
    cases change <;> infer_instance
  unfold StaffDb.RowFree
  infer_instance

instance {n : ℕ} (g : StaffDb (Fin n)) (t : Fin n) (tenantId userId : Uuid) :
    Decidable (g.UserFree t tenantId userId) :=
  inferInstanceAs (Decidable (_ ∧ _))

instance {n : ℕ} (g : StaffDb (Fin n)) (t : Fin n) (data : StaffData) (row : Staff) :
    Decidable (g.Inserts t data row) :=
  inferInstanceAs (Decidable (_ ∧ _))

/-- The answer of a statement; a choice is the id that an insert draws. -/
def StaffDb.answer {n : ℕ} (id : Uuid) (g : StaffDb (Fin n)) (t : Fin n) :
    (s : StaffStatement) → Option (Except SqlState s.Result)
  | .findByUserAndTenant userId tenantId => some (.ok (g.roles userId tenantId))
  | .count tenantId => some (.ok (liveStaff (g.rows t) tenantId))
  | .findActive tenantId => some (.ok (g.activeSubscription tenantId))
  | .findPlanById id => some (.ok (g.planById id))
  | .findPlanByCode code => some (.ok (g.planByCode code))
  | .insertStaff data =>
    let row : Staff := ⟨id, data.tenantId, data.userId, data.displayName, true, false⟩
    if g.Inserts t data row then some (.ok row) else none
  | .softDelete id tenantId =>
    if g.RowFree t id then
      some (.ok ((g.rows t).countP fun row => row.id = id ∧ row.tenantId = tenantId))
    else none
  | .commit => some (.ok ())
  | .rollback => some (.ok ())

/-- The staff server with computed answers. -/
def staffResponder {n : ℕ} : Responder (staffServer (T := Fin n)) Uuid where
  answer id t g s := g.answer id t s
  sound id t g s r h := by
    cases s with
    | insertStaff data =>
      simp only [StaffDb.answer] at h
      split at h
      · rename_i hinserts
        cases h
        exact hinserts
      · cases h
    | softDelete id' tenantId =>
      simp only [StaffDb.answer] at h
      split at h
      · rename_i hfree
        cases h
        exact ⟨hfree, rfl⟩
      · cases h
    | commit | rollback =>
      cases h
      exact trivial
    | _ =>
      cases h
      rfl

/-- A tenant with three members, no staff and no subscription; the free plan allows `max`. -/
def sampleStaffDb (n : ℕ) (max : ℤ) : StaffDb (Fin n) :=
  ⟨[], fun _ => [], fun userId _ =>
    if userId < 3 then some .staff else none, [], [⟨1, "free", max⟩], fun _ => none, []⟩

theorem sampleStaffDb_initial (n : ℕ) (max : ℤ) : (sampleStaffDb n max).Initial :=
  ⟨fun _ => rfl, fun _ => rfl, rfl⟩

/-- Both requests count before either commits. -/
def simultaneousCreations : List (Move (Fin 2) StaffRequest Uuid) :=
  [.start 0 (.create 7 ⟨1, "One"⟩), .start 1 (.create 7 ⟨2, "Two"⟩), .go 0 0, .go 1 0,
    .go 0 0, .go 1 0, .go 0 0, .go 0 0, .go 1 0, .go 1 0, .go 0 1, .go 1 2, .go 0 0, .go 1 0]

/-- Two creations leave a tenant that may have one staff member with two. -/
theorem simultaneousCreations_exceedPlan :
    ∃ w : StaffWorld (Fin 2),
      Runs (World.Step staffServer) anyStep (World.fresh (sampleStaffDb 2 1)) w ∧
      ⟨7, 2, some ⟨1, "free", 1⟩⟩ ∈ w.shared.creations ∧ ¬StaffLimit w.shared := by
  obtain ⟨w, hrun, hw⟩ := (staffResponder (n := 2)).exists_anyRun
    (World.fresh (sampleStaffDb 2 1)) simultaneousCreations
    (fun w => ⟨7, 2, some ⟨1, "free", 1⟩⟩ ∈ w.shared.creations) (by decide +kernel)
  have hmem : (⟨7, 2, some ⟨1, "free", 1⟩⟩ : Creation) ∈ w.shared.creations := of_decide_eq_true hw
  refine ⟨w, hrun, hmem, fun hlimit => ?_⟩
  have hbound := hlimit _ hmem ⟨1, "free", 1⟩ rfl (by decide)
  exact absurd hbound (by decide)

instance {n : ℕ} (g : StaffDb (Fin n)) (t : Fin n) : Decidable (Fits g t) := by
  have hcounted : ∀ plan : Plan, Decidable (∀ c, g.counted t = some c →
      (c.count + c.added : ℤ) < plan.maxStaff + c.taken) := by
    intro plan
    cases g.counted t with
    | none => exact .isTrue nofun
    | some c => exact decidable_of_iff ((c.count + c.added : ℤ) < plan.maxStaff + c.taken) (by simp)
  have hplan : ∀ row : Staff, Decidable (∀ plan, g.planInForce row.tenantId = some plan →
      0 ≤ plan.maxStaff → ∀ c, g.counted t = some c →
        (c.count + c.added : ℤ) < plan.maxStaff + c.taken) := by
    intro row
    cases g.planInForce row.tenantId with
    | none => exact .isTrue nofun
    | some plan =>
      have := hcounted plan
      exact decidable_of_iff (0 ≤ plan.maxStaff → ∀ c, g.counted t = some c →
        (c.count + c.added : ℤ) < plan.maxStaff + c.taken) (by simp)
  unfold Fits
  infer_instance

instance {n : ℕ} (w : StaffWorld (Fin n)) (l : Label StaffSql (Fin n) StaffRequest) :
    Decidable (FitsPlan w l) := by
  unfold FitsPlan
  split <;> infer_instance

/-- Two creations under a plan for two overlap, one of them is removed, and a third follows. -/
def creationsWithRemoval : List (Move (Fin 4) StaffRequest Uuid) :=
  [.start 0 (.create 7 ⟨0, "Zero"⟩), .start 1 (.create 7 ⟨1, "One"⟩), .go 0 0, .go 1 0,
    .go 0 0, .go 1 0, .go 0 0, .go 0 0, .go 1 0, .go 1 0, .go 0 1, .go 1 2, .go 0 0, .go 1 0,
    .start 2 (.remove 7 1), .go 2 0, .go 2 0,
    .start 3 (.create 7 ⟨2, "Two"⟩), .go 3 0, .go 3 0, .go 3 0, .go 3 0, .go 3 3, .go 3 0]

theorem creations_withinPlan_creationsWithRemoval :
    ∃ w : StaffWorld (Fin 4), w.shared.creations.map (·.live) = [2, 2, 1] ∧ WithinLimit w := by
  obtain ⟨w, hrun, hw⟩ := (staffResponder (n := 4)).exists_run
    (fun w l hl => of_decide_eq_true (p := FitsPlan w l) hl)
    (World.fresh (sampleStaffDb 4 2)) creationsWithRemoval
    (fun w => w.shared.creations.map (·.live) = [2, 2, 1]) (by decide +kernel)
  exact ⟨w, of_decide_eq_true hw, (creations_withinPlan (sampleStaffDb_initial 4 2)).2 w hrun⟩

end BookingPlatform
