import BookingPlatform.Booking.Footprints
import BookingPlatform.Booking.Writes

/-!
# One Attempt under an Idempotency-Key

A create request with an Idempotency-Key claims the key first, and then either runs the
operation and completes the key in the same transaction, or replays the response stored
under it. This module is about one such attempt, on its own.

## Main results

- `follows_attempts`: every keyed create keeps to this course, and no other request
  touches the keys.
- `attempt_step`: what one statement of an attempt does to the attempt and the database.
-/

namespace BookingPlatform

open Library TenantM

/-- How far a keyed create has come: the row it claimed, the booking it inserted, the row
it completed, what it read for a replay, whether one of its statements has failed, and how
its transaction ended. -/
structure Attempt where
  tenantId : Uuid
  key : String
  requestHash : String
  claimed : Option IdempotencyKey
  created : Option Booking
  stored : Option IdempotencyKey
  found : Option (Option IdempotencyKey)
  failed : Bool
  committed : Option Bool

namespace Attempt

/-- The attempt has run the operation and completed the key it claimed. -/
def Completed (rt : Runtime) (a : Attempt) : Prop :=
  ∃ r b, a.claimed = some r ∧ a.created = some b ∧
    a.stored = some { r with responseBody := some (rt.instanceToPlain b) }

/-- The attempt has touched neither the keys nor the bookings. -/
def Untouched (a : Attempt) : Prop :=
  a.claimed = none ∧ a.created = none ∧ a.stored = none

end Attempt

/-- The attempt a request starts with; `none` for a request without deduplication. -/
def startAttempt (rt : Runtime) (q : Request) : Option Attempt :=
  match q.operation with
  | .create dto (some key) =>
    if key = "" then none
    else some ⟨q.tenantId, key, rt.hashBody dto, none, none, none, none, false, none⟩
  | _ => none

/-- The course of an attempt: claim, then the operation and the completion of the key, or
else a replay. A request that is no attempt leaves the keys alone. -/
def attempts (rt : Runtime) : Protocol Sql (Option Attempt) where
  allows ph s := match ph with
    | none => s.kind ≠ .key
    | some a => a.committed = none ∧ match s with
      | .insertKey tenantId key requestHash => a.Untouched ∧ tenantId = a.tenantId ∧
          key = a.key ∧ requestHash = a.requestHash
      | .findKey tenantId key => a.Untouched ∧ tenantId = a.tenantId ∧ key = a.key
      | .insertBooking _ => a.claimed.isSome ∧ a.created = none
      | .updateKey id body => ∃ r b, a.claimed = some r ∧ r.id = id ∧ a.created = some b ∧
          a.stored = none ∧ body = rt.instanceToPlain b
      | .commit => a.failed = false ∧ (a.Untouched ∨ a.Completed rt)
      | .rollback => True
      | _ => a.claimed.isSome ∧ (s.kind = .read ∨ s.kind = .insert)
  answers _ _ _ := True
  next ph s r := match ph with
    | none => none
    | some a => match s, r with
      | .insertKey _ _ _, .ok (some r) => some { a with claimed := some r }
      | .findKey _ _, .ok v => some { a with found := some v }
      | .insertBooking _, .ok b => some { a with created := some b }
      | .updateKey _ body, .ok _ =>
        some { a with stored := a.claimed.map fun r => { r with responseBody := some body } }
      | .commit, .ok _ => some { a with committed := some true }
      | .commit, .error _ => some { a with failed := false, committed := some false }
      | .rollback, _ => some { a with failed := false, committed := some false }
      | _, .ok _ => some a
      | _, .error _ => some { a with failed := true }

/-- How an attempt can end: with its own booking, committed together with the completed
key; with the response stored under the key for the same request; or rolled back with an
error, which for an attempt that did not claim the key is the failure of a statement, the
refusal of a different request, or a key without a response. -/
def Attempt.Ends (rt : Runtime) : Option Attempt → Except Thrown Response → Prop
  | none, _ => True
  | some a, .ok (.created (.fresh b)) =>
    a.committed = some true ∧ a.Completed rt ∧ a.created = some b
  | some a, .ok (.created (.replayed body)) => a.committed = some true ∧ a.Untouched ∧
      ∃ r, a.found = some (some r) ∧ r.requestHash = a.requestHash ∧ r.responseBody = some body
  | some _, .ok _ => False
  | some a, .error e => a.committed = some false ∧ (a.claimed = none →
      (∃ c, e = .query c) ∨ e = .app IdempotencyService.keyReused ∨
        ∃ r, a.found = some (some r) ∧ r.responseBody = none)

/-! ## Programs -/

variable {rt : Runtime} {α : Type}

/-- A program that issues no statement about keys is no attempt's business. -/
theorem follows_none_of_uses (kinds : List StatementKind) (hk : .key ∉ kinds) {p : TenantM α}
    (h : UsesOnly kinds p) : p.Follows (attempts rt) (fun ph _ => ph = none) none := by
  refine h.follows (I := fun ph => ph = none) ?_ rfl
  intro ph s hs hph
  subst hph
  refine ⟨?_, fun r => rfl⟩
  intro hkey
  rw [hkey] at hs
  exact hk hs

/-- Where the operation of attempt `a` can end: with its booking, or in an error. -/
def operated (a : Attempt) : Option Attempt → Except Thrown Booking → Prop
  | ph, .ok b => ph = some { a with created := some b }
  | ph, .error _ => ∃ c f, ph = some { a with created := c, failed := f }

theorem doCreate_attempts {a : Attempt} (hopen : a.committed = none) (hclaim : a.claimed.isSome)
    (hnew : a.created = none) (tenantId : Uuid) (dto : CreateBookingDto) :
    (BookingService.doCreate rt tenantId dto).Follows (attempts rt) (operated a) (some a) := by
  -- an error leaves the attempt as it is, except that it may have failed
  have hsame : ∀ e f, operated a (some { a with failed := f }) (.error e) := fun e f =>
    ⟨a.created, f, rfl⟩
  simp only [BookingService.doCreate, Prog.follows_bind, follows_getService]
  refine ⟨⟨hopen, hclaim, .inl rfl⟩, fun r _ => ?_⟩
  rcases r with code | _ | service
  · exact hsame _ true
  · exact hsame _ a.failed
  simp only [follows_canPerform]
  refine ⟨⟨hopen, hclaim, .inl rfl⟩, fun r _ => ?_⟩
  rcases r with code | link
  · exact hsame _ true
  dsimp only
  split
  · exact hsame _ a.failed
  simp only [Prog.follows_bind, follows_getCustomer]
  refine ⟨⟨hopen, hclaim, .inl rfl⟩, fun r _ => ?_⟩
  rcases r with code | _ | customer
  · exact hsame _ true
  · exact hsame _ a.failed
  simp only [follows_bookingCreate]
  refine ⟨⟨hopen, hclaim, hnew⟩, fun r _ => ?_⟩
  rcases r with code | b
  · exact hsame _ true
  simp only [follows_emit]
  refine ⟨⟨hopen, hclaim, .inr rfl⟩, fun r _ => ?_⟩
  rcases r with code | event
  · exact ⟨some b, true, rfl⟩
  · exact rfl

/-- Where a keyed create can end inside its transaction: having completed the key, having
found the response to replay, or in an error. -/
def Attempt.Answers (rt : Runtime) : Option Attempt → Except Thrown CreateResult → Prop
  | none, _ => False
  | some a, .ok (.fresh b) =>
    a.committed = none ∧ a.failed = false ∧ a.Completed rt ∧ a.created = some b
  | some a, .ok (.replayed body) => a.committed = none ∧ a.failed = false ∧ a.Untouched ∧
      ∃ r, a.found = some (some r) ∧ r.requestHash = a.requestHash ∧ r.responseBody = some body
  | some a, .error e => a.committed = none ∧ (a.claimed = none →
      (∃ c, e = .query c) ∨ e = .app IdempotencyService.keyReused ∨
        ∃ r, a.found = some (some r) ∧ r.responseBody = none)

/-- An attempt that could not claim the key replays the response stored under it. -/
theorem replay_attempts {a : Attempt} (hopen : a.committed = none) (hfailed : a.failed = false)
    (huntouched : a.Untouched) :
    (IdempotencyService.replay a.tenantId a.key a.requestHash).Follows (attempts rt)
      (Attempt.Answers rt) (some a) := by
  refine Prog.follows_bind.2 (follows_exec.2 ⟨⟨hopen, huntouched, rfl, rfl⟩, fun r _ => ?_⟩)
  rcases r with code | _ | existing
  · exact ⟨hopen, fun _ => .inl ⟨code, rfl⟩⟩
  · exact ⟨hopen, fun _ => .inr (.inl rfl)⟩
  dsimp only
  split
  · exact ⟨hopen, fun _ => .inr (.inl rfl)⟩
  · rename_i hhash
    split
    · rename_i hbody
      exact ⟨hopen, fun _ => .inr (.inr ⟨existing, rfl, hbody⟩)⟩
    · rename_i body hbody
      exact ⟨hopen, hfailed, huntouched, existing, rfl, not_not.1 hhash, hbody⟩

theorem create_attempts (tenantId : Uuid) (dto : CreateBookingDto) {key : String}
    (hkey : key ≠ "") :
    (BookingService.create rt tenantId dto (some key)).Follows (attempts rt) (Attempt.Answers rt)
      (some ⟨tenantId, key, rt.hashBody dto, none, none, none, none, false, none⟩) := by
  have hsome : (some key).filter (· ≠ "") = some key := by simp [hkey]
  unfold BookingService.create IdempotencyService.run
  rw [hsome]
  refine Prog.follows_bind.2 (follows_exec.2
    ⟨⟨rfl, ⟨rfl, rfl, rfl⟩, rfl, rfl, rfl⟩, fun r _ => ?_⟩)
  rcases r with code | _ | claimed
  · exact ⟨rfl, fun _ => .inl ⟨code, rfl⟩⟩
  · exact replay_attempts rfl rfl ⟨rfl, rfl, rfl⟩
  refine Prog.follows_bind.2 ?_
  refine (doCreate_attempts (a := ⟨tenantId, key, rt.hashBody dto, some claimed, none, none, none,
    false, none⟩) rfl rfl rfl tenantId dto).mono fun ph r h => ?_
  rcases r with e | b
  · obtain ⟨c, f, rfl⟩ := h
    exact ⟨rfl, nofun⟩
  · obtain rfl := h
    -- the booking is there, and the key is completed with it
    refine Prog.follows_bind.2 (follows_exec.2
      ⟨⟨rfl, claimed, b, rfl, rfl, rfl, rfl, rfl⟩, fun r _ => ?_⟩)
    rcases r with code | rows
    · exact ⟨rfl, nofun⟩
    · exact ⟨rfl, rfl, ⟨claimed, b, rfl, rfl, rfl⟩, rfl⟩

/-- A request that is no attempt leaves the keys alone. -/
theorem route_attempts_none {q : Request} (h : startAttempt rt q = none) :
    (route rt q).Follows (attempts rt) (fun ph _ => ph = none) none := by
  obtain ⟨tenantId, operation⟩ := q
  have hk : .key ∉ [StatementKind.read, .insert, .update, .series, .savepoint] := by decide
  have hlookups : HasLookups
      (fun s => s.kind ∈ [.read, .insert, .update, .series, .savepoint]) tenantId :=
    lookups_of_kind (by decide)
  have hinserts : HasInserts
      (fun s => s.kind ∈ [.read, .insert, .update, .series, .savepoint]) tenantId :=
    inserts_of_kind (by decide)
  have hupdate : ∀ id version status,
      (Statement.updateStatus tenantId id version status).kind ∈
        [StatementKind.read, .insert, .update, .series, .savepoint] := by simp [Statement.kind]
  refine follows_none_of_uses _ hk ?_
  unfold route
  cases operation with
  | create dto key =>
    refine Prog.Uses.bind ?_ fun _ => uses_ret _
    -- a create without a key, or with an empty one, skips the idempotency service
    have hnone : key.filter (· ≠ "") = none := by
      cases key with
      | none => rfl
      | some key =>
        by_cases hempty : key = ""
        · simp [hempty]
        · simp [startAttempt, hempty] at h
    unfold BookingService.create IdempotencyService.run
    rw [hnone]
    exact (uses_doCreate hlookups hinserts rt dto).bind fun _ => uses_ret _
  | createRecurrence dto =>
    refine Prog.Uses.bind ?_ fun _ => uses_ret _
    exact uses_recurrenceCreate hlookups hinserts (by simp [Statement.kind])
      (savepoints_of_kind (by decide)) rt
      dto
  | confirm id version =>
    exact (uses_transition hlookups.booking hinserts.event hupdate _ _ _).bind fun _ => uses_ret _
  | complete id version =>
    exact (uses_transition hlookups.booking hinserts.event hupdate _ _ _).bind fun _ => uses_ret _
  | cancel id version =>
    exact (uses_transition hlookups.booking hinserts.event hupdate _ _ _).bind fun _ => uses_ret _
  | noShow id version =>
    exact (uses_transition hlookups.booking hinserts.event hupdate _ _ _).bind fun _ => uses_ret _
  | reschedule id dto ifMatch =>
    refine Prog.Uses.bind ?_ fun _ => uses_ret _
    exact uses_reschedule hlookups.booking hlookups.service hinserts.event
      (by simp [Statement.kind]) rt _ _ _
  | cancelSeries id =>
    refine Prog.Uses.bind ?_ fun _ => uses_ret _
    exact uses_cancelSeries hlookups.booking hinserts.event (by decide) (by simp [Statement.kind]) _

/-- Every request keeps to the course of its attempt, if it is one. -/
theorem follows_attempts (rt : Runtime) (q : Request) :
    (handle rt q).Follows (attempts rt) (Attempt.Ends rt) (startAttempt rt q) := by
  refine follows_inTransaction.2 ?_
  cases hstart : startAttempt rt q with
  -- no attempt: no statement about keys is issued at all
  | none =>
    refine (route_attempts_none hstart).mono fun ph r h => ?_
    subst h
    rcases r with e | value
    · exact ⟨nofun, fun _ _ => trivial⟩
    · exact ⟨nofun, fun r _ => by rcases r with c | v <;> trivial⟩
  | some a =>
    obtain ⟨tenantId, operation⟩ := q
    -- only a create with a key is an attempt
    obtain ⟨dto, key, rfl, hkey, rfl⟩ : ∃ dto key, operation = .create dto (some key) ∧ key ≠ "" ∧
        a = ⟨tenantId, key, rt.hashBody dto, none, none, none, none, false, none⟩ := by
      cases operation with
      | create dto key =>
        cases key with
        | none => cases hstart
        | some key =>
          by_cases hempty : key = ""
          · simp [startAttempt, hempty] at hstart
          · exact ⟨dto, key, rfl, hempty, by simpa [startAttempt, hempty] using hstart.symm⟩
      | _ => cases hstart
    refine Prog.follows_bind.2 ((create_attempts tenantId dto hkey).mono fun ph r h => ?_)
    rcases ph with - | a
    · exact h.elim
    -- a failure, a new booking, or the stored answer
    rcases r with e | b | body
    · exact ⟨⟨h.1, trivial⟩, fun r _ => ⟨rfl, h.2⟩⟩
    · obtain ⟨hopen, hfailed, hcompleted, hb⟩ := h
      refine ⟨⟨hopen, hfailed, .inr hcompleted⟩, fun r _ => ?_⟩
      rcases r with code | _
      · exact ⟨rfl, fun _ => .inl ⟨code, rfl⟩⟩
      · exact ⟨rfl, hcompleted, hb⟩
    · obtain ⟨hopen, hfailed, huntouched, hfound⟩ := h
      refine ⟨⟨hopen, hfailed, .inl huntouched⟩, fun r _ => ?_⟩
      rcases r with code | _
      · exact ⟨rfl, fun _ => .inl ⟨code, rfl⟩⟩
      · exact ⟨rfl, huntouched, hfound⟩

/-! ## Statements of an attempt -/

section Database

variable {T : Type} [DecidableEq T]

/-- The uncommitted writes of an attempt to the keys, newest first. -/
def Attempt.pendingKeys (a : Attempt) : List IdempotencyKey :=
  match a.committed with
  | none => a.stored.toList ++ a.claimed.toList
  | some _ => []

/-- One statement of attempt `a` of transaction `t`: what becomes of the attempt, the keys
and the bookings. -/
inductive AttemptStep (rt : Runtime) (g : Db T) (t : T) (a : Attempt) :
    Attempt → LogStore T IdempotencyKey → LogStore T BookingChange → Prop where
  | quiet (failed : Bool) : AttemptStep rt g t a { a with failed } g.keys g.bookings
  | looked (v : Option IdempotencyKey)
      (hv : ∀ r, v = some r → keyTable.row (g.keys.visible t) r.id = some r ∧
        r.tenantId = a.tenantId ∧ r.key = a.key) (huntouched : a.Untouched) :
      AttemptStep rt g t a { a with found := some v } g.keys g.bookings
  | claimed (r : IdempotencyKey) (huntouched : a.Untouched)
      (hrow : r = ⟨r.id, a.tenantId, a.key, a.requestHash, none⟩) (hfresh : g.FreshKey r.id)
      (hcommitted : ∀ r' ∈ g.keys.committed, ¬(r'.tenantId = a.tenantId ∧ r'.key = a.key))
      (hpending : ∀ u, ∀ r' ∈ g.keys.pending u, ¬(r'.tenantId = a.tenantId ∧ r'.key = a.key)) :
      AttemptStep rt g t a { a with claimed := some r } (g.keys.pushAll t [r]) g.bookings
  | created (b : Booking) (hclaimed : a.claimed.isSome) (hnew : a.created = none) :
      AttemptStep rt g t a { a with created := some b } g.keys
        (g.bookings.pushAll t [⟨.created, b⟩])
  | stored (r : IdempotencyKey) (b : Booking) (hclaimed : a.claimed = some r)
      (hcreated : a.created = some b) (hnew : a.stored = none) :
      AttemptStep rt g t a
        { a with stored := some { r with responseBody := some (rt.instanceToPlain b) } }
        (g.keys.pushAll t [{ r with responseBody := some (rt.instanceToPlain b) }]) g.bookings
  | committed (hdone : a.Untouched ∨ a.Completed rt) :
      AttemptStep rt g t a { a with committed := some true } (g.keys.commit t)
        (g.bookings.commit t)
  | ended : AttemptStep rt g t a { a with failed := false, committed := some false }
      (g.keys.rollback t) (g.bookings.rollback t)

variable {initial : List Booking} {g : Db T} {t : T} {s : Statement}
  {r : Except SqlState s.Result}

/-- What a statement does to the attempt that issues it. -/
theorem attempt_step {a : Attempt} (hallow : (attempts rt).allows (some a) s)
    (hr : g.possible initial t s r) (hpend : g.keys.pending t = a.pendingKeys)
    (haborted : g.aborted t = a.failed) :
    ∃ a', (attempts rt).next (some a) s r = some a' ∧
      AttemptStep rt g t a a' (g.effect t s r).keys (g.effect t s r).bookings ∧
      (g.effect t s r).aborted t = a'.failed := by
  obtain ⟨hopen, hallow⟩ := hallow
  rcases r with code | v
  · -- a failure aborts the transaction, or ends it
    cases s with
    | commit => exact ⟨_, rfl, .ended, by simp [Db.effect, Db.abort, Db.rollback]⟩
    | rollback => exact ⟨_, rfl, .ended, by simp [Db.effect, Db.abort, Db.rollback]⟩
    | _ => exact ⟨_, rfl, .quiet true, by simp [Db.effect, Db.abort]⟩
  · obtain ⟨-, hret⟩ := hr
    cases s with
    | insertKey tenantId key requestHash =>
      obtain ⟨huntouched, rfl, rfl, rfl⟩ := hallow
      rcases v with - | r
      · refine ⟨a, rfl, ?_, haborted⟩
        have hsame : g.keys.pushAll t [] = g.keys := LogStore.pushAll_nil _ _
        show AttemptStep rt g t a a (g.keys.pushAll t []) g.bookings
        rw [hsame]
        exact .quiet a.failed
      · obtain ⟨hten, hkey, hhash, hbody, hfresh, hcommitted, hpending⟩ := hret
        refine ⟨_, rfl, .claimed r huntouched ?_ hfresh hcommitted hpending, haborted⟩
        rw [← hten, ← hkey, ← hhash, ← hbody]
    | findKey tenantId key =>
      obtain ⟨huntouched, rfl, rfl⟩ := hallow
      refine ⟨_, rfl, .looked v ?_ huntouched, haborted⟩
      rintro r rfl
      exact hret
    | insertBooking data =>
      obtain ⟨hclaimed, hnew⟩ := hallow
      exact ⟨_, rfl, .created v hclaimed hnew, haborted⟩
    | updateKey id body =>
      obtain ⟨r, b, hclaimed, rfl, hcreated, hnew, rfl⟩ := hallow
      -- the row to complete is the one the attempt has claimed
      have hpend' : g.keys.pending t = [r] := by
        simp [hpend, Attempt.pendingKeys, hopen, hnew, hclaimed]
      have hrow : keyTable.row (g.keys.visible t) r.id = some r := by
        rw [LogStore.visible, hpend', List.cons_append]
        exact keyTable.row_cons_self r _
      simp only [Db.returns, hrow] at hret
      obtain ⟨-, rfl⟩ := hret
      refine ⟨_, ?_, .stored r b hclaimed hcreated hnew, haborted⟩
      simp [attempts, hclaimed]
    | commit =>
      obtain ⟨hfailed, hdone⟩ := hallow
      have hnot : g.aborted t = false := haborted.trans hfailed
      have hcommit : g.effect t .commit (.ok v) = { g with
          bookings := g.bookings.commit t
          events := g.events.commit t
          keys := g.keys.commit t
          recurrences := g.recurrences.commit t
          savepoints := Function.update g.savepoints t []
          aborted := Function.update g.aborted t false } := by
        simp [Db.effect, Db.apply, Db.commit, hnot]
      refine ⟨_, rfl, ?_⟩
      rw [hcommit]
      exact ⟨.committed hdone, by simp [hfailed]⟩
    | rollback => exact ⟨_, rfl, .ended, by simp [Db.effect, Db.apply, Db.rollback]⟩
    | insertEvent tenantId input => exact ⟨a, rfl, .quiet a.failed, haborted⟩
    | insertRecurrence data => exact ⟨a, rfl, .quiet a.failed, haborted⟩
    | findService => exact ⟨a, rfl, .quiet a.failed, haborted⟩
    | findLink => exact ⟨a, rfl, .quiet a.failed, haborted⟩
    | findCustomer => exact ⟨a, rfl, .quiet a.failed, haborted⟩
    | findTenant => exact ⟨a, rfl, .quiet a.failed, haborted⟩
    | findBooking => exact ⟨a, rfl, .quiet a.failed, haborted⟩
    | _ => exact absurd hallow.2 (by simp [Statement.kind])

/-- A statement that is not about keys does not change them, in a transaction that has
written none. -/
theorem Db.effect_keys_of_empty (hk : s.kind ≠ .key) (hempty : g.keys.pending t = []) :
    (g.effect t s r).keys = g.keys := by
  have hrollback : g.keys.rollback t = g.keys := LogStore.rollback_of_empty hempty
  rcases r with code | v
  · cases s with
    | commit => exact hrollback
    | rollback => exact hrollback
    | _ => rfl
  · cases s with
    | insertKey => exact absurd rfl hk
    | updateKey => exact absurd rfl hk
    | commit =>
      show (g.commit t).keys = g.keys
      unfold Db.commit
      split
      · exact hrollback
      · exact LogStore.commit_of_empty hempty
    | rollback => exact hrollback
    -- there is nothing to cut off
    | rollbackToSavepoint i =>
      show (g.rollbackToSavepoint t i).keys = g.keys
      unfold Db.rollbackToSavepoint
      split
      · rfl
      · exact LogStore.truncate_of_empty hempty _
    | _ => rfl

/-- A statement leaves the uncommitted writes of other transactions and their failures
alone. -/
theorem Db.effect_ne {u : T} (hu : u ≠ t) :
    (g.effect t s r).keys.pending u = g.keys.pending u ∧
      (g.effect t s r).bookings.pending u = g.bookings.pending u ∧
      (g.effect t s r).aborted u = g.aborted u := by
  -- a rollback is one of the transaction only
  have hrollback : (g.rollback t).keys.pending u = g.keys.pending u ∧
      (g.rollback t).bookings.pending u = g.bookings.pending u ∧
      (g.rollback t).aborted u = g.aborted u := by
    simp [Db.rollback, hu]
  rcases r with code | v
  · cases s with
    | commit => exact hrollback
    | rollback => exact hrollback
    | _ => simp [Db.effect, Db.abort, hu]
  · cases s with
    | commit =>
      show (g.commit t).keys.pending u = _ ∧ (g.commit t).bookings.pending u = _ ∧
        (g.commit t).aborted u = _
      unfold Db.commit
      split
      · exact hrollback
      · simp [hu]
    | rollback => exact hrollback
    | rollbackToSavepoint i =>
      show (g.rollbackToSavepoint t i).keys.pending u = _ ∧
        (g.rollbackToSavepoint t i).bookings.pending u = _ ∧
        (g.rollbackToSavepoint t i).aborted u = _
      unfold Db.rollbackToSavepoint
      split <;> simp [hu]
    | _ => simp [Db.effect, Db.apply, Db.savepoint, Db.releaseSavepoint, hu]

/-- Committed bookings stay committed. -/
theorem Db.committed_subset_effect :
    g.bookings.committed ⊆ (g.effect t s r).bookings.committed := by
  rcases r with code | v
  · cases s <;> exact List.Subset.refl _
  · cases s with
    -- the pending writes are appended, or dropped by a failed transaction
    | commit =>
      show g.bookings.committed ⊆ (g.commit t).bookings.committed
      unfold Db.commit
      split
      · exact List.Subset.refl _
      · exact List.subset_append_right _ _
    | rollbackToSavepoint i =>
      show g.bookings.committed ⊆ (g.rollbackToSavepoint t i).bookings.committed
      unfold Db.rollbackToSavepoint
      split <;> exact List.Subset.refl _
    | _ => exact List.Subset.refl _

end Database

end BookingPlatform
