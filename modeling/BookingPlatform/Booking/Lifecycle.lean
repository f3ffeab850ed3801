import BookingPlatform.Booking.Footprints
import BookingPlatform.Booking.Replay
import BookingPlatform.Booking.Writes

/-!
# The Lifecycle of a Booking

Status changes check the lifecycle on a row read by one statement and write it by
another, which is guarded by the version the client sent. The check is about the row that
is written only if the client's version is not ahead of the row that was read.

## Main results

- `follows_reads`: every request writes a status or new times only after reading a row
  that permits it.
- `Lifecycle.step`: one step keeps the lifecycle, as long as no matching update carries a
  version ahead of the row its request has read.
-/

namespace BookingPlatform

open Library TenantM

/-- A write that respects the lifecycle of the row it replaces: a status change is an
edge, and a row in a terminal status keeps its status and its times. -/
def LifecycleStep (before : Option Booking) (c : BookingChange) : Prop :=
  ∀ b, before = some b →
    (c.row.status ≠ b.status → c.row.status ∈ transitions b.status) ∧
    (b.status.Terminal → c.row.status = b.status ∧ c.row.startsAt = b.startsAt ∧
      c.row.endsAt = b.endsAt)

/-! ## Reading before writing -/

/-- The discipline of writing only what the row read last permits. A phase is the id asked
for by the last successful read of a booking, with the row it returned; undoing work
forgets it. -/
def reads : Protocol Sql (Option (Uuid × Booking)) where
  allows ph s := match s with
    | .updateStatus _ id _ status => ∃ b, ph = some (id, b) ∧ status ∈ transitions b.status
    | .updateTimes _ id _ _ _ => ∃ b, ph = some (id, b) ∧ b.status ∈ activeBookingStatuses
    | _ => True
  answers _ _ _ := True
  next ph s r := match s, r with
    | .findBooking _ id, .ok (some b) => some (id, b)
    | .rollbackToSavepoint _, _ => none
    | .commit, _ => none
    | .rollback, _ => none
    | _, _ => ph

variable {α : Type}

/-- A program without updates reads before it writes. -/
theorem follows_reads_of_uses (kinds : List StatementKind) (hk : .update ∉ kinds) {p : TenantM α}
    (h : UsesOnly kinds p) (ph : Option (Uuid × Booking)) : p.Follows reads anyEnd ph := by
  refine (h.follows (I := fun _ => True) (fun ph s hs _ => ⟨?_, fun _ => trivial⟩) trivial).mono
    fun _ _ _ => trivial
  cases s with
  | updateStatus => exact absurd hs hk
  | updateTimes => exact absurd hs hk
  | _ => trivial

theorem transition_reads (tenantId id : Uuid) (version : ℤ) (target : BookingStatus)
    (ph : Option (Uuid × Booking)) :
    (BookingService.transition tenantId id version target).Follows reads anyEnd ph := by
  simp only [BookingService.transition, Prog.follows_bind, follows_getOrThrow]
  refine ⟨trivial, fun r _ => ?_⟩
  rcases r with c | _ | b
  · trivial
  · trivial
  · by_cases hcan : canTransition b.status target = true
    · simp only [assertCanTransition, hcan, if_true, Prog.follows_bind, follows_applyStatus]
      -- the row just read permits the new status
      refine ⟨⟨b, rfl, canTransition_iff.1 hcan⟩, fun r _ => ?_⟩
      rcases r with c | rows
      · trivial
      · refine follows_reads_of_uses [.read, .insert] (by decide) ?_ _
        split
        · exact uses_raise _
        · refine (uses_getOrThrow ((lookups_of_kind (by decide)).booking _)).bind fun updated => ?_
          exact (uses_emit (inserts_of_kind (by decide)).event _ _).bind fun _ => uses_ret _
    · simp [assertCanTransition, hcan]

theorem reschedule_reads (rt : Runtime) (tenantId id : Uuid) (dto : RescheduleBookingDto)
    (ifMatch : Option ℤ) (ph : Option (Uuid × Booking)) :
    (BookingService.reschedule rt tenantId id dto ifMatch).Follows reads anyEnd ph := by
  unfold BookingService.reschedule
  split
  · trivial
  · simp only [Prog.follows_bind, follows_getOrThrow]
    refine ⟨trivial, fun r _ => ?_⟩
    rcases r with c | _ | b
    · trivial
    · trivial
    · by_cases hact : b.status ∈ activeBookingStatuses
      · simp only [hact, not_true_eq_false, if_false, Prog.follows_bind, follows_getService]
        refine ⟨trivial, fun r _ => ?_⟩
        rcases r with c | _ | service
        · trivial
        · trivial
        · simp only [follows_applyReschedule]
          -- the row just read is active
          refine ⟨⟨b, rfl, hact⟩, fun r _ => ?_⟩
          rcases r with c | rows
          · trivial
          · refine follows_reads_of_uses [.read, .insert] (by decide) ?_ _
            split
            · exact uses_raise _
            · refine (uses_getOrThrow ((lookups_of_kind (by decide)).booking _)).bind
                fun updated => ?_
              exact (uses_emit (inserts_of_kind (by decide)).event _ _).bind fun _ => uses_ret _
      · simp [hact]

/-- Every request writes a status or new times only after reading a row that permits it. -/
theorem follows_reads (rt : Runtime) (q : Request) :
    (handle rt q).Follows reads anyEnd none := by
  have hroute : (route rt q).Follows reads anyEnd none := by
    unfold route
    cases q.operation with
    -- creations write no status, and a series is cancelled by one statement
    | create dto key =>
      refine Prog.follows_bind_any (follows_reads_of_uses [.read, .insert, .key]
        (by decide) ?_ _) fun _ _ => trivial
      exact uses_create (lookups_of_kind (by decide)) (inserts_of_kind (by decide))
        (fun s hs => by simp [hs]) _ _ _
    | createRecurrence dto =>
      refine Prog.follows_bind_any (follows_reads_of_uses [.read, .insert, .savepoint]
        (by decide) ?_ _) fun _ _ => trivial
      exact uses_recurrenceCreate (lookups_of_kind (by decide)) (inserts_of_kind (by decide))
        (by simp [Statement.kind]) (savepoints_of_kind (by decide)) _ _
    -- the others read the row in the same transaction
    | confirm id version => exact Prog.follows_bind_any (transition_reads ..) fun _ _ => trivial
    | complete id version => exact Prog.follows_bind_any (transition_reads ..) fun _ _ => trivial
    | cancel id version => exact Prog.follows_bind_any (transition_reads ..) fun _ _ => trivial
    | noShow id version => exact Prog.follows_bind_any (transition_reads ..) fun _ _ => trivial
    | reschedule id dto ifMatch =>
      exact Prog.follows_bind_any (reschedule_reads ..) fun _ _ => trivial
    | cancelSeries id =>
      refine Prog.follows_bind_any (follows_reads_of_uses [.read, .insert, .series]
        (by decide) ?_ _) fun _ _ => trivial
      have hlookups : HasLookups (fun s => s.kind ∈ [.read, .insert, .series]) q.tenantId :=
        lookups_of_kind (by decide)
      have hinserts : HasInserts (fun s => s.kind ∈ [.read, .insert, .series]) q.tenantId :=
        inserts_of_kind (by decide)
      exact uses_cancelSeries hlookups.booking hinserts.event (by decide)
        (by simp [Statement.kind]) _
  refine follows_inTransaction.2 (hroute.mono fun ph r _ => ?_)
  rcases r with error | value
  · exact ⟨trivial, fun _ _ => trivial⟩
  · exact ⟨trivial, fun r _ => by rcases r with c | v <;> trivial⟩

/-! ## Sessions and the rows they have read -/

section World

variable {T : Type} [DecidableEq T]

/-- The id and row of the last booking that session `t` has read. -/
def lastRead (w : World Sql T (Db T) Request Thrown Response) (t : T) : Option (Uuid × Booking) :=
  Server.tracePhase reads none (fun _ => none) w t

/-- If an update of `id` with `version` by session `t` matches the current row, the
version is not ahead of the row the session has read. -/
def VersionNotAhead (initial : List Booking) (w : World Sql T (Db T) Request Thrown Response)
    (t : T) (tenantId id : Uuid) (version : ℤ) : Prop :=
  ∀ current, w.shared.tenantBooking initial t tenantId id = some current →
    current.version = version → ∀ b, lastRead w t = some (id, b) → version ≤ b.version

/-- No client sends a version that is ahead of the row its request reads and yet matches
when its update is executed. -/
def NoVersionAhead (initial : List Booking) (w : World Sql T (Db T) Request Thrown Response) :
    Label Sql T Request → Prop
  | .call t ⟨.updateStatus tenantId id version _, _⟩ =>
    VersionNotAhead initial w t tenantId id version
  | .call t ⟨.updateTimes tenantId id version _ _, _⟩ =>
    VersionNotAhead initial w t tenantId id version
  | _ => True

variable (rt : Runtime) (initial : List Booking)

def readsTracker : Tracker (bookingServer (T := T) rt initial) reads none (fun _ => none) :=
  Server.traceTracker _ _ _ _ fun _ _ _ => trivial

/-- What the lifecycle rests on: every session reads before it writes, all writes so far
respect the lifecycle, and a row a session has read is current or has been replaced by one
with a higher version. -/
structure LifecycleInv (w : World Sql T (Db T) Request Thrown Response) : Prop where
  reads : (readsTracker rt initial).Conforms anyEnd w
  serial : w.shared.bookings.Serial (bookingTable initial)
    fun before c => Versioned before c ∧ LifecycleStep before c
  notNewer : ∀ t id b, lastRead w t = some (id, b) →
    ∃ b', w.shared.booking initial t id = some b' ∧ b.NotNewer b'

end World

namespace Db

variable {T : Type} [DecidableEq T] {initial : List Booking} {g : Db T} {t : T}
  {P : Option Booking → BookingChange → Prop} {s : Statement}
  {bookings : LogStore T BookingChange}

/-- A statement of another transaction leaves a row as it is or replaces it by one with a
higher version. -/
theorem BookingEffect.row_ne (h : BookingEffect initial g t s bookings)
    (hg : g.bookings.Serial (bookingTable initial) P)
    (hP : ∀ before c, P before c → Versioned before c) {u : T} (hu : u ≠ t) {id : Uuid}
    {b : Booking} (hb : g.booking initial u id = some b) :
    ∃ b', (bookingTable initial).row (bookings.visible u) id = some b' ∧ b.NotNewer b' := by
  cases h with
  | write cs => exact ⟨b, by rwa [LogStore.pushAll_visible_ne _ hu], .inl rfl⟩
  | rollback => exact ⟨b, by rwa [LogStore.rollback_visible_ne _ hu], .inl rfl⟩
  | truncate i n => exact ⟨b, by rwa [LogStore.truncate_visible_ne _ hu], .inl rfl⟩
  | commit =>
    exact hg.row_commit_rel (R := Booking.NotNewer) (fun _ => .inl rfl)
      (fun _ _ _ => Booking.NotNewer.trans) (fun v c hc => (hP _ c hc).notNewer) hu hb

/-- A statement that neither ends its transaction nor returns to a savepoint leaves a row
as it is or replaces it by one with a higher version. -/
theorem BookingEffect.row_self (h : BookingEffect initial g t s bookings)
    (hs : s ≠ .commit ∧ s ≠ .rollback ∧ ∀ i, s ≠ .rollbackToSavepoint i)
    (hg : bookings.Serial (bookingTable initial) P)
    (hP : ∀ before c, P before c → Versioned before c) {id : Uuid} {b : Booking}
    (hb : g.booking initial t id = some b) :
    ∃ b', (bookingTable initial).row (bookings.visible t) id = some b' ∧ b.NotNewer b' := by
  cases h with
  | write cs =>
    have hlinked := hg.linked t
    rw [LogStore.pushAll_visible_self] at hlinked ⊢
    exact hlinked.row_rel (R := Booking.NotNewer) (fun _ => .inl rfl)
      (fun _ _ _ => Booking.NotNewer.trans) (fun v c hc => (hP _ c hc).notNewer) hb
  | commit hc => exact absurd hc hs.1
  | rollback hc => exact (hc.elim hs.1 hs.2.1).elim
  | truncate i n hc => exact absurd hc (hs.2.2 i)

end Db

/-! ## One step -/

section Step

variable {T : Type} [DecidableEq T] {rt : Runtime} {initial : List Booking}
  {w w' : World Sql T (Db T) Request Thrown Response}

omit [DecidableEq T] in
/-- A write by a session that has read a permitting row, and whose version is not ahead of
it, respects the lifecycle. -/
theorem lifecycleStep_of_writes {t : T} {s : Statement} {r : Except SqlState s.Result}
    {before : Option Booking} {c : BookingChange}
    (hread : reads.allows (lastRead w t) s)
    (hnew : ∀ id b, lastRead w t = some (id, b) →
      ∃ b', w.shared.booking initial t id = some b' ∧ b.NotNewer b')
    (hguard : NoVersionAhead initial w (.call t ⟨s, r⟩))
    (hw : s.Writes before c) (hrow : w.shared.booking initial t c.row.id = before) :
    LifecycleStep before c := by
  -- the row written is the row read: it is not older, and its version is not ahead
  have same : ∀ {tenantId id : Uuid} {b read : Booking},
      w.shared.booking initial t id = some b → b.tenantId = tenantId →
      lastRead w t = some (id, read) →
      VersionNotAhead initial w t tenantId id b.version → b = read := by
    intro tenantId id b read hb hten hlast hahead
    obtain ⟨b', hb', hor⟩ := hnew id read hlast
    obtain rfl : b = b' := Option.some.inj (hb.symm.trans hb')
    have hle := hahead b (Db.tenantBooking_eq_some.2 ⟨hb, hten⟩) rfl read hlast
    rcases hor with heq | hlt
    · exact heq.symm
    · exact absurd hle (Int.not_le.2 hlt)
  cases s with
  | insertBooking data =>
    obtain ⟨rfl, -, -⟩ := hw
    intro b hb
    cases hb
  | updateStatus tenantId id version status =>
    obtain ⟨b, rfl, rfl, hten, rfl, rfl⟩ := hw
    obtain ⟨read, hlast, hedge⟩ := hread
    obtain rfl := same hrow hten hlast hguard
    intro b' hb'
    cases hb'
    exact ⟨fun _ => hedge, fun hterm => absurd (canTransition_active hedge) hterm⟩
  | updateTimes tenantId id version startsAt endsAt =>
    obtain ⟨b, s, e, rfl, rfl, hten, rfl, -, -, rfl⟩ := hw
    obtain ⟨read, hlast, hact⟩ := hread
    obtain rfl := same hrow hten hlast hguard
    intro b' hb'
    cases hb'
    exact ⟨fun hne => absurd rfl hne, fun hterm => absurd hact hterm⟩
  | cancelSeries tenantId recurrenceId now =>
    obtain ⟨b, rfl, -, -, hact, -, rfl⟩ := hw
    intro b' hb'
    cases hb'
    exact ⟨fun _ => cancelled_mem_transitions hact, fun hterm => absurd hact hterm⟩
  | _ => exact hw.elim

/-- What a session has read last is still there after its own statement, possibly with a
higher version. -/
theorem notNewer_self {t : T} {s : Statement} {r : Except SqlState s.Result}
    {P : Option Booking → BookingChange → Prop} {g : Db T} {last : Option (Uuid × Booking)}
    (hr : g.possible initial t s r)
    (hserial : (g.effect t s r).bookings.Serial (bookingTable initial) P)
    (hP : ∀ before c, P before c → Versioned before c)
    (hnew : ∀ id b, last = some (id, b) →
      ∃ b', g.booking initial t id = some b' ∧ b.NotNewer b') {id : Uuid} {b : Booking}
    (hlast : reads.next last s r = some (id, b)) :
    ∃ b', (g.effect t s r).booking initial t id = some b' ∧ b.NotNewer b' := by
  -- a statement that reads nothing and undoes nothing
  have keep : s ≠ .commit ∧ s ≠ .rollback ∧ (∀ i, s ≠ .rollbackToSavepoint i) →
      last = some (id, b) →
      ∃ b', (g.effect t s r).booking initial t id = some b' ∧ b.NotNewer b' := by
    intro hs heq
    obtain ⟨b₁, hb₁, hn₁⟩ := hnew id b heq
    obtain ⟨b₂, hb₂, hn₂⟩ := (Db.effect_bookings hr).row_self hs hserial hP hb₁
    exact ⟨b₂, hb₂, hn₁.trans hn₂⟩
  cases s with
  | findBooking tenantId id' =>
    rcases r with c | _ | found
    · exact keep (by simp) hlast
    · exact keep (by simp) hlast
    · cases hlast
      have hfound := hr.2
      exact ⟨b, (Db.tenantBooking_eq_some.1 hfound.symm).1, .inl rfl⟩
  | commit => cases hlast
  | rollback => cases hlast
  | rollbackToSavepoint i => cases hlast
  | _ => exact keep (by simp) hlast

/-- One step keeps the lifecycle invariant, as long as no version is ahead. -/
theorem LifecycleInv.step (h : LifecycleInv rt initial w) {l : Label Sql T Request}
    (hguard : NoVersionAhead initial w l) (hs : World.Step (bookingServer rt initial) w l w') :
    LifecycleInv rt initial w' := by
  have hreads := h.reads.step (follows_reads rt) hs
  have hversioned : ∀ before c, Versioned before c ∧ LifecycleStep before c →
      Versioned before c := fun _ _ hc => hc.1
  cases hs with
  | @start t q hidle =>
    refine ⟨hreads, h.serial, fun u id b hlast => ?_⟩
    by_cases hu : u = t
    · subst hu
      have := (readsTracker rt initial).start_eq w u q hidle (h.reads.phase_idle hidle)
      cases this.symm.trans hlast
    · exact h.notNewer u id b (((readsTracker rt initial).start_frame w t q u hu).symm.trans hlast)
  -- the write is licensed by the row the session has read, which may be older by now: as no version
  -- is ahead, the conditional update meets that very version or none
  | @call t q tr s k r hat hr =>
    have hserial := (Db.effect_bookings hr).serial h.serial fun before c hw hrow =>
      ⟨hw.versioned, lifecycleStep_of_writes (h.reads.allows hat) (h.notNewer t) hguard hw hrow⟩
    refine ⟨hreads, hserial, fun u id b hlast => ?_⟩
    by_cases hu : u = t
    · subst hu
      refine notNewer_self hr hserial hversioned (h.notNewer u) ?_
      exact ((readsTracker rt initial).call_eq w u q s k tr r hat hr).symm.trans hlast
    · have hframe := (readsTracker rt initial).call_frame w t q (k r) tr s r u hu
      obtain ⟨b₁, hb₁, hn₁⟩ := h.notNewer u id b (hframe.symm.trans hlast)
      obtain ⟨b₂, hb₂, hn₂⟩ := (Db.effect_bookings hr).row_ne h.serial hversioned hu hb₁
      exact ⟨b₂, hb₂, hn₁.trans hn₂⟩
  | @crash t σ hat hrun =>
    refine ⟨hreads, h.serial.rollback t, fun u id b hlast => ?_⟩
    by_cases hu : u = t
    · subst hu
      cases ((readsTracker rt initial).crash_eq w u).symm.trans hlast
    · have hframe := (readsTracker rt initial).crash_frame w t u hu
      obtain ⟨b', hb', hn⟩ := h.notNewer u id b (hframe.symm.trans hlast)
      exact ⟨b', by rwa [Db.booking, ← LogStore.rollback_visible_ne _ hu] at hb', hn⟩
  | @env g hg =>
    obtain ⟨catalog, rfl⟩ := hg
    exact ⟨hreads, h.serial, h.notNewer⟩

end Step

/-! ## All runs -/

section Runs

variable {T : Type} [DecidableEq T]

/-- The lifecycle holds of a committed history of writes over the rows `initial`: every
write respects it, and a row that is in a terminal status at some moment of the history
keeps its status and its times to the end. -/
def KeepsLifecycle (initial : List Booking) (history : List BookingChange) : Prop :=
  (∀ later c earlier, history = later ++ c :: earlier →
    LifecycleStep ((bookingTable initial).row earlier c.row.id) c) ∧
  ∀ later earlier id b, history = later ++ earlier →
    (bookingTable initial).row earlier id = some b → b.status.Terminal →
    ∃ b', (bookingTable initial).row history id = some b' ∧ b'.status = b.status ∧
      b'.startsAt = b.startsAt ∧ b'.endsAt = b.endsAt

theorem keepsLifecycle_of_linked {initial : List Booking} {history : List BookingChange}
    (h : (bookingTable initial).Linked LifecycleStep history) :
    KeepsLifecycle initial history := by
  refine ⟨fun later c earlier heq => ?_, fun later earlier id b heq hb hterm => ?_⟩
  · rw [heq] at h
    exact h.at_split
  · subst heq
    -- being finished, with what is then kept, is passed along the history
    obtain ⟨b', hb', hR⟩ := h.row_rel
      (R := fun b b' => b.status.Terminal → b'.status = b.status ∧
        b'.startsAt = b.startsAt ∧ b'.endsAt = b.endsAt)
      (fun _ _ => ⟨rfl, rfl, rfl⟩)
      (fun u v x huv hvx hu => by
        obtain ⟨hs, ha, he⟩ := huv hu
        obtain ⟨hs', ha', he'⟩ := hvx (by rwa [hs])
        exact ⟨hs'.trans hs, ha'.trans ha, he'.trans he⟩)
      (fun v c hc => (hc v rfl).2) hb
    exact ⟨b', hb', hR hterm⟩

theorem LifecycleInv.fresh (rt : Runtime) (initial : List Booking) {g₀ : Db T}
    (h₀ : g₀.bookings = .empty) : LifecycleInv rt initial (World.fresh g₀) where
  reads _ := rfl
  serial := by
    rw [World.fresh_shared, h₀]
    exact .empty
  notNewer _ _ _ hlast := by cases hlast

/-- In every run in which no client sends a version ahead of the row its request reads,
the committed bookings keep the lifecycle. -/
theorem committed_keepsLifecycle (rt : Runtime) (initial : List Booking) {g₀ : Db T}
    {w : World Sql T (Db T) Request Thrown Response} (h₀ : g₀.bookings = .empty)
    (hrun : Runs (World.Step (bookingServer rt initial)) (NoVersionAhead initial)
      (World.fresh g₀) w) :
    KeepsLifecycle initial w.shared.bookings.committed := by
  have hinv := hrun.invariant (I := LifecycleInv rt initial)
    (fun _ _ _ h hguard hs => h.step hguard hs) (.fresh rt initial h₀)
  exact keepsLifecycle_of_linked (hinv.serial.committed.mono fun _ _ h => h.2)

end Runs

/-! ## Sample runs -/

instance {T : Type} (initial : List Booking) (w : World Sql T (Db T) Request Thrown Response)
    (t : T) (tenantId id : Uuid) (version : ℤ) :
    Decidable (VersionNotAhead initial w t tenantId id version) :=
  decidable_of_iff (∀ current ∈ w.shared.tenantBooking initial t tenantId id,
      current.version = version → ∀ p ∈ lastRead w t, p.1 = id → version ≤ p.2.version) <| by
    refine forall₂_congr fun current _ => imp_congr_right fun _ => ⟨fun h b hb => ?_, ?_⟩
    · exact h (id, b) hb rfl
    · rintro h ⟨_, b⟩ hb rfl
      exact h b hb

/-- A test for `NoVersionAhead`. -/
def noVersionAhead {T : Type} (initial : List Booking)
    (w : World Sql T (Db T) Request Thrown Response) : Label Sql T Request → Bool
  | .call t ⟨.updateStatus tenantId id version _, _⟩ =>
    decide (VersionNotAhead initial w t tenantId id version)
  | .call t ⟨.updateTimes tenantId id version _ _, _⟩ =>
    decide (VersionNotAhead initial w t tenantId id version)
  | _ => true

theorem noVersionAhead_sound {T : Type} (initial : List Booking)
    (w : World Sql T (Db T) Request Thrown Response) (l : Label Sql T Request)
    (h : noVersionAhead initial w l = true) : NoVersionAhead initial w l := by
  rcases l with ⟨t, q⟩ | ⟨t, s, r⟩ | t | -
  · trivial
  · cases s with
    | updateStatus => exact of_decide_eq_true (p := VersionNotAhead ..) h
    | updateTimes => exact of_decide_eq_true (p := VersionNotAhead ..) h
    | _ => trivial
  · trivial
  · trivial

/-- A confirm and a cancel that both send the version they saw, one after the other. -/
def confirmThenCancel : List (Move Bool Request Choice) :=
  [.start true ⟨1, .confirm 1 1⟩, .go true (.succeed 0), .go true (.succeed 0),
    .go true (.succeed 0), .go true (.succeed 1), .go true (.succeed 0),
    .start false ⟨1, .cancel 1 2⟩, .go false (.succeed 0), .go false (.succeed 0),
    .go false (.succeed 0), .go false (.succeed 2), .go false (.succeed 0)]

theorem committed_keepsLifecycle_confirmThenCancel :
    ∃ w : World Sql Bool (Db Bool) Request Thrown Response,
      (w.shared.bookings.committed.map fun c => (c.row.status, c.row.version)) =
        [(.cancelled, 3), (.confirmed, 2)] ∧
      KeepsLifecycle [sampleBooking] w.shared.bookings.committed := by
  obtain ⟨w, hrun, hw⟩ := (bookingResponder sampleRuntime [sampleBooking]).exists_run
    (noVersionAhead_sound [sampleBooking]) (World.fresh sampleDb) confirmThenCancel
    (fun w => (w.shared.bookings.committed.map fun c => (c.row.status, c.row.version)) =
      [(.cancelled, 3), (.confirmed, 2)]) (by decide)
  exact ⟨w, of_decide_eq_true hw, committed_keepsLifecycle sampleRuntime [sampleBooking] rfl hrun⟩

/-- A confirm whose version 2 is ahead of the pending row it reads, overtaken by a cancel
that brings the row to version 2. -/
def confirmAhead : List (Move Bool Request Choice) :=
  [.start true ⟨1, .confirm 1 2⟩, .start false ⟨1, .cancel 1 1⟩, .go true (.succeed 0),
    .go false (.succeed 0), .go false (.succeed 0), .go false (.succeed 0),
    .go false (.succeed 1), .go false (.succeed 0), .go true (.succeed 0),
    .go true (.succeed 0), .go true (.succeed 2), .go true (.succeed 0)]

/-- The overtaken confirm makes a cancelled booking confirmed. -/
theorem confirmAhead_breaks_lifecycle :
    ∃ w : World Sql Bool (Db Bool) Request Thrown Response,
      Runs (World.Step (bookingServer sampleRuntime [sampleBooking])) anyStep
        (World.fresh sampleDb) w ∧
      ¬KeepsLifecycle [sampleBooking] w.shared.bookings.committed := by
  obtain ⟨w, hrun, hw⟩ := (bookingResponder sampleRuntime [sampleBooking]).exists_anyRun
    (World.fresh sampleDb) confirmAhead
    (fun w => w.shared.bookings.committed =
      [⟨.status .confirmed, (sampleBooking.setStatus .cancelled).setStatus .confirmed⟩,
        ⟨.status .cancelled, sampleBooking.setStatus .cancelled⟩]) (by decide)
  refine ⟨w, hrun, fun h => ?_⟩
  rw [of_decide_eq_true hw] at h
  have hedge := (h.1 [] _ _ rfl _ rfl).1 (by decide)
  exact absurd hedge (by decide)

end BookingPlatform
