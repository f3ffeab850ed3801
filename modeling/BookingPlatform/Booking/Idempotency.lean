import BookingPlatform.Booking.KeyInvariant
import BookingPlatform.Booking.Replay
import BookingPlatform.Booking.Retry

/-!
# One Booking per Idempotency-Key

Any number of attempts under any keys, interleaved statement by statement with all other
booking requests. Whatever the order, an Idempotency-Key stands for at most one booking,
and every other attempt under it gets the response of the one that made it, is refused,
or fails.

## Main results

- `KeyedInv.step`: every step of the interleaving keeps the keys in order.
- `committed_keys`: what an Idempotency-Key promises in every reachable world.
-/

namespace BookingPlatform

open Library

variable {T : Type} {rt : Runtime}

/-! ## All requests -/

section World

variable [DecidableEq T] {initial : List Booking}
  {w w' : World Sql T (Db T) Request Thrown Response}

/-- Attempts tracked by what their sessions have done. -/
def attemptTracker (rt : Runtime) (initial : List Booking) :
    Tracker (bookingServer (T := T) rt initial) (attempts rt) none (startAttempt rt) :=
  Server.traceTracker _ _ _ _ fun _ _ _ => trivial

/-- The attempt that session `t` is making. -/
def attemptOf (rt : Runtime) (w : World Sql T (Db T) Request Thrown Response) (t : T) :
    Option Attempt :=
  Server.tracePhase (attempts rt) none (startAttempt rt) w t

/-- What holds of the keys and attempts of every reachable world. -/
structure KeyedInv (rt : Runtime) (initial : List Booking)
    (w : World Sql T (Db T) Request Thrown Response) : Prop where
  conforms : (attemptTracker rt initial).Conforms (Attempt.Ends rt) w
  keys : KeysInv rt w.shared (attemptOf rt w)
  idle : ∀ t, w.session t = none → w.shared.aborted t = false
  bounded : w.shared.Bounded
  trace : ∀ t σ a, w.session t = some σ → attemptOf rt w t = some a → a.claimed = none →
    ∀ x ∈ σ.trace, x.1.kind = .key ∨ x.1.kind = .finish

/-- The phase of one session changes. -/
theorem attemptOf_update {t : T} {o : Option Attempt} (hself : attemptOf rt w' t = o)
    (hne : ∀ u, u ≠ t → attemptOf rt w' u = attemptOf rt w u) :
    attemptOf rt w' = Function.update (attemptOf rt w) t o := by
  funext u
  by_cases hu : u = t
  · subst hu
    rw [Function.update_self, hself]
  · rw [Function.update_of_ne hu, hne u hu]

/-- An attempt that has not ended is still open. -/
theorem KeyedInv.open_of_running (h : KeyedInv rt initial w) {t : T} {q : Request} {s : Statement}
    {k : Sql.Ans s → TenantM Response} {tr : List (Exchange Sql)}
    (hat : w.session t = some ⟨q, .call s k, tr⟩) {a : Attempt} (ha : attemptOf rt w t = some a) :
    (attempts rt).allows (some a) s := by
  have hallow := h.conforms.allows hat
  rwa [show (attemptTracker rt initial).phase w t = some a from ha] at hallow

/-- A statement by which an attempt has still claimed nothing is about keys, or ends it. -/
theorem AttemptStep.kind {g : Db T} {t : T} {a a' : Attempt} {s : Statement}
    (hallow : (attempts rt).allows (some a) s) {keys : LogStore T IdempotencyKey}
    {bookings : LogStore T BookingChange} (hstep : AttemptStep rt g t a a' keys bookings)
    (hnone : a'.claimed = none) :
    a.claimed = none ∧ (s.kind = .key ∨ s.kind = .finish) := by
  have hclaimed : a.claimed = none := by
    cases hstep with
    | claimed r => cases hnone
    | _ => exact hnone
  refine ⟨hclaimed, ?_⟩
  obtain ⟨-, hallow⟩ := hallow
  -- everything else is issued after the claim only
  have hno : a.claimed.isSome → s.kind = .key ∨ s.kind = .finish := fun h => by simp [hclaimed] at h
  cases s with
  | insertKey => exact .inl rfl
  | findKey => exact .inl rfl
  | updateKey => exact .inl rfl
  | commit => exact .inr rfl
  | rollback => exact .inr rfl
  | insertBooking => exact hno hallow.1
  | _ => exact hno hallow.1

/-- One statement: either the session is no attempt and the keys stay as they are, or it
is one step of its attempt. -/
theorem KeyedInv.call (h : KeyedInv rt initial w) {t : T} {q : Request} {s : Statement}
    {k : Sql.Ans s → TenantM Response} {tr : List (Exchange Sql)} {r : Sql.Ans s}
    (hat : w.session t = some ⟨q, .call s k, tr⟩) (hr : w.shared.possible initial t s r) :
    (attemptOf rt w t = none ∧ (w.shared.effect t s r).keys = w.shared.keys ∧
        attemptOf rt (w.answered (bookingServer rt initial) t q (k r) tr s r) = attemptOf rt w) ∨
      ∃ a a', attemptOf rt w t = some a ∧ (attempts rt).allows (some a) s ∧
        AttemptStep rt w.shared t a a' (w.shared.effect t s r).keys
          (w.shared.effect t s r).bookings ∧
        (w.shared.effect t s r).aborted t = a'.failed ∧
        attemptOf rt (w.answered (bookingServer rt initial) t q (k r) tr s r) =
          Function.update (attemptOf rt w) t (some a') := by
  have hself := (attemptTracker rt initial).call_eq w t q s k tr r hat hr
  have hframe := fun u => (attemptTracker rt initial).call_frame w t q (k r) tr s r u
  cases hph : attemptOf rt w t with
  -- no attempt: the statement is not about keys
  | none =>
    have hallow := h.conforms.allows hat
    rw [show (attemptTracker rt initial).phase w t = none from hph] at hself hallow
    refine .inl ⟨rfl, Db.effect_keys_of_empty hallow (h.keys.other t hph), ?_⟩
    rw [attemptOf_update hself hframe]
    exact Function.update_eq_self_iff.2 hph.symm
  -- an attempt moves by the statement as `attempt_step` says
  | some a =>
    have hallow := h.open_of_running hat hph
    have hsound := h.keys.sound t a hph
    obtain ⟨a', hnext, hstep, haborted⟩ := attempt_step hallow hr hsound.pending hsound.aborted
    rw [show (attemptTracker rt initial).phase w t = some a from hph, hnext] at hself
    exact .inr ⟨a, a', rfl, hallow, hstep, haborted, attemptOf_update hself hframe⟩

theorem KeyedInv.step (h : KeyedInv rt initial w) {l : Label Sql T Request}
    (hs : World.Step (bookingServer rt initial) w l w') : KeyedInv rt initial w' := by
  have hconforms := h.conforms.step (follows_attempts rt) hs
  cases hs with
  | @start t q hidle =>
    have hnone : attemptOf rt w t = none := h.conforms.phase_idle hidle
    have hof : attemptOf rt (w.start (bookingServer rt initial) t q) =
        Function.update (attemptOf rt w) t (startAttempt rt q) :=
      attemptOf_update ((attemptTracker rt initial).start_eq w t q hidle hnone)
        ((attemptTracker rt initial).start_frame w t q)
    refine ⟨hconforms, ?_, fun u hu => ?_, h.bounded, fun u σ a hu ha hclaimed => ?_⟩
    · rw [hof]
      exact h.keys.start hnone (h.idle t hidle) q
    · rw [World.start_session] at hu
      split at hu
      · cases hu
      · exact h.idle u hu
    · rw [World.start_session] at hu
      split at hu
      · cases hu
        simp
      · rename_i hut
        rw [hof, Function.update_of_ne hut] at ha
        exact h.trace u σ a hu ha hclaimed
  | @call t q tr s k r hat hr =>
    have hidle : ∀ u, (w.answered (bookingServer rt initial) t q (k r) tr s r).session u = none →
        (w.shared.effect t s r).aborted u = false := by
      intro u hu
      rw [World.answered_session] at hu
      split at hu
      · cases hu
      · rename_i hut
        exact (Db.effect_ne hut).2.2.trans (h.idle u hu)
    have hbounded : (w.shared.effect t s r).Bounded := h.bounded.moves Db.moves_effect
    rcases h.call hat hr with ⟨hph, hkeys, hof⟩ | ⟨a, a', hph, hallow, hstep, haborted, hof⟩
    · refine ⟨hconforms, ?_, hidle, hbounded, fun u σ a hu ha hclaimed => ?_⟩
      · rw [hof]
        refine h.keys.frame hkeys (fun u a hu => ?_) Db.committed_subset_effect
        have hut : u ≠ t := by
          rintro rfl
          exact absurd (hph.symm.trans hu) nofun
        exact (Db.effect_ne hut).2
      · rw [hof] at ha
        rw [World.answered_session] at hu
        split at hu
        · rename_i hut
          subst hut
          exact absurd (hph.symm.trans ha) nofun
        · exact h.trace u σ a hu ha hclaimed
    · refine ⟨hconforms, ?_, hidle, hbounded, fun u σ a'' hu ha hclaimed => ?_⟩
      · rw [hof]
        exact h.keys.statement hph hallow.1 hstep haborted (fun u hut => Db.effect_ne hut)
          Db.committed_subset_effect
      · rw [hof] at ha
        rw [World.answered_session] at hu
        split at hu
        · rename_i hut
          subst hut
          rw [Function.update_self] at ha
          cases hu
          cases ha
          obtain ⟨hnone, hkind⟩ := hstep.kind hallow hclaimed
          intro x hx
          rcases List.mem_append.1 hx with hx | hx
          · exact h.trace u _ a hat hph hnone x hx
          · rw [List.mem_singleton] at hx
            subst hx
            exact hkind
        · rename_i hut
          rw [Function.update_of_ne hut] at ha
          exact h.trace u σ a'' hu ha hclaimed
  | @crash t σ hat hrun =>
    have hof : attemptOf rt (w.crashed (bookingServer rt initial) t) =
        Function.update (attemptOf rt w) t none :=
      attemptOf_update ((attemptTracker rt initial).crash_eq w t)
        ((attemptTracker rt initial).crash_frame w t)
    refine ⟨hconforms, ?_, fun u hu => ?_, h.bounded.moves Db.moves_rollback,
      fun u σ' a hu ha hclaimed => ?_⟩
    · rw [hof]
      refine h.keys.crash fun a ha => ?_
      -- a session with a statement left has not committed
      obtain ⟨q, p, tr⟩ := σ
      cases p with
      | ret v => cases hrun
      | raise e => cases hrun
      | call s k =>
        rw [(h.open_of_running hat ha).1]
        exact nofun
    · show (w.shared.rollback t).aborted u = false
      rw [World.crashed_session] at hu
      by_cases hut : u = t
      · subst hut
        simp [Db.rollback]
      · simpa [Db.rollback, hut] using h.idle u (by simpa [hut] using hu)
    · rw [World.crashed_session] at hu
      split at hu
      · cases hu
      · rename_i hut
        rw [hof, Function.update_of_ne hut] at ha
        exact h.trace u σ' a hu ha hclaimed
  | @env g hg =>
    obtain ⟨catalog, rfl⟩ := hg
    refine ⟨hconforms, ?_, h.idle, ?_, h.trace⟩
    · exact h.keys.frame rfl (fun _ _ _ => ⟨rfl, rfl⟩) (List.Subset.refl _)
    · exact ⟨h.bounded.bookings, h.bounded.keys, h.bounded.events⟩

theorem KeyedInv.fresh (rt : Runtime) (initial : List Booking) {g₀ : Db T} (h₀ : g₀.Initial) :
    KeyedInv rt initial (World.fresh g₀) where
  conforms t := by
    show attemptOf rt (World.fresh g₀) t = none
    simp [attemptOf, Server.tracePhase]
  keys := by
    -- nobody has started, and the tables of keys are empty
    have hnone : ∀ t, attemptOf rt (World.fresh g₀) t = none := fun t => by
      simp [attemptOf, Server.tracePhase]
    refine ⟨fun t a ha => ?_, fun t _ => ?_, fun r hr => ?_, fun t u a a' r r' ha => ?_⟩
    · exact absurd ((hnone t).symm.trans ha) nofun
    · simp [h₀.keys]
    · simp [h₀.keys] at hr
    · exact absurd ((hnone t).symm.trans ha) nofun
  idle t _ := h₀.aborted t
  bounded := by
    refine ⟨?_, ?_, ?_⟩
    · rw [World.fresh_shared, h₀.bookings]
      exact LogStore.bounded_empty
    · rw [World.fresh_shared, h₀.keys]
      exact LogStore.bounded_empty
    · rw [World.fresh_shared, h₀.events]
      exact LogStore.bounded_empty
  trace t σ a hσ := by simp at hσ

theorem KeyedInv.run (h : KeyedInv rt initial w)
    (hrun : Runs (World.Step (bookingServer rt initial)) anyStep w w') : KeyedInv rt initial w' :=
  hrun.invariant (fun _ _ _ h _ hs => h.step hs) h

/-! ## The promise of a key -/

/-- A committed row of a key stays as it is. -/
theorem KeyedInv.row_step (h : KeyedInv rt initial w) {l : Label Sql T Request}
    (hs : World.Step (bookingServer rt initial) w l w') {r : IdempotencyKey}
    (hr : keyTable.row w.shared.keys.committed r.id = some r) :
    keyTable.row w'.shared.keys.committed r.id = some r := by
  cases hs with
  | start => exact hr
  | @call t q tr s k r' hat hr' =>
    rcases h.call hat hr' with ⟨-, hkeys, -⟩ | ⟨a, a', hph, hallow, hstep, -⟩
    · show keyTable.row (w.shared.effect t s r').keys.committed r.id = some r
      rw [hkeys]
      exact hr
    · exact h.keys.rows hph hallow.1 hstep hr
  | crash => exact hr
  | env hg =>
    obtain ⟨catalog, rfl⟩ := hg
    exact hr

/-- The attempt is one under `key` of `tenantId`. -/
def Attempt.IsFor (a : Attempt) (tenantId : Uuid) (key : String) : Prop :=
  a.tenantId = tenantId ∧ a.key = key

/-- An attempt claims its key only while no row of the key is committed. -/
theorem KeyedInv.unclaimed_step (h : KeyedInv rt initial w) {l : Label Sql T Request}
    (hs : World.Step (bookingServer rt initial) w l w') {r : IdempotencyKey}
    (hr : keyTable.row w.shared.keys.committed r.id = some r) {t : T}
    (hnone : ∀ a, attemptOf rt w t = some a → a.IsFor r.tenantId r.key → a.claimed = none) :
    ∀ a, attemptOf rt w' t = some a → a.IsFor r.tenantId r.key → a.claimed = none := by
  cases hs with
  | @start u q hidle =>
    intro a ha hfor
    by_cases htu : t = u
    · subst htu
      have hself := (attemptTracker rt initial).start_eq w t q hidle
        (h.conforms.phase_idle hidle)
      obtain hstart : startAttempt rt q = some a := hself.symm.trans ha
      have hsound := (h.keys.start (h.conforms.phase_idle hidle) (h.idle t hidle) q).sound t a
        (by rw [Function.update_self, hstart])
      unfold startAttempt at hstart
      split at hstart
      · split at hstart
        · cases hstart
        · cases hstart
          rfl
      · cases hstart
    · exact hnone a (((attemptTracker rt initial).start_frame w u q t htu).symm.trans ha) hfor
  | @call u q tr s k x hat hx =>
    intro a ha hfor
    rcases h.call hat hx with ⟨-, -, hof⟩ | ⟨a₀, a₁, hph, hallow, hstep, -, hof⟩
    · rw [hof] at ha
      exact hnone a ha hfor
    · rw [hof] at ha
      by_cases htu : t = u
      · subst htu
        rw [Function.update_self] at ha
        obtain rfl := Option.some.inj ha
        generalize (w.shared.effect t s x).keys = keys at hstep
        generalize (w.shared.effect t s x).bookings = bookings at hstep
        cases hstep with
        | claimed r' _ _ _ hcommitted _ =>
          -- the claim would have met the committed row
          rcases keyTable.row_eq_some hr with ⟨e, he, -, rfl⟩ | hbase
          · exact absurd ⟨hfor.1.symm, hfor.2.symm⟩ (hcommitted e he)
          · cases hbase
        | _ => exact hnone a₀ hph hfor
      · rw [Function.update_of_ne htu] at ha
        exact hnone a ha hfor
  | @crash u σ hat hrun =>
    intro a ha hfor
    by_cases htu : t = u
    · subst htu
      have hself := (attemptTracker rt initial).crash_eq w t
      exact absurd (hself.symm.trans ha) nofun
    · exact hnone a (((attemptTracker rt initial).crash_frame w u t htu).symm.trans ha) hfor
  | env hg =>
    obtain ⟨catalog, rfl⟩ := hg
    exact hnone

/-- What an Idempotency-Key promises in world `w`. -/
structure KeyPromise (rt : Runtime) (initial : List Booking)
    (w : World Sql T (Db T) Request Thrown Response) (tenantId : Uuid) (key : String) : Prop where
  /-- At most one attempt commits a booking. -/
  once : ∀ t u a a' b b', attemptOf rt w t = some a → attemptOf rt w u = some a' →
    a.IsFor tenantId key → a'.IsFor tenantId key → a.Books b → a'.Books b' → t = u
  /-- With a committed booking its key row is committed. -/
  keyed : ∀ t a b, attemptOf rt w t = some a → a.IsFor tenantId key → a.Books b →
    ⟨.created, b⟩ ∈ w.shared.bookings.committed ∧
      ∃ id, keyTable.row w.shared.keys.committed id = some (a.completedRow rt b id)
  /-- With a committed key row its booking is committed, and its response is filled in. -/
  booked : ∀ id r, keyTable.row w.shared.keys.committed id = some r → r.tenantId = tenantId →
    r.key = key → ∃ t a b, attemptOf rt w t = some a ∧ a.IsFor tenantId key ∧ a.Books b ∧
      ⟨.created, b⟩ ∈ w.shared.bookings.committed ∧ r = a.completedRow rt b id
  /-- Every successful response is that of the attempt that booked, or a replay of the
  response stored for it, for the same request. -/
  response : ∀ t σ a res, w.session t = some σ → attemptOf rt w t = some a →
    a.IsFor tenantId key → σ.prog.outcome = some (.ok res) →
    (∃ b, res = .created (.fresh b) ∧ a.Books b) ∨
      ∃ u a' b, attemptOf rt w u = some a' ∧ a'.IsFor tenantId key ∧ a'.Books b ∧
        a'.requestHash = a.requestHash ∧ res = .created (.replayed (rt.instanceToPlain b))
  /-- Once a row of the key is committed, no attempt that has not claimed the key runs the
  operation any more, and a different request is refused, unless one of its statements
  fails. -/
  refused : ∀ r, keyTable.row w.shared.keys.committed r.id = some r → r.tenantId = tenantId →
    r.key = key → ∀ t, (∀ a, attemptOf rt w t = some a → a.IsFor tenantId key →
      a.claimed = none) →
    ∀ w', Runs (World.Step (bookingServer rt initial)) anyStep w w' → ∀ σ a,
      w'.session t = some σ → attemptOf rt w' t = some a → a.IsFor tenantId key →
      (a.Untouched ∧ ∀ x ∈ σ.trace, x.1.kind = .key ∨ x.1.kind = .finish) ∧
      (a.requestHash ≠ r.requestHash → ∀ res, σ.prog.outcome = some res →
        res = .error (.app IdempotencyService.keyReused) ∨ ∃ c, res = .error (.query c))
  /-- If every attempt has failed, the key is free, and a later attempt can succeed. -/
  retry : (∀ t a, attemptOf rt w t = some a → a.IsFor tenantId key → a.committed = some false) →
    w.shared.KeyFree tenantId key ∧
      ∀ u dto, key ≠ "" → w.session u = none → w.shared.Bookable rt initial u tenantId dto →
        ∃ w' σ a b, Runs (World.Step (bookingServer rt initial)) anyStep w w' ∧
          w'.session u = some σ ∧ σ.prog.outcome = some (.ok (.created (.fresh b))) ∧
          attemptOf rt w' u = some a ∧ a.IsFor tenantId key ∧ a.Books b

/-- What an attempt whose session is over has come to. -/
theorem KeyedInv.ends (h : KeyedInv rt initial w) {t : T} {σ : Session Sql Request Thrown Response}
    {a : Attempt} {res : Except Thrown Response} (hσ : w.session t = some σ)
    (ha : attemptOf rt w t = some a) (hres : σ.prog.outcome = some res) :
    Attempt.Ends rt (some a) res := by
  have hfollows := h.conforms.running hσ
  rw [show (attemptTracker rt initial).phase w t = some a from ha] at hfollows
  obtain ⟨q, p, tr⟩ := σ
  cases p with
  | ret v =>
    cases hres
    exact hfollows
  | raise e =>
    cases hres
    exact hfollows
  | call s k => cases hres

theorem KeyedInv.response (h : KeyedInv rt initial w) {t : T}
    {σ : Session Sql Request Thrown Response} {a : Attempt} {res : Response}
    (hσ : w.session t = some σ) (ha : attemptOf rt w t = some a)
    (hres : σ.prog.outcome = some (.ok res)) :
    (∃ b, res = .created (.fresh b) ∧ a.Books b) ∨
      ∃ u a' b, attemptOf rt w u = some a' ∧ a'.IsFor a.tenantId a.key ∧ a'.Books b ∧
        a'.requestHash = a.requestHash ∧ a.claimed = none ∧
        res = .created (.replayed (rt.instanceToPlain b)) := by
  have hends := h.ends hσ ha hres
  rcases res with (b | body) | _ | _ | _
  · exact .inl ⟨b, rfl, hends.2.2, hends.1⟩
  · obtain ⟨-, huntouched, r, hfound, hhash, hbody⟩ := hends
    obtain ⟨hrow, hten, hkey⟩ := (h.keys.sound t a ha).found r hfound
    obtain ⟨u, a', b, hu, hb, -, hr⟩ := h.keys.row_origin hrow
    rw [hr] at hten hkey hhash hbody
    exact .inr ⟨u, a', b, hu, ⟨hten, hkey⟩, hb, hhash, huntouched.1,
      by rw [Option.some.inj hbody]⟩
  · exact hends.elim
  · exact hends.elim
  · exact hends.elim

theorem KeyedInv.refused (h : KeyedInv rt initial w) {r : IdempotencyKey}
    (hr : keyTable.row w.shared.keys.committed r.id = some r) {t : T} {a : Attempt}
    {σ : Session Sql Request Thrown Response} (hσ : w.session t = some σ)
    (ha : attemptOf rt w t = some a) (hfor : a.IsFor r.tenantId r.key) (hnone : a.claimed = none)
    (hhash : a.requestHash ≠ r.requestHash) {res : Except Thrown Response}
    (hres : σ.prog.outcome = some res) :
    res = .error (.app IdempotencyService.keyReused) ∨ ∃ c, res = .error (.query c) := by
  -- two rows of the key would be committed, so what the attempt found is this one
  have hfound : ∀ {r'}, a.found = some (some r') → r' = r := fun hf => by
    obtain ⟨hrow, hten, hkey⟩ := (h.keys.sound t a ha).found _ hf
    exact h.keys.row_unique hrow hr ⟨hten.trans hfor.1, hkey.trans hfor.2⟩
  have hends := h.ends hσ ha hres
  rcases res with e | res
  · rcases hends.2 hnone with ⟨c, rfl⟩ | rfl | ⟨r', hf, hbody⟩
    · exact .inr ⟨c, rfl⟩
    · exact .inl rfl
    · obtain rfl := hfound hf
      obtain ⟨u, a', b, hu, hb, hid, hrow⟩ := h.keys.row_origin hr
      rw [hrow] at hbody
      cases hbody
  · rcases res with (b | body) | _ | _ | _
    · obtain ⟨r', -, hclaimed, -⟩ := hends.2.1
      exact absurd (hnone.symm.trans hclaimed) nofun
    · obtain ⟨-, -, r', hf, hhash', -⟩ := hends
      obtain rfl := hfound hf
      exact absurd hhash'.symm hhash
    · exact hends.elim
    · exact hends.elim
    · exact hends.elim

/-- If every attempt of a key has been rolled back, no row of the key is left. -/
theorem KeyedInv.keyFree (h : KeyedInv rt initial w) {tenantId : Uuid} {key : String}
    (hfailed : ∀ t a, attemptOf rt w t = some a → a.IsFor tenantId key →
      a.committed = some false) : w.shared.KeyFree tenantId key := by
  refine ⟨fun r hr hfor => ?_, fun u r hr hfor => ?_⟩
  · -- a committed row of the key was claimed by an attempt, which has committed then
    obtain ⟨t, a, r₀, ht, hclaimed, hcommitted, hor⟩ := h.keys.origin r hr
    have hsound := h.keys.sound t a ht
    have hrow : r.tenantId = r₀.tenantId ∧ r.key = r₀.key := by
      rcases hor with rfl | hstored
      · exact ⟨rfl, rfl⟩
      · obtain ⟨r₁, b, hr₁, -, hrow⟩ := hsound.stored_eq hstored
        rw [hrow, Option.some.inj (hr₁.symm.trans hclaimed)]
        exact ⟨rfl, rfl⟩
    rw [hsound.claim r₀ hclaimed] at hrow
    have := hfailed t a ht ⟨hrow.1.symm.trans hfor.1, hrow.2.symm.trans hfor.2⟩
    exact absurd (hcommitted.symm.trans this) nofun
  · cases hu : attemptOf rt w u with
    | none =>
      rw [h.keys.other u hu] at hr
      cases hr
    | some a =>
      have hsound := h.keys.sound u a hu
      -- a pending row of the key is one of an attempt that is under way
      cases hopen : a.committed with
      | none =>
        obtain ⟨r₀, hclaimed, -, hor⟩ := hsound.mem_pending hopen hr
        have hrow : r.tenantId = r₀.tenantId ∧ r.key = r₀.key := by
          rcases hor with rfl | hstored
          · exact ⟨rfl, rfl⟩
          · obtain ⟨r₁, b, hr₁, -, hrow⟩ := hsound.stored_eq hstored
            rw [hrow, Option.some.inj (hr₁.symm.trans hclaimed)]
            exact ⟨rfl, rfl⟩
        rw [hsound.claim r₀ hclaimed] at hrow
        have := hfailed u a hu ⟨hrow.1.symm.trans hfor.1, hrow.2.symm.trans hfor.2⟩
        exact absurd (hopen.symm.trans this) nofun
      | some done =>
        simp [hsound.pending, Attempt.pendingKeys, hopen] at hr

/-- An attempt stays one under its key. -/
theorem attempts_next (a : Attempt) (s : Statement) (r : Except SqlState s.Result) :
    ∃ a', (attempts rt).next (some a) s r = some a' ∧ a'.IsFor a.tenantId a.key := by
  rcases r with code | v
  · cases s <;> exact ⟨_, rfl, rfl, rfl⟩
  · cases s with
    | insertKey => cases v <;> exact ⟨_, rfl, rfl, rfl⟩
    | _ => exact ⟨_, rfl, rfl, rfl⟩

omit [DecidableEq T] in
/-- The session of a keyed create is an attempt under its key. -/
theorem attemptOf_request {t : T} {q : Request} {p : TenantM Response} {tr : List (Exchange Sql)}
    (hat : w.session t = some ⟨q, p, tr⟩) {a : Attempt} (ha : startAttempt rt q = some a) :
    ∃ a', attemptOf rt w t = some a' ∧ a'.IsFor a.tenantId a.key := by
  -- no exchange turns an attempt into none, or into one of another key
  have hphase : ∀ tr : List (Exchange Sql), ∃ a', Server.phaseAfter (attempts rt) (some a) tr =
      some a' ∧ a'.IsFor a.tenantId a.key := by
    intro tr
    induction tr using List.reverseRecOn with
    | nil => exact ⟨a, rfl, rfl, rfl⟩
    | append_singleton tr x ih =>
      obtain ⟨a₁, h₁, hfor₁⟩ := ih
      obtain ⟨a₂, h₂, hfor₂⟩ : ∃ a₂, (attempts rt).next (some a₁) x.1 x.2 = some a₂ ∧
        a₂.IsFor a₁.tenantId a₁.key := attempts_next a₁ x.1 x.2
      refine ⟨a₂, ?_, hfor₂.1.trans hfor₁.1, hfor₂.2.trans hfor₁.2⟩
      rw [Server.phaseAfter_concat, h₁, h₂]
  have hof : attemptOf rt w t = Server.phaseAfter (attempts rt) (startAttempt rt q) tr := by
    simp [attemptOf, Server.tracePhase, hat]
  rw [hof, ha]
  exact hphase tr

/-- A later attempt under a free key can succeed. -/
theorem KeyedInv.retry (h : KeyedInv rt initial w) {tenantId : Uuid} {key : String}
    (hfree : w.shared.KeyFree tenantId key) (hkey : key ≠ "") {u : T} {dto : CreateBookingDto}
    (hidle : w.session u = none) (hbook : w.shared.Bookable rt initial u tenantId dto) :
    ∃ w' σ a b, Runs (World.Step (bookingServer rt initial)) anyStep w w' ∧
      w'.session u = some σ ∧ σ.prog.outcome = some (.ok (.created (.fresh b))) ∧
      attemptOf rt w' u = some a ∧ a.IsFor tenantId key ∧ a.Books b := by
  let q : Request := ⟨tenantId, .create dto (some key)⟩
  -- the program can be executed in one go, and so there is a run that does it
  obtain ⟨b, g', hexec⟩ := keyedCreate_executes hkey (h.idle u hidle) hfree
    (h.bounded.unused initial) hbook
  have hstarted : (w.start (bookingServer rt initial) u q).session u =
      some ⟨q, handle rt q, []⟩ := by
    simp [World.start_session, bookingServer]
  obtain ⟨w', p, tr, hrun, -, hat, hres⟩ := Server.exists_run_of_executes
    (w := w.start (bookingServer rt initial) u q) hexec hstarted
  have hrun' : Runs (World.Step (bookingServer rt initial)) anyStep w w' :=
    .head ⟨_, trivial, .start q hidle⟩ hrun
  obtain ⟨a, ha, hfor⟩ := attemptOf_request hat (show startAttempt rt q = some
    ⟨tenantId, key, rt.hashBody dto, none, none, none, none, false, none⟩ by
      simp [startAttempt, q, hkey])
  -- the discipline says what the attempt has come to
  have hends := (h.run hrun').ends hat ha hres
  exact ⟨w', _, a, b, hrun', hat, hres, ha, hfor, hends.2.2, hends.1⟩

/-- In every world that booking requests reach, an Idempotency-Key keeps its promise. -/
theorem committed_keys (rt : Runtime) (initial : List Booking) {g₀ : Db T} (h₀ : g₀.Initial)
    (hrun : Runs (World.Step (bookingServer rt initial)) anyStep (World.fresh g₀) w)
    (tenantId : Uuid) (key : String) : KeyPromise rt initial w tenantId key := by
  have h : KeyedInv rt initial w := (KeyedInv.fresh rt initial h₀).run hrun
  have hbooks : ∀ {t a b}, attemptOf rt w t = some a → a.Books b →
      ⟨.created, b⟩ ∈ w.shared.bookings.committed := fun ha hb =>
    (h.keys.sound _ _ ha).booked _ hb.1 hb.2
  refine ⟨?_, ?_, ?_, ?_, ?_, ?_⟩
  · intro t u a a' b b' ha ha' hfor hfor' hb hb'
    exact h.keys.books_unique ha ha' ⟨hfor.1.trans hfor'.1.symm, hfor.2.trans hfor'.2.symm⟩ hb hb'
  · intro t a b ha _ hb
    obtain ⟨r, -, hrow⟩ := (h.keys.sound t a ha).books hb
    exact ⟨hbooks ha hb, r.id, hrow⟩
  · intro id r hr hten hkey
    obtain ⟨t, a, b, ha, hb, -, rfl⟩ := h.keys.row_origin hr
    exact ⟨t, a, b, ha, ⟨hten, hkey⟩, hb, hbooks ha hb, rfl⟩
  · intro t σ a res hσ ha hfor hres
    obtain ⟨rfl, rfl⟩ := hfor
    rcases h.response hσ ha hres with hfresh | ⟨u, a', b, hu, hfor', hb, hhash, -, hreplayed⟩
    · exact .inl hfresh
    · exact .inr ⟨u, a', b, hu, hfor', hb, hhash, hreplayed⟩
  · rintro r hr rfl rfl t hnone w' hrun' σ a hσ ha hfor
    -- the row stays, and so does the attempt's having claimed nothing
    have hkeep : KeyedInv rt initial w' ∧ keyTable.row w'.shared.keys.committed r.id = some r ∧
        ∀ a, attemptOf rt w' t = some a → a.IsFor r.tenantId r.key → a.claimed = none :=
      hrun'.invariant (I := fun w' => KeyedInv rt initial w' ∧
        keyTable.row w'.shared.keys.committed r.id = some r ∧
        ∀ a, attemptOf rt w' t = some a → a.IsFor r.tenantId r.key → a.claimed = none)
        (fun _ _ _ ⟨h, hr, hnone⟩ _ hs =>
          ⟨h.step hs, h.row_step hs hr, h.unclaimed_step hs hr hnone⟩)
        ⟨h, hr, hnone⟩
    obtain ⟨h', hr', hnone'⟩ := hkeep
    have hclaimed := hnone' a ha hfor
    refine ⟨⟨(h'.keys.sound t a ha).untouched hclaimed, h'.trace t σ a hσ ha hclaimed⟩, ?_⟩
    intro hhash res hres
    exact h'.refused hr' hσ ha hfor hclaimed hhash hres
  · intro hfailed
    have hfree := h.keyFree hfailed
    exact ⟨hfree, fun u dto hkey hidle hbook => h.retry hfree hkey hidle hbook⟩

/-- Two creates under one key: the first books, the second replays its response. -/
def createTwice : List (Move Bool Request Choice) :=
  let q : Request := ⟨1, .create ⟨1, 1, 1, "2026-01-01T10:00:00Z"⟩ (some "key")⟩
  [.start true q, .start false q, .go true (.succeed 5), .go true (.succeed 0),
    .go true (.succeed 0), .go true (.succeed 0), .go true (.succeed 7), .go true (.succeed 1),
    .go true (.succeed 0), .go true (.succeed 0), .go false (.succeed 6), .go false (.succeed 0),
    .go false (.succeed 0)]

theorem committed_keys_createTwice :
    ∃ w : World Sql Bool (Db Bool) Request Thrown Response,
      ((w.session false).bind fun σ => σ.prog.outcome) =
        some (.ok (.created (.replayed "booking"))) ∧
      KeyPromise sampleRuntime [] w 1 "key" := by
  obtain ⟨w, hrun, hw⟩ := (bookingResponder sampleRuntime []).exists_anyRun
    (World.fresh sampleDb) createTwice
    (fun w => ((w.session false).bind fun σ => σ.prog.outcome) =
      some (.ok (.created (.replayed "booking")))) (by decide +kernel)
  exact ⟨w, of_decide_eq_true hw,
    committed_keys sampleRuntime [] sampleDb_initial hrun 1 "key"⟩

end World

end BookingPlatform
