import BookingPlatform.Library.Schedule
import BookingPlatform.RefreshToken.Rotation

/-!
# The Theft Response

Any number of refreshes, replayed refreshes, logouts and new sessions, interleaved
statement by statement. Once a family is burned none of its tokens may be consumed again.

## Main definitions

- `TheftResponse`: a burned family stays burned.

## Main results

- `burned_stays_burned`: it does in every run whose burns find no other refresh of the
  family under way.
- `logoutDuringRefresh_revives`: a run in which it does not.
-/

namespace BookingPlatform

open Library

variable {T : Type} {rt : TokenRuntime}

/-! ## Runs -/

section Runs

variable [DecidableEq T]

/-- Token statements as a signature. -/
abbrev TokenSql : Signature := sqlSignature TokenStatement TokenStatement.Result

/-- The session requests over one token table, at some moment. -/
abbrev TokenWorld (T : Type) : Type :=
  World TokenSql T TokenDb SessionRequest Thrown SessionResponse

/-- How far each session has come, by what it has done. -/
def rotationTracker (rt : TokenRuntime) :
    Tracker (tokenServer (T := T) rt) rotation .finished Rotation.start :=
  Server.traceTracker _ _ _ _ fun _ _ _ => trivial

/-- How far session `t` has come, by its statements. -/
def rotationOf (w : TokenWorld T) (t : T) : Rotation :=
  Server.tracePhase rotation .finished Rotation.start w t

/-- How far session `t` has come; one that is over, also by an error, has nothing left to do. -/
def activeOf (w : TokenWorld T) (t : T) : Rotation :=
  match w.session t with
  | some σ => if σ.prog.outcome = none then rotationOf w t else .finished
  | none => .finished

/-- What the theft response promises: the tokens of a burned family are revoked or used,
and no request consumes one of them. -/
structure TheftResponse (rt : TokenRuntime) (w : TokenWorld T) : Prop where
  unusable : ∀ r ∈ w.shared.tokens, r.familyId ∈ w.shared.burned →
    r.revokedAt ≠ none ∨ r.usedAt ≠ none
  unclaimable : ∀ t id usedAt n w',
    World.Step (tokenServer rt) w (.call t ⟨.markUsedIfUnused id usedAt, .ok n⟩) w' → 0 < n →
    ∀ r ∈ w.shared.tokens, r.id = id → r.familyId ∉ w.shared.burned

/-- A `revokeFamily` runs only while no other refresh of the family is under way. -/
def BurnsQuietly (w : TokenWorld T) : Label TokenSql T SessionRequest → Prop
  | .call t ⟨.revokeFamily familyId _, .ok _⟩ =>
    ∀ u, u ≠ t → ¬(activeOf w u).UnderWay w.shared familyId
  | _ => True

/-- A table before any request: the ids of its tokens differ, and nothing is burned. -/
structure TokenDb.Initial (g : TokenDb) : Prop where
  ids : (g.tokens.map (·.id)).Nodup
  burned : g.burned = []

/-- The course of all sessions and what holds of the table. -/
structure SessionsInv (rt : TokenRuntime) (w : TokenWorld T) : Prop where
  conforms : (rotationTracker rt).Conforms ends w
  tokens : RotationInv w.shared (activeOf w)

variable {w w' : TokenWorld T}

omit [DecidableEq T] in
theorem activeOf_call {t : T} {q : SessionRequest} {s : TokenStatement}
    {k : Except SqlState s.Result → TokenM SessionResponse} {tr : List (Exchange TokenSql)}
    (hat : w.session t = some ⟨q, .call s k, tr⟩) : activeOf w t = rotationOf w t := by
  unfold activeOf
  rw [hat]
  rfl

omit [DecidableEq T] in
/-- The statements of a session that is not over tell how far it has come. -/
theorem activeOf_eq (w : TokenWorld T) (t : T) :
    activeOf w t = rotationOf w t ∨ activeOf w t = .finished := by
  unfold activeOf
  cases w.session t with
  | none => exact .inr rfl
  | some σ =>
    dsimp only
    split
    · exact .inl rfl
    · exact .inr rfl

omit [DecidableEq T] in
/-- What other sessions do changes nothing of it. -/
theorem activeOf_congr {u : T} (h : w'.session u = w.session u) : activeOf w' u = activeOf w u := by
  unfold activeOf rotationOf Server.tracePhase
  rw [h]

theorem activeOf_update {t : T} {ph : Rotation} (hself : activeOf w' t = ph)
    (hne : ∀ u, u ≠ t → activeOf w' u = activeOf w u) :
    activeOf w' = Function.update (activeOf w) t ph := by
  funext u
  by_cases hu : u = t
  · subst hu
    rw [Function.update_self, hself]
  · rw [Function.update_of_ne hu, hne u hu]

/-- A session that is over is left out. -/
theorem rotationInv_of_active {t : T} (hne : ∀ u, u ≠ t → w'.session u = w.session u)
    (h : RotationInv w'.shared (Function.update (activeOf w) t (rotationOf w' t))) :
    RotationInv w'.shared (activeOf w') := by
  have hothers : ∀ u, u ≠ t → activeOf w' u = activeOf w u := fun u hu => activeOf_congr (hne u hu)
  rcases activeOf_eq w' t with hself | hself
  · rw [activeOf_update hself hothers]
    exact h
  · have hfinished : RotationInv w'.shared
        (Function.update (Function.update (activeOf w) t (rotationOf w' t)) t .finished) :=
      h.move nofun fun _ _ => id
    rw [Function.update_idem] at hfinished
    rw [activeOf_update hself hothers]
    exact hfinished

theorem SessionsInv.step (h : SessionsInv rt w) {l : Label TokenSql T SessionRequest}
    (hquiet : BurnsQuietly w l) (hs : World.Step (tokenServer rt) w l w') : SessionsInv rt w' := by
  refine ⟨h.conforms.step (follows_rotation rt) hs, ?_⟩
  cases hs with
  | @start t q hidle =>
    apply rotationInv_of_active (w := w) (t := t) fun u hu => by rw [World.start_session, if_neg hu]
    have hself : rotationOf (w.start (tokenServer rt) t q) t = Rotation.start q :=
      (rotationTracker rt).start_eq w t q hidle (h.conforms.phase_idle hidle)
    rw [hself]
    exact h.tokens.move (by cases q <;> nofun) fun _ _ => by cases q <;> exact id
  | @call t q tr s k x hat hx =>
    apply rotationInv_of_active (w := w) (t := t) fun u hu => by
      rw [World.answered_session, if_neg hu]
    -- as long as a session runs, its course is what it has come to
    have hcourse := activeOf_call hat
    have hself : rotationOf (w.answered (tokenServer rt) t q (k x) tr s x) t =
        rotation.next (activeOf w t) s x := by
      rw [hcourse]
      exact (rotationTracker rt).call_eq w t q s k tr x hat hx
    have hallow : rotation.allows (activeOf w t) s := by
      rw [hcourse]
      exact h.conforms.allows hat
    rw [hself]
    refine h.tokens.statement hallow hx ?_
    rintro familyId revokedAt rfl hok
    rcases x with code | n
    · cases hok
    · -- a family is burned only if no other refresh of it is under way
      exact hquiet
  | @crash t σ hat hrun =>
    apply rotationInv_of_active (w := w) (t := t) fun u hu => by
      rw [World.crashed_session, if_neg hu]
    have hself : rotationOf (w.crashed (tokenServer rt) t) t = .finished :=
      (rotationTracker rt).crash_eq w t
    rw [hself]
    exact h.tokens.move nofun fun _ _ => id
  | @env g hg =>
    obtain ⟨role, rfl⟩ := hg
    -- the role changes, and nothing of the tokens
    have hquiet : ∀ {familyId : Uuid} {ph : Rotation},
        ph.UnderWay { w.shared with role } familyId → ph.UnderWay w.shared familyId := by
      intro familyId ph hu
      cases ph <;> exact hu
    refine ⟨h.tokens.ids, h.tokens.known, fun familyId hb => ?_⟩
    obtain ⟨hmember, hrevoked, hnone⟩ := h.tokens.burned familyId hb
    exact ⟨hmember, hrevoked, fun t ht => hnone t (hquiet ht)⟩

theorem SessionsInv.fresh (rt : TokenRuntime) {g₀ : TokenDb} (h₀ : g₀.Initial) :
    SessionsInv rt (World.fresh g₀ : TokenWorld T) where
  conforms t := by
    show rotationOf (World.fresh g₀) t = .finished
    simp [rotationOf, Server.tracePhase]
  tokens := by
    have hfinished : ∀ t : T, activeOf (World.fresh g₀) t = .finished := fun t => rfl
    refine ⟨h₀.ids, fun t r hr => ?_, fun familyId hb => ?_⟩
    · rw [hfinished] at hr
      cases hr
    · rw [World.fresh_shared, h₀.burned] at hb
      cases hb

/-- In every run in which families are burned only while no other refresh of them is under
way, a burned family stays burned. -/
theorem burned_stays_burned (rt : TokenRuntime) {g₀ : TokenDb} (h₀ : g₀.Initial)
    (hrun : Runs (World.Step (tokenServer rt)) BurnsQuietly (World.fresh g₀) w) :
    TheftResponse rt w := by
  have h : SessionsInv rt w := hrun.invariant (I := SessionsInv rt)
    (fun _ _ _ h hg hs => h.step hg hs) (.fresh rt h₀)
  refine ⟨fun r hr hb => .inl ((h.tokens.burned _ hb).revoked r hr rfl), ?_⟩
  intro t id usedAt n w' hs hn r hr hid hb
  cases hs with
  | @call _ q tr _ k _ hat hx =>
    have hallow : rotation.allows (activeOf w t) (.markUsedIfUnused id usedAt) := by
      rw [activeOf_call hat]
      exact h.conforms.allows hat
    -- only a request that has checked the token claims it
    have hph : ∃ r', activeOf w t = .checked r' ∧ id = r'.id := by
      cases hph : activeOf w t with
      | checked r' =>
        rw [hph] at hallow
        exact ⟨r', rfl, hallow⟩
      | _ =>
        rw [hph] at hallow
        exact hallow.elim
    obtain ⟨r', hph, rfl⟩ := hph
    obtain rfl : n = w.shared.tokens.countP fun r => r.id = r'.id ∧ r.usedAt = none := hx
    -- and its family was not burned then
    obtain ⟨hunburned, hfamily⟩ := h.tokens.claimable hph hn
    exact hunburned (hfamily r hr hid ▸ hb)

/-! ## Computed runs -/

/-- The answer of a statement; a choice is the id or the time, and the bytes, it draws. -/
def TokenDb.answer (c : ℕ × String) (g : TokenDb) :
    (s : TokenStatement) → Option (Except SqlState s.Result)
  | .findByHash tokenHash => some (.ok (g.tokens.find? (·.tokenHash = tokenHash)))
  | .create data =>
    let v : RefreshToken := ⟨c.1, data.userId, data.familyId.getD c.1, data.tokenHash,
      data.tenantId, data.role, data.expiresAt, none, none⟩
    if (∀ r ∈ g.tokens, r.id ≠ v.id ∧ r.tokenHash ≠ v.tokenHash) ∧
        (data.familyId = none → ∀ r ∈ g.tokens, r.familyId ≠ v.familyId) then
      some (.ok v)
    else none
  | .markUsedIfUnused id _ => some (.ok (g.tokens.countP fun r => r.id = id ∧ r.usedAt = none))
  | .revokeFamily familyId _ =>
    some (.ok (g.tokens.countP fun r => r.familyId = familyId ∧ r.revokedAt = none))
  | .findByUserAndTenant userId tenantId => some (.ok (g.role userId tenantId))
  | .now => some (.ok (c.1 : ℤ))
  | .randomBytes => some (.ok c.2)

/-- The token server with computed answers. -/
def tokenResponder (rt : TokenRuntime) : Responder (tokenServer (T := T) rt) (ℕ × String) where
  answer c _ g s := g.answer c s
  sound c t g s x h := by
    cases s with
    | create data =>
      simp only [TokenDb.answer] at h
      split at h
      · rename_i hnew
        cases h
        refine ⟨rfl, hnew.1, ?_⟩
        cases hfamily : data.familyId with
        | none => simpa [hfamily] using hnew.2 hfamily
        | some familyId => rfl
      · cases h
    | now =>
      cases h
      exact trivial
    | randomBytes =>
      cases h
      exact trivial
    | _ =>
      cases h
      rfl

/-- Hashes and tokens that can be told apart, and a lifetime of a week. -/
def sampleTokenRuntime : TokenRuntime := ⟨id, fun _ => "jwt", 7⟩

/-- One unused token. -/
def sampleTokenDb : TokenDb := ⟨[⟨1, 1, 1, "a", none, none, 1000, none, none⟩], fun _ _ => none, []⟩

theorem sampleTokenDb_initial : sampleTokenDb.Initial := ⟨by decide, rfl⟩

/-- Logout burns the family while a refresh is about to insert the successor `"b"`, which a
third request then refreshes. -/
def logoutDuringRefresh : List (Move (Fin 3) SessionRequest (ℕ × String)) :=
  [.start 0 (.refresh "a"), .start 1 (.logout "a"), .go 0 (0, ""), .go 0 (1, ""), .go 0 (2, ""),
    .go 0 (0, ""), .go 1 (0, ""), .go 1 (3, ""), .go 1 (0, ""), .go 0 (0, "b"), .go 0 (4, ""),
    .go 0 (2, ""), .start 2 (.refresh "b"), .go 2 (0, ""), .go 2 (5, ""), .go 2 (6, ""),
    .go 2 (0, ""), .go 2 (0, "c"), .go 2 (7, ""), .go 2 (3, "")]

/-- A successor inserted after the burn is refreshed, and leaves a usable token. -/
theorem logoutDuringRefresh_revives :
    ∃ w : TokenWorld (Fin 3),
      Runs (World.Step (tokenServer sampleTokenRuntime)) anyStep (World.fresh sampleTokenDb) w ∧
      ((w.session 2).bind fun σ => σ.prog.outcome) = some (.ok (.tokens ⟨"jwt", "c"⟩)) ∧
      ¬TheftResponse sampleTokenRuntime w := by
  obtain ⟨w, hrun, hw⟩ := (tokenResponder sampleTokenRuntime).exists_anyRun
    (World.fresh sampleTokenDb) logoutDuringRefresh
    (fun w => ((w.session 2).bind fun σ => σ.prog.outcome) = some (.ok (.tokens ⟨"jwt", "c"⟩)) ∧
      ∃ r ∈ w.shared.tokens, r.familyId ∈ w.shared.burned ∧ r.revokedAt = none ∧ r.usedAt = none)
    (by decide +kernel)
  obtain ⟨hres, r, hr, hb, hrevoked, hused⟩ := of_decide_eq_true hw
  refine ⟨w, hrun, hres, fun h => ?_⟩
  rcases h.unusable r hr hb with hnot | hnot
  · exact hnot hrevoked
  · exact hnot hused

instance (g : TokenDb) (familyId : Uuid) (ph : Rotation) : Decidable (ph.UnderWay g familyId) := by
  cases ph <;> unfold Rotation.UnderWay <;> infer_instance

instance (w : TokenWorld Bool) (l : Label TokenSql Bool SessionRequest) :
    Decidable (BurnsQuietly w l) := by
  unfold BurnsQuietly
  split <;> infer_instance

theorem burnsQuietly_sound (w : TokenWorld Bool) (l : Label TokenSql Bool SessionRequest)
    (h : decide (BurnsQuietly w l) = true) : BurnsQuietly w l :=
  of_decide_eq_true h

/-- A token is refreshed and then presented again. -/
def reuseAfterRefresh : List (Move Bool SessionRequest (ℕ × String)) :=
  [.start true (.refresh "a"), .go true (0, ""), .go true (1, ""), .go true (2, ""),
    .go true (0, ""), .go true (0, "b"), .go true (3, ""), .go true (2, ""),
    .start false (.refresh "a"), .go false (0, ""), .go false (4, ""), .go false (5, ""),
    .go false (0, ""), .go false (6, ""), .go false (0, "")]

theorem burned_stays_burned_reuseAfterRefresh :
    ∃ w : TokenWorld Bool, w.shared.burned = [1] ∧ w.shared.tokens.length = 2 ∧
      TheftResponse sampleTokenRuntime w := by
  obtain ⟨w, hrun, hw⟩ := (tokenResponder sampleTokenRuntime).exists_run
    burnsQuietly_sound (World.fresh sampleTokenDb) reuseAfterRefresh
    (fun w => w.shared.burned = [1] ∧ w.shared.tokens.length = 2) (by decide +kernel)
  obtain ⟨hburned, hlength⟩ := of_decide_eq_true hw
  exact ⟨w, hburned, hlength, burned_stays_burned _ sampleTokenDb_initial hrun⟩

end Runs

end BookingPlatform
