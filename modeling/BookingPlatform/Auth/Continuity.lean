import BookingPlatform.Auth.Service
import BookingPlatform.Library.Interference
import Mathlib.Data.Fintype.EquivFin

/-!
# Continuity of Sessions

A session starts with a tenant switch, in the user's primary tenant or with a new tenant, and goes
on by refreshes, each with the refresh token of the one before. Everything else may happen in
between, as long as it leaves the user's memberships and the session's tokens alone. The authority
of a session is decided when it starts and again at each refresh, and a super admin without a
membership passes only the first decision.

## Main definitions

- `Undisturbed`: what may happen beside a session.
- `SessionLasts`: every refresh succeeds, with the authority of the session's start.
- `Beside`: the steps of an interleaved run that leave the session undisturbed.

## Main results

- `session_lasts_iff`: a session lasts exactly if its user is a member where it starts, and the
  refreshes of interleaved runs are among those of the session.
-/

namespace BookingPlatform

open Library AuthM

/-! ## Session requests -/

/-- Where a session starts. -/
inductive SessionStart where
  | switchTenant (user : User) (tenantId : Uuid)
  | issueSessionFor (user : User)
  | onboarding (user : User)
  deriving DecidableEq, Repr

def SessionStart.user : SessionStart → User
  | switchTenant user _ | issueSessionFor user | onboarding user => user

/-- The service call that starts a session. -/
def SessionStart.program (rt : AuthRuntime) : SessionStart → AuthM AuthResult
  | switchTenant user tenantId => AuthService.switchTenant rt user tenantId
  | issueSessionFor user => AuthService.issueSessionFor rt user
  | onboarding user => TenantController.create rt user

inductive SessionCall where
  | start (s : SessionStart)
  | refresh (refreshToken : String)
  | logout (refreshToken : String)
  deriving DecidableEq, Repr

/-- The service call of a request. -/
def handleCall (rt : AuthRuntime) : SessionCall → AuthM SessionResponse
  | .start s => (fun result => .tokens result.toSessionTokens) <$> s.program rt
  | .refresh refreshToken =>
    .tokens <$> ofToken (AuthService.refresh rt.toTokenRuntime refreshToken)
  | .logout refreshToken => do
    ofToken (AuthService.logout rt.toTokenRuntime refreshToken)
    return .loggedOut

/-- The tables and the time. -/
structure SessionDb extends AuthDb where
  clock : Instant

namespace SessionDb

variable (g : SessionDb)

/-- The token with this hash. -/
def tokenOf (tokenHash : String) : Option RefreshToken := g.tokens.find? (·.tokenHash = tokenHash)

/-- The results a statement can have; the clock shows the time. -/
def returns : (s : AuthStatement) → s.Result → Prop
  | .session .now, v => v = g.clock
  | s, v => g.toAuthDb.returns s v

/-- What a statement does. -/
def apply (s : AuthStatement) (v : s.Result) : SessionDb :=
  { g with toAuthDb := g.toAuthDb.apply s v }

end SessionDb

/-- Any number of session requests on a database that does not fail. Anything may happen beside
them. -/
def sessionServer {T : Type} (rt : AuthRuntime) :
    Server AuthSql T SessionDb SessionCall Thrown SessionResponse where
  program := handleCall rt
  possible _ g s x := ∃ v, x = .ok v ∧ g.returns s v
  effect _ g s x := { g with toAuthDb := g.toAuthDb.effect s x }
  crash _ g := g
  env _ _ := True

/-! ## What happens beside a session -/

/-- A role is found among the memberships of its user. -/
theorem AuthDb.role_eq (g : AuthDb) (userId tenantId : Uuid) : g.role userId tenantId =
    ((g.memberships.filter (·.userId = userId)).find? (·.tenantId = tenantId)).map (·.role) := by
  rw [AuthDb.role, List.find?_filter]
  congr 2
  funext m
  simp

/-- The memberships of the user stay as they are, the tokens of the family too, and no token is
deleted or changes its family. -/
structure Undisturbed (userId familyId : Uuid) (g g' : SessionDb) : Prop where
  memberships : g'.memberships.filter (·.userId = userId) = g.memberships.filter (·.userId = userId)
  tokens : ∀ tokenHash r, g.tokenOf tokenHash = some r → ∃ r', g'.tokenOf tokenHash = some r' ∧
    r'.familyId = r.familyId ∧ (r.familyId = familyId → r' = r)
  time : g.clock ≤ g'.clock

namespace Undisturbed

variable {userId familyId : Uuid} {g g₁ g' : SessionDb}

theorem refl (g : SessionDb) : Undisturbed userId familyId g g :=
  ⟨rfl, fun _ r hr => ⟨r, hr, rfl, fun _ => rfl⟩, Int.le_refl _⟩

theorem trans (h : Undisturbed userId familyId g g₁) (h' : Undisturbed userId familyId g₁ g') :
    Undisturbed userId familyId g g' where
  memberships := h'.memberships.trans h.memberships
  tokens tokenHash r hr := by
    obtain ⟨r₁, hr₁, hfamily₁, hsame₁⟩ := h.tokens tokenHash r hr
    obtain ⟨r', hr', hfamily', hsame'⟩ := h'.tokens tokenHash r₁ hr₁
    refine ⟨r', hr', hfamily'.trans hfamily₁, fun hmine => ?_⟩
    rw [hsame' (hfamily₁.trans hmine), hsame₁ hmine]
  time := Int.le_trans h.time h'.time

/-- The token of the session stays as it is. -/
theorem token (h : Undisturbed userId familyId g g') {tokenHash : String} {r : RefreshToken}
    (hr : g.tokenOf tokenHash = some r) (hfamily : r.familyId = familyId) :
    g'.tokenOf tokenHash = some r := by
  obtain ⟨r', hr', -, hsame⟩ := h.tokens tokenHash r hr
  rw [hr', hsame hfamily]

/-- The roles of the user stay as they are. -/
theorem role (h : Undisturbed userId familyId g g') (tenantId : Uuid) :
    g'.role userId tenantId = g.role userId tenantId := by
  rw [AuthDb.role_eq, AuthDb.role_eq, h.memberships]

end Undisturbed

/-- The statement leaves the memberships of the user and the tokens of the family alone. -/
def AuthStatement.Spares (userId familyId : Uuid) (g : AuthDb) : AuthStatement → Prop
  | .session (.markUsedIfUnused id _) => ∀ r ∈ g.tokens, r.id = id → r.familyId ≠ familyId
  | .session (.revokeFamily familyId' _) => familyId' ≠ familyId
  | .onboard userId' => userId' ≠ userId
  | _ => True

variable {userId familyId : Uuid} {g g₁ g' : SessionDb}

/-- A row update that keeps the hashes of the tokens. -/
theorem tokenOf_map {f : RefreshToken → RefreshToken} (hf : ∀ r, (f r).tokenHash = r.tokenHash)
    (htokens : g'.tokens = g.tokens.map f) (tokenHash : String) :
    g'.tokenOf tokenHash = (g.tokenOf tokenHash).map f := by
  have hsame : (fun r : RefreshToken => decide (r.tokenHash = tokenHash)) ∘ f =
      fun r => decide (r.tokenHash = tokenHash) := by
    funext r
    rw [Function.comp_apply, hf]
  rw [SessionDb.tokenOf, htokens, List.find?_map, hsame]
  rfl

theorem tokenOf_append {v : RefreshToken} {tokenHash : String} {r : RefreshToken}
    (htokens : g'.tokens = g.tokens ++ [v]) (hr : g.tokenOf tokenHash = some r) :
    g'.tokenOf tokenHash = some r := by
  rw [SessionDb.tokenOf] at hr
  rw [SessionDb.tokenOf, htokens, List.find?_append, hr]
  rfl

/-- A row update that leaves the tokens of the family alone. -/
theorem Undisturbed.map {f : RefreshToken → RefreshToken}
    (hfamily : ∀ r, (f r).familyId = r.familyId) (hhash : ∀ r, (f r).tokenHash = r.tokenHash)
    (hmine : ∀ r ∈ g.tokens, r.familyId = familyId → f r = r) (htokens : g'.tokens = g.tokens.map f)
    (hmemberships : g'.memberships = g.memberships) (hclock : g'.clock = g.clock) :
    Undisturbed userId familyId g g' where
  memberships := by rw [hmemberships]
  tokens tokenHash r hr := by
    refine ⟨f r, ?_, hfamily r, hmine r (List.mem_of_find?_eq_some hr)⟩
    rw [tokenOf_map hhash htokens, hr]
    rfl
  time := Int.le_of_eq hclock.symm

/-- Statements that spare the user and the family leave the session undisturbed. -/
theorem undisturbed_apply {s : AuthStatement} {v : s.Result}
    (hspares : s.Spares userId familyId g.toAuthDb) :
    Undisturbed userId familyId g (g.apply s v) := by
  -- most statements touch neither the memberships nor the tokens
  have hquiet : ∀ g' : SessionDb, g'.tokens = g.tokens → g'.memberships = g.memberships →
      g'.clock = g.clock → Undisturbed userId familyId g g' := by
    intro g' htokens hmemberships hclock
    have hid : g'.tokens = g.tokens.map id := by rw [htokens, List.map_id]
    exact .map (fun _ => rfl) (fun _ => rfl) (fun _ _ _ => rfl) hid hmemberships hclock
  cases s with
  | session s =>
    cases s with
    -- an insert keeps what is found by its hash
    | create data =>
      refine ⟨rfl, fun tokenHash r hr => ⟨r, ?_, rfl, fun _ => rfl⟩, Int.le_refl _⟩
      exact tokenOf_append rfl hr
    | markUsedIfUnused id usedAt =>
      refine .map (rowUpdate_useRow id usedAt).familyId (fun r => ?_)
        (fun r hr hfamily => ?_) rfl rfl rfl
      · unfold TokenDb.useRow
        split <;> rfl
      · -- a token of the family is not the one that is claimed
        exact if_neg fun h => hspares r hr h.1 hfamily
    | revokeFamily familyId' revokedAt =>
      refine .map (rowUpdate_revokeRow familyId' revokedAt).familyId (fun r => ?_)
        (fun r hr hfamily => ?_) rfl rfl rfl
      · unfold TokenDb.revokeRow
        split <;> rfl
      · -- and another family is revoked
        exact if_neg fun h => hspares (h.1.symm.trans hfamily)
    | _ => exact hquiet _ rfl rfl rfl
  | onboard userId' =>
    have hother : userId' ≠ userId := hspares
    refine ⟨?_, fun tokenHash r hr => ⟨r, hr, rfl, fun _ => rfl⟩, Int.le_refl _⟩
    -- the new membership is somebody else's
    have hnew : [(⟨userId', v, .owner⟩ : Membership)].filter (·.userId = userId) = [] := by
      simp [hother]
    change (g.memberships ++ [_]).filter _ = _
    rw [List.filter_append, hnew, List.append_nil]
  | _ => exact hquiet _ rfl rfl rfl

/-! ## The course of a session -/

/-- The refresh token can be used in the session of this user and tenant, until `expiresAt`. -/
structure Live (rt : AuthRuntime) (userId familyId : Uuid) (tenantId : Option Uuid)
    (refreshToken : String) (row : RefreshToken) (g : SessionDb) : Prop where
  found : g.tokenOf (rt.sha256 refreshToken) = some row
  user : row.userId = userId
  family : row.familyId = familyId
  tenant : row.tenantId = tenantId
  unused : row.usedAt = none
  unrevoked : row.revokedAt = none

/-- The user has the authority of this scope. -/
def Grants (userId : Uuid) (scope : SessionScope) (g : SessionDb) : Prop :=
  match scope.tenantId with
  | none => scope.role = none
  | some tenantId => scope.role ≠ none ∧ g.role userId tenantId = scope.role

theorem Live.undisturbed {rt : AuthRuntime} {tenantId : Option Uuid} {refreshToken : String}
    {row : RefreshToken} (h : Live rt userId familyId tenantId refreshToken row g)
    (hrely : Undisturbed userId familyId g g') :
    Live rt userId familyId tenantId refreshToken row g' :=
  ⟨hrely.token h.found h.family, h.user, h.family, h.tenant, h.unused, h.unrevoked⟩

theorem Grants.undisturbed {scope : SessionScope} (h : Grants userId scope g)
    (hrely : Undisturbed userId familyId g g') : Grants userId scope g' := by
  unfold Grants at h ⊢
  split
  · simp_all
  · rename_i tenantId htenant
    rw [htenant] at h
    exact ⟨h.1, (hrely.role tenantId).trans h.2⟩

/-- The code of the refresh tokens, one statement at a time. -/
theorem ofToken_execSql_bind {α : Type} (s : TokenStatement) (f : s.Result → TokenM α) :
    ofToken (TokenM.exec s >>= f) = AuthM.exec (.session s) >>= fun v => ofToken (f v) := by
  unfold TokenM.exec AuthM.exec execSql
  rw [Prog.call_bind, Prog.call_bind, ofToken]
  congr 1
  funext r
  cases r <;> rfl

theorem ofToken_execSql (s : TokenStatement) :
    ofToken (TokenM.exec s) = AuthM.exec (.session s) := by
  unfold TokenM.exec AuthM.exec execSql
  rw [ofToken]
  congr 1
  funext r
  cases r <;> rfl

theorem ofToken_bind {α β : Type} (p : TokenM α) (f : α → TokenM β) :
    ofToken (p >>= f) = ofToken p >>= fun a => ofToken (f a) := by
  induction p with
  | ret a => rfl
  | raise e => rfl
  | call s k ih =>
    rw [Prog.call_bind, ofToken, ofToken, Prog.call_bind]
    congr 1
    funext r
    exact ih r

section Rules

variable {T : Type} {rt : AuthRuntime} {t : T} {α : Type}

/-- One statement, and what comes after it. -/
theorem ensures_exec {s : AuthStatement} {f : s.Result → AuthM α}
    {post : Except Thrown α → SessionDb → Prop}
    (h : ∀ g₁ v, Undisturbed userId familyId g g₁ → g₁.returns s v →
      (sessionServer rt).Ensures (Undisturbed userId familyId) t (f v) (g₁.apply s v) post) :
    (sessionServer rt).Ensures (Undisturbed userId familyId) t (AuthM.exec s >>= f) g post := by
  refine Server.ensures_call fun g₁ x hrely hx => ?_
  obtain ⟨v, rfl, hv⟩ := hx
  exact h g₁ v hrely hv

theorem ensures_token {s : TokenStatement} {f : s.Result → TokenM α}
    {post : Except Thrown α → SessionDb → Prop}
    (h : ∀ g₁ v, Undisturbed userId familyId g g₁ → g₁.returns (.session s) v →
      (sessionServer rt).Ensures (Undisturbed userId familyId) t (ofToken (f v))
        (g₁.apply (.session s) v) post) :
    (sessionServer rt).Ensures (Undisturbed userId familyId) t
      (ofToken (TokenM.exec s >>= f)) g post := by
  rw [ofToken_execSql_bind]
  exact ensures_exec h

/-- A token that is inserted is found by its hash. -/
theorem tokenOf_insert {v : RefreshToken} (hnew : ∀ r ∈ g.tokens, r.tokenHash ≠ v.tokenHash)
    (htokens : g'.tokens = g.tokens ++ [v]) : g'.tokenOf v.tokenHash = some v := by
  have hnone : g.tokens.find? (·.tokenHash = v.tokenHash) = none := by
    simpa using hnew
  rw [SessionDb.tokenOf, htokens, List.find?_append, hnone]
  simp

/-- The roles of the user are the same. -/
def SameRoles (userId : Uuid) (g g' : SessionDb) : Prop :=
  ∀ tenantId, g'.role userId tenantId = g.role userId tenantId

/-- A new refresh token, if it is one of the session. -/
def Issued (rt : AuthRuntime) (userId familyId : Uuid) (scope : SessionScope)
    (refreshToken : String) (g : SessionDb) : Prop :=
  ∃ row, g.tokenOf (rt.sha256 refreshToken) = some row ∧
    (row.familyId = familyId → Live rt userId familyId scope.tenantId refreshToken row g)

theorem Issued.undisturbed {scope : SessionScope} {refreshToken : String}
    (h : Issued rt userId familyId scope refreshToken g)
    (hrely : Undisturbed userId familyId g g') :
    Issued rt userId familyId scope refreshToken g' := by
  obtain ⟨row, hrow, hlive⟩ := h
  obtain ⟨row', hrow', hkept, hsame⟩ := hrely.tokens _ row hrow
  refine ⟨row', hrow', fun hmine => ?_⟩
  have hrowmine : row.familyId = familyId := hkept.symm.trans hmine
  rw [hsame hrowmine]
  exact (hlive hrowmine).undisturbed hrely

theorem issue_ensures (scope : SessionScope) (family : Option Uuid) :
    (sessionServer rt).Ensures (Undisturbed userId familyId) t
      (ofToken (RefreshTokenService.issue rt.toTokenRuntime userId scope family)) g fun r g' =>
        SameRoles userId g g' ∧ ∃ plaintext, r = .ok plaintext ∧
        Issued rt userId familyId scope plaintext g' ∧
          (family = some familyId →
            ∃ row, Live rt userId familyId scope.tenantId plaintext row g') := by
  -- draws, reads the clock and inserts, with something in between each time
  refine ensures_token fun g₁ plaintext hrely₁ _ => ?_
  refine ensures_token fun g₂ now hrely₂ _ => ?_
  refine ensures_token fun g₃ v hrely₃ hv => ?_
  refine Server.ensures_ret fun g' hrely => ?_
  have hinserts : g₃.sessions.Inserts _ v := hv
  obtain ⟨hrow, hnew, hfamily⟩ := hinserts
  -- the row that is inserted is found by the hash of what has been drawn
  have hhash : v.tokenHash = rt.sha256 plaintext := by rw [hrow]
  have hfound : (g₃.apply (.session (.create _)) v).tokenOf v.tokenHash = some v :=
    tokenOf_insert (fun r hr => (hnew r hr).2) rfl
  rw [hhash] at hfound
  have hlive : v.familyId = familyId → Live rt userId familyId scope.tenantId plaintext v
      (g₃.apply (.session (.create _)) v) := fun hmine =>
    { found := hfound
      user := by rw [hrow]
      family := hmine
      tenant := by rw [hrow]
      unused := by rw [hrow]
      unrevoked := by rw [hrow] }
  have hissued : Issued rt userId familyId scope plaintext (g₃.apply (.session (.create _)) v) :=
    ⟨v, hfound, hlive⟩
  refine ⟨fun tenantId => ?_, plaintext, rfl, hissued.undisturbed hrely, ?_⟩
  · -- nothing that happened on the way changed the roles
    calc g'.role userId tenantId
      _ = g₃.role userId tenantId := hrely.role tenantId
      _ = g₂.role userId tenantId := hrely₃.role tenantId
      _ = g₁.role userId tenantId := hrely₂.role tenantId
      _ = g.role userId tenantId := hrely₁.role tenantId
  · rintro rfl
    exact ⟨v, (hlive hfamily).undisturbed hrely⟩

theorem SameRoles.trans (h : SameRoles userId g g₁) (h' : SameRoles userId g₁ g') :
    SameRoles userId g g' :=
  fun tenantId => (h' tenantId).trans (h tenantId)

theorem SameRoles.grants {scope : SessionScope} (h : SameRoles userId g g')
    (hgrants : Grants userId scope g) : Grants userId scope g' := by
  unfold Grants at hgrants ⊢
  cases htenant : scope.tenantId with
  | none =>
    rw [htenant] at hgrants
    exact hgrants
  | some tenantId =>
    rw [htenant] at hgrants
    exact ⟨hgrants.1, (h tenantId).trans hgrants.2⟩

/-- An unused token of the session is consumed by the statement that marks it. -/
theorem markUsed_ensures {row : RefreshToken} {tokenHash : String}
    (hrow : g.tokenOf tokenHash = some row) (hmine : row.familyId = familyId)
    (hunused : row.usedAt = none) (usedAt : Instant) :
    (sessionServer rt).Ensures (Undisturbed userId familyId) t
      (ofToken (RefreshTokenRepository.markUsedIfUnused row.id usedAt)) g fun r g' =>
        r = .ok true ∧ SameRoles userId g g' := by
  refine ensures_token fun g₁ affected hrely hcount => ?_
  refine Server.ensures_ret fun g' hrely' => ⟨?_, fun tenantId => ?_⟩
  · have hmem : row ∈ g₁.tokens := List.mem_of_find?_eq_some (hrely.token hrow hmine)
    have hpos : 0 < affected := by
      have haffected : affected = g₁.tokens.countP fun r =>
        r.id = row.id ∧ r.usedAt = none := hcount
      rw [haffected, List.countP_pos_iff]
      exact ⟨row, hmem, by simp [hunused]⟩
    simp [hpos]
  · exact (hrely'.role tenantId).trans (hrely.role tenantId)

/-- A live token is claimed, unless it has expired. -/
theorem claim_ensures {tenantId : Option Uuid} {refreshToken : String} {row : RefreshToken}
    (hlive : Live rt userId familyId tenantId refreshToken row g) :
    (sessionServer rt).Ensures (Undisturbed userId familyId) t
      (ofToken (RefreshTokenService.claim rt.toTokenRuntime refreshToken)) g fun r g' =>
        SameRoles userId g g' ∧ (r = .ok ⟨⟨row.tenantId, row.role⟩, row.userId, row.familyId⟩ ∨
          (∃ e, r = .error e) ∧ row.expiresAt < g'.clock) := by
  refine ensures_token fun g₁ found hrely₁ hfound => ?_
  have hlive₁ := hlive.undisturbed hrely₁
  -- the token is found as it was
  obtain rfl : found = some row := hfound.trans hlive₁.found
  simp only [hlive.unrevoked, Option.isSome_none, Bool.false_eq_true, if_false]
  refine ensures_token fun g₂ now hrely₂ hnow => ?_
  have hclock : now = g₂.clock := hnow
  have hroles₂ : SameRoles userId g g₂ := fun tenantId =>
    (hrely₂.role tenantId).trans (hrely₁.role tenantId)
  have hlive₂ : Live rt userId familyId tenantId refreshToken row g₂ := hlive₁.undisturbed hrely₂
  -- `expires_at` is compared with the clock
  split
  · rename_i hexpired
    refine Server.ensures_raise fun g' hrely => ⟨hroles₂.trans hrely.role, .inr ⟨⟨_, rfl⟩, ?_⟩⟩
    exact Int.lt_of_lt_of_le (hclock ▸ hexpired) hrely.time
  · refine ensures_token fun g₃ usedAt hrely₃ _ => ?_
    have hlive₃ : Live rt userId familyId tenantId refreshToken row g₃ := hlive₂.undisturbed hrely₃
    have hroles₃ : SameRoles userId g g₃ := hroles₂.trans hrely₃.role
    rw [ofToken_bind]
    -- it is unused, so that the conditional update meets its row
    refine Server.ensures_bind .refl
      (markUsed_ensures hlive₃.found hlive₃.family hlive₃.unused usedAt) ?_ ?_
    · rintro e g₄ ⟨h, -⟩
      cases h
    · rintro b g₄ ⟨h, hroles₄⟩
      cases h
      refine Server.ensures_ret fun g' hrely => ⟨?_, .inl rfl⟩
      exact (hroles₃.trans hroles₄).trans hrely.role

/-- The new tokens of a refresh. -/
def Renewed (rt : AuthRuntime) (userId familyId : Uuid) (scope : SessionScope)
    (r : Except Thrown SessionTokens) (g : SessionDb) : Prop :=
  ∃ next row, r = .ok next ∧ next.token = rt.sign ⟨userId, scope.tenantId, scope.role⟩ ∧
    Live rt userId familyId scope.tenantId next.refreshToken row g

theorem rotate_ensures {claimed : ClaimedSession} (hfamily : claimed.familyId = familyId)
    (scope : SessionScope) :
    (sessionServer rt).Ensures (Undisturbed claimed.userId familyId) t
      (ofToken (AuthService.rotate rt.toTokenRuntime claimed scope)) g fun r g' =>
        SameRoles claimed.userId g g' ∧ Renewed rt claimed.userId familyId scope r g' := by
  unfold AuthService.rotate
  rw [ofToken_bind]
  refine Server.ensures_bind .refl (issue_ensures scope (some claimed.familyId)) ?_ ?_
  · rintro e g₁ ⟨-, plaintext, h, -⟩
    cases h
  · rintro nextRefresh g₁ ⟨hroles, plaintext, h, -, hissued⟩
    cases h
    obtain ⟨row, hlive⟩ := hissued (congrArg some hfamily)
    refine Server.ensures_ret fun g' hrely => ⟨hroles.trans hrely.role, ?_⟩
    exact ⟨_, row, rfl, rfl, hlive.undisturbed hrely⟩

/-- A refresh with a live token renews the session, unless the token has expired. -/
theorem refresh_ensures {scope : SessionScope} {refreshToken : String} {row : RefreshToken}
    (hlive : Live rt userId familyId scope.tenantId refreshToken row g)
    (hgrants : Grants userId scope g) :
    (sessionServer rt).Ensures (Undisturbed userId familyId) t
      (ofToken (AuthService.refresh rt.toTokenRuntime refreshToken)) g fun r g' =>
        Grants userId scope g' ∧ (Renewed rt userId familyId scope r g' ∨
          (∃ e, r = .error e) ∧ row.expiresAt < g'.clock) := by
  unfold AuthService.refresh
  rw [ofToken_bind]
  refine Server.ensures_bind .refl (claim_ensures hlive) ?_ ?_
  · rintro e g₁ ⟨hroles, h | h⟩
    · cases h
    · exact ⟨hroles.grants hgrants, .inr ⟨⟨e, rfl⟩, h.2⟩⟩
  · rintro claimed g₁ ⟨hroles, h | ⟨⟨e, h⟩, -⟩⟩
    · have hclaimed : claimed = ⟨⟨row.tenantId, row.role⟩, row.userId, row.familyId⟩ :=
        Except.ok.inj h
      have hfamily : claimed.familyId = familyId := by rw [hclaimed]; exact hlive.family
      have htenant : claimed.tenantId = scope.tenantId := by rw [hclaimed]; exact hlive.tenant
      obtain rfl : claimed.userId = userId := by rw [hclaimed]; exact hlive.user
      have hgrants₁ := hroles.grants hgrants
      obtain ⟨tenantId, role⟩ := scope
      rw [htenant]
      cases tenantId with
      -- a session without a tenant has no role to look up
      | none =>
        have hrole : role = none := hgrants₁
        subst hrole
        refine (rotate_ensures hfamily ⟨none, none⟩).mono fun r g' h => ?_
        exact ⟨h.1.grants hgrants₁, .inl h.2⟩
      -- the role that is read is the one of the scope, which the user still has
      | some tenantId =>
        refine ensures_token fun g₂ found hrely hfound => ?_
        have hgrants₂ : Grants claimed.userId ⟨some tenantId, role⟩ g₂ := hgrants₁.undisturbed hrely
        obtain rfl : found = role := hfound.trans hgrants₂.2
        cases found with
        | none => exact absurd rfl hgrants₂.1
        | some role =>
          refine (rotate_ensures hfamily ⟨some tenantId, some role⟩).mono fun r g' h => ?_
          exact ⟨h.1.grants hgrants₂, .inl h.2⟩
    · cases h

/-! ## The start of a session -/

/-- The first tokens of a session, issued in the scope where it starts. -/
theorem issueSession_ensures (scope : SessionScope) :
    (sessionServer rt).Ensures (Undisturbed userId familyId) t
      (ofToken (AuthService.issueSession rt.toTokenRuntime userId scope)) g fun r g' =>
        SameRoles userId g g' ∧ ∃ tokens, r = .ok tokens ∧
          tokens.token = rt.sign ⟨userId, scope.tenantId, scope.role⟩ ∧
          Issued rt userId familyId scope tokens.refreshToken g' := by
  unfold AuthService.issueSession
  rw [ofToken_bind]
  refine Server.ensures_bind .refl (issue_ensures scope none) ?_ ?_
  · rintro e g₁ ⟨-, plaintext, h, -⟩
    cases h
  · rintro refreshToken g₁ ⟨hroles, plaintext, h, hissued, -⟩
    cases h
    refine Server.ensures_ret fun g' hrely => ⟨hroles.trans hrely.role, ?_⟩
    exact ⟨_, rfl, rfl, hissued.undisturbed hrely⟩

/-- The tokens that a session starts with, in some scope. -/
def Started (rt : AuthRuntime) (user : User) (familyId : Uuid) (scope : SessionScope)
    (r : Except Thrown AuthResult) (g : SessionDb) : Prop :=
  ∃ result, r = .ok result ∧ result.token = rt.sign ⟨user.id, scope.tenantId, scope.role⟩ ∧
    Issued rt user.id familyId scope result.refreshToken g

theorem session_ensures (user : User) (scope : SessionScope) :
    (sessionServer rt).Ensures (Undisturbed user.id familyId) t
      (AuthService.session rt user scope) g
      fun r g' => SameRoles user.id g g' ∧ Started rt user familyId scope r g' := by
  refine Server.ensures_bind .refl (issueSession_ensures scope) ?_ ?_
  · rintro e g₁ ⟨-, tokens, h, -⟩
    cases h
  · rintro tokens g₁ ⟨hroles, tokens', h, htoken, hissued⟩
    cases h
    refine Server.ensures_ret fun g' hrely => ⟨hroles.trans hrely.role, ?_⟩
    exact ⟨_, rfl, htoken, hissued.undisturbed hrely⟩

/-- Where the session starts, the user has a membership, or gets one. -/
def SessionStart.Member (g : SessionDb) : SessionStart → Prop
  | switchTenant user tenantId => g.role user.id tenantId ≠ none
  | issueSessionFor _ | onboarding _ => True

/-- The scope of a session's start is granted, or a scope of a tenant where the user has no role. -/
def Scoped (userId : Uuid) (member : Prop) (scope : SessionScope) (g : SessionDb) : Prop :=
  (member → Grants userId scope g) ∧
    (¬member → ∃ tenantId, scope.tenantId = some tenantId ∧ g.role userId tenantId = none)

theorem onboard_ensures (user : User) :
    (sessionServer rt).Ensures (Undisturbed user.id familyId) t (TenantService.onboard user.id) g
      fun r g' => ∃ tenantId, r = .ok tenantId ∧ g'.role user.id tenantId = some .owner := by
  refine Server.ensures_call fun g₁ x hrely hx => ?_
  obtain ⟨tenantId, rfl, hv⟩ := hx
  have hnew : ∀ m ∈ g₁.memberships, m.tenantId ≠ tenantId := hv
  refine Server.ensures_ret fun g' hrely' => ⟨tenantId, rfl, ?_⟩
  rw [hrely'.role tenantId]
  change ((g₁.memberships ++ [_]).find? _).map _ = _
  have hnone : (g₁.memberships.find? fun m =>
      m.userId = user.id ∧ m.tenantId = tenantId) = none := by
    rw [List.find?_eq_none]
    intro m hm
    simp [hnew m hm]
  rw [List.find?_append, hnone]
  simp

theorem start_ensures (start : SessionStart) :
    (sessionServer rt).Ensures (Undisturbed start.user.id familyId) t
      (start.program rt) g fun r g' =>
      ∀ result, r = .ok result → ∃ scope, Started rt start.user familyId scope r g' ∧
        Scoped start.user.id (start.Member g) scope g' := by
  cases start with
  | switchTenant user tenantId =>
    have hresolve : SessionStart.program rt (.switchTenant user tenantId) =
        (AuthM.exec (.session (.findByUserAndTenant user.id tenantId)) >>= fun role =>
          if role = none ∧ user.isSuperAdmin = false then
            throwSql (.unauthorized "Not a member of this tenant")
          else AuthService.session rt user ⟨some tenantId, role⟩) := by
      rw [← ofToken_execSql]
      rfl
    rw [hresolve]
    refine ensures_exec fun g₁ role hrely hrole => ?_
    have hfound : role = g.role user.id tenantId := hrole.trans (hrely.role tenantId)
    -- who is no member is let in as a super-admin only
    split
    · exact Server.ensures_raise fun g' _ => nofun
    · refine (session_ensures user ⟨some tenantId, role⟩).mono fun r g' h result _ => ?_
      -- nothing has changed the membership meanwhile
      have hsame : g'.role user.id tenantId = g.role user.id tenantId :=
        (h.1 tenantId).trans (hrely.role tenantId)
      refine ⟨_, h.2, fun hmember => ⟨?_, ?_⟩, fun hnone => ⟨tenantId, rfl, ?_⟩⟩
      · exact hfound ▸ hmember
      · exact hsame.trans hfound.symm
      · exact hsame.trans (not_not.1 hnone)
  | issueSessionFor user =>
    refine ensures_exec fun g₁ ms hrely hms => ?_
    have hfound : ms = g₁.memberships.filter (·.userId = user.id) := hms
    cases ms with
    -- nobody's member: a session without a tenant
    | nil =>
      refine (session_ensures user ⟨none, none⟩).mono fun r g' h result _ => ?_
      exact ⟨_, h.2, fun _ => rfl, fun hnone => (hnone trivial).elim⟩
    -- the session is for the first of the memberships
    | cons primary ms =>
      refine (session_ensures user ⟨some primary.tenantId, some primary.role⟩).mono
        fun r g' h result _ => ?_
      refine ⟨_, h.2, fun _ => ⟨nofun, ?_⟩, fun hnone => (hnone trivial).elim⟩
      calc g'.role user.id primary.tenantId
        _ = g₁.role user.id primary.tenantId := h.1 primary.tenantId
        _ = some primary.role := by
          rw [AuthDb.role_eq, ← hfound]
          simp
  -- the user has just become the owner of the new tenant
  | onboarding user =>
    refine Server.ensures_bind .refl (onboard_ensures user) (fun e g₁ h result hr => by cases hr) ?_
    rintro tenantId g₁ ⟨tenantId', h, howner⟩
    cases h
    refine (session_ensures user ⟨some tenantId, some .owner⟩).mono fun r g' h result _ => ?_
    exact ⟨_, h.2, fun _ => ⟨nofun, (h.1 tenantId).trans howner⟩, fun hnone => (hnone trivial).elim⟩

/-! ## Executions without interference -/

theorem amid_token {s : TokenStatement} {f : s.Result → TokenM α} {r : Except Thrown α}
    (v : s.Result) (hv : g.returns (.session s) v)
    (h : (sessionServer rt).Amid (Undisturbed userId familyId) t (ofToken (f v))
      (g.apply (.session s) v) r g') :
    (sessionServer rt).Amid (Undisturbed userId familyId) t
      (ofToken (TokenM.exec s >>= f)) g r g' := by
  rw [ofToken_execSql_bind]
  exact ⟨g, .ok v, .refl g, ⟨v, rfl, hv⟩, h⟩

/-- A live token that has not expired can be claimed. -/
theorem exists_claim {tenantId : Option Uuid} {refreshToken : String} {row : RefreshToken}
    (hlive : Live rt userId familyId tenantId refreshToken row g)
    (halive : g.clock ≤ row.expiresAt) :
    ∃ g', (sessionServer rt).Amid (Undisturbed userId familyId) t
      (ofToken (RefreshTokenService.claim rt.toTokenRuntime refreshToken)) g
        (.ok ⟨⟨row.tenantId, row.role⟩, row.userId, row.familyId⟩) g' ∧
      g'.clock = g.clock ∧ SameRoles userId g g' ∧
      ∀ plaintext, g.tokenOf (rt.sha256 plaintext) = none →
        g'.tokenOf (rt.sha256 plaintext) = none := by
  let n := g.tokens.countP fun r => r.id = row.id ∧ r.usedAt = none
  have hmem : row ∈ g.tokens := List.mem_of_find?_eq_some hlive.found
  have hpos : 0 < n := List.countP_pos_iff.2 ⟨row, hmem, by simp [hlive.unused]⟩
  let g₁ := g.apply (.session (.markUsedIfUnused row.id g.clock)) n
  -- the conditional update meets the row, as the token is unused
  have hmark : (sessionServer rt).Amid (Undisturbed userId familyId) t
      (ofToken (RefreshTokenRepository.markUsedIfUnused row.id g.clock)) g (.ok true) g₁ := by
    refine amid_token n rfl ⟨?_, .refl _⟩
    simp [hpos]
  refine ⟨g₁, ?_, rfl, fun _ => rfl, fun plaintext hnone => ?_⟩
  · -- statement by statement, with nothing happening in between
    refine amid_token (some row) hlive.found.symm ?_
    simp only [hlive.unrevoked, Option.isSome_none, Bool.false_eq_true, if_false]
    refine amid_token g.clock rfl ?_
    rw [if_neg (Int.not_lt.2 halive)]
    refine amid_token g.clock rfl ?_
    rw [ofToken_bind]
    exact hmark.bind (fun _ _ _ => .trans) ⟨rfl, .refl _⟩
  · -- marking a row as used changes no hash
    have hhash : ∀ r, (TokenDb.useRow row.id g.clock r).tokenHash = r.tokenHash := fun r => by
      unfold TokenDb.useRow
      split <;> rfl
    rw [tokenOf_map hhash rfl, hnone]
    rfl

/-- A new refresh token can be issued, if its hash is not in use. -/
theorem exists_issue {plaintext : String} (hfree : g.tokenOf (rt.sha256 plaintext) = none)
    (scope : SessionScope) :
    ∃ g', (sessionServer rt).Amid (Undisturbed userId familyId) t
      (ofToken (RefreshTokenService.issue rt.toTokenRuntime userId scope (some familyId))) g
        (.ok plaintext) g' := by
  -- there are always ids that no token has
  obtain ⟨id, hid⟩ := Infinite.exists_notMem_finset (g.tokens.map (·.id)).toFinset
  let row : RefreshToken := ⟨id, userId, familyId, rt.sha256 plaintext, scope.tenantId, scope.role,
    g.clock + rt.refreshTokenTtlDays * dayMs, none, none⟩
  refine ⟨_, amid_token plaintext trivial
    (amid_token g.clock rfl (amid_token row ?_ ⟨rfl, .refl _⟩))⟩
  refine ⟨rfl, fun r hr => ⟨?_, ?_⟩, rfl⟩
  · rintro hsame
    have hmem : r.id ∈ (g.tokens.map (·.id)).toFinset :=
      List.mem_toFinset.2 (List.mem_map_of_mem hr)
    rw [hsame] at hmem
    exact hid hmem
  · have hnone : ∀ r ∈ g.tokens, r.tokenHash ≠ rt.sha256 plaintext := by
      simpa [SessionDb.tokenOf] using hfree
    exact hnone r hr

/-- A refresh with a live token that has not expired can be made. -/
theorem exists_refresh {scope : SessionScope} {refreshToken plaintext : String} {row : RefreshToken}
    (hlive : Live rt userId familyId scope.tenantId refreshToken row g)
    (hgrants : Grants userId scope g) (halive : g.clock ≤ row.expiresAt)
    (hfree : g.tokenOf (rt.sha256 plaintext) = none) :
    ∃ next g', (sessionServer rt).Amid (Undisturbed userId familyId) t
      (ofToken (AuthService.refresh rt.toTokenRuntime refreshToken)) g (.ok next) g' := by
  -- the token is claimed, and then a new one is issued
  obtain ⟨g₁, hclaim, -, hroles, hfree₁⟩ := exists_claim (t := t) hlive halive
  have hgrants₁ := hroles.grants hgrants
  obtain rfl := hlive.user
  obtain rfl := hlive.family
  obtain ⟨g₂, hissue⟩ : ∃ g₂, (sessionServer rt).Amid (Undisturbed row.userId row.familyId) t
      (ofToken (RefreshTokenService.issue rt.toTokenRuntime row.userId scope (some row.familyId)))
        g₁ (.ok plaintext) g₂ := exists_issue (hfree₁ plaintext hfree) scope
  have hrotate : (sessionServer rt).Amid (Undisturbed row.userId row.familyId) t
      (ofToken (AuthService.rotate rt.toTokenRuntime
        ⟨⟨row.tenantId, row.role⟩, row.userId, row.familyId⟩ scope)) g₁
      (.ok ⟨rt.sign ⟨row.userId, scope.tenantId, scope.role⟩, plaintext⟩) g₂ := by
    unfold AuthService.rotate
    rw [ofToken_bind]
    exact hissue.bind (fun _ _ _ => .trans) ⟨rfl, .refl _⟩
  refine ⟨⟨rt.sign ⟨row.userId, scope.tenantId, scope.role⟩, plaintext⟩, g₂, ?_⟩
  unfold AuthService.refresh
  rw [ofToken_bind]
  refine hclaim.bind (fun _ _ _ => .trans) ?_
  rw [hlive.tenant] at hrotate ⊢
  obtain ⟨tenantId, role⟩ := scope
  cases tenantId with
  | none =>
    have hrole : role = none := hgrants₁
    subst hrole
    exact hrotate
  -- the membership is still there, and so the role is
  | some tenantId =>
    refine amid_token role hgrants₁.2.symm ?_
    cases role with
    | none => exact absurd rfl hgrants₁.1
    | some role => exact hrotate

/-- A refresh of a session whose user has no role in its tenant can fail before the token
expires. -/
theorem exists_refused {tenantId : Uuid} {refreshToken : String} {row : RefreshToken}
    (hlive : Live rt userId familyId (some tenantId) refreshToken row g)
    (hnone : g.role userId tenantId = none) (halive : g.clock ≤ row.expiresAt) :
    ∃ e g', (sessionServer rt).Amid (Undisturbed userId familyId) t
      (ofToken (AuthService.refresh rt.toTokenRuntime refreshToken)) g (.error e) g' ∧
        g'.clock = g.clock := by
  obtain ⟨g₁, hclaim, hclock, hroles, -⟩ := exists_claim (t := t) hlive halive
  obtain rfl := hlive.user
  -- the token is claimed, the role is gone, and the family is revoked
  let n := g₁.tokens.countP fun r => r.familyId = row.familyId ∧ r.revokedAt = none
  let g₂ := g₁.apply (.session (.revokeFamily row.familyId g₁.clock)) n
  have hrevoke : (sessionServer rt).Amid (Undisturbed row.userId familyId) t
      (ofToken (RefreshTokenService.revokeFamily row.familyId)) g₁ (.ok ()) g₂ :=
    amid_token g₁.clock rfl (amid_token n rfl ⟨rfl, .refl _⟩)
  refine ⟨.app (.unauthorized "Membership no longer valid"), g₂, ?_, hclock⟩
  unfold AuthService.refresh
  rw [ofToken_bind]
  refine hclaim.bind (fun _ _ _ => .trans) ?_
  rw [hlive.tenant]
  refine amid_token none ((hroles tenantId).trans hnone).symm ?_
  rw [ofToken_bind]
  exact hrevoke.bind (fun _ _ _ => .trans) ⟨rfl, .refl _⟩

/-! ## Sessions that last -/

variable (T rt)

/-- The tokens `tokens` come of `first` by refreshes, each with the refresh token of the one
before. -/
inductive Chain (userId familyId : Uuid) (first : SessionTokens) (g : SessionDb) :
    SessionTokens → SessionDb → Prop where
  | first : Chain userId familyId first g first g
  | refreshed {tokens next : SessionTokens} {g₁ g₂ : SessionDb} (t : T)
      (h : Chain userId familyId first g tokens g₁)
      (hrefresh : (sessionServer rt).Amid (Undisturbed userId familyId) t
        (ofToken (AuthService.refresh rt.toTokenRuntime tokens.refreshToken)) g₁ (.ok next) g₂) :
      Chain userId familyId first g next g₂
  | beside {tokens : SessionTokens} {g₁ g₂ : SessionDb}
    (h : Chain userId familyId first g tokens g₁)
      (hrely : Undisturbed userId familyId g₁ g₂) : Chain userId familyId first g tokens g₂

/-- The refresh token is one that expires before the time of `g'`. -/
def Expired (refreshToken : String) (g g' : SessionDb) : Prop :=
  ∃ row, g.tokenOf (rt.sha256 refreshToken) = some row ∧ row.expiresAt < g'.clock

/-- However often the session is refreshed: its access tokens carry what the first one carries, no
refresh fails before its token has expired, and there is a refresh for each unused random value. -/
structure SessionLasts (userId familyId : Uuid) (first : SessionTokens) (g : SessionDb) : Prop where
  authority : ∃ payload, ∀ tokens g₁, Chain T rt userId familyId first g tokens g₁ →
    tokens.token = rt.sign payload
  succeeds : ∀ tokens g₁, Chain T rt userId familyId first g tokens g₁ → ∀ (t : T) e g₂,
    (sessionServer rt).Amid (Undisturbed userId familyId) t
      (ofToken (AuthService.refresh rt.toTokenRuntime tokens.refreshToken)) g₁ (.error e) g₂ →
    Expired rt tokens.refreshToken g₁ g₂
  renewable : ∀ tokens g₁, Chain T rt userId familyId first g tokens g₁ →
    ¬Expired rt tokens.refreshToken g₁ g₁ →
    ∀ (t : T) plaintext, g₁.tokenOf (rt.sha256 plaintext) = none →
    ∃ next g₂, (sessionServer rt).Amid (Undisturbed userId familyId) t
      (ofToken (AuthService.refresh rt.toTokenRuntime tokens.refreshToken)) g₁ (.ok next) g₂

variable {T rt}

/-- What the refreshes of a session preserve. -/
theorem Chain.live {scope : SessionScope} {first tokens : SessionTokens} {row : RefreshToken}
    (hlive : Live rt userId familyId scope.tenantId first.refreshToken row g)
    (hgrants : Grants userId scope g)
    (htoken : first.token = rt.sign ⟨userId, scope.tenantId, scope.role⟩)
    (h : Chain T rt userId familyId first g tokens g₁) :
    Grants userId scope g₁ ∧ tokens.token = rt.sign ⟨userId, scope.tenantId, scope.role⟩ ∧
      ∃ row, Live rt userId familyId scope.tenantId tokens.refreshToken row g₁ := by
  induction h with
  | first => exact ⟨hgrants, htoken, row, hlive⟩
  | refreshed t h hrefresh ih =>
    obtain ⟨hgrants₁, -, row₁, hlive₁⟩ := ih
    obtain ⟨hgrants₂, ⟨next, row₂, hr, hnext, hlive₂⟩ | ⟨⟨e, he⟩, -⟩⟩ :=
      refresh_ensures hlive₁ hgrants₁ _ _ hrefresh
    · cases hr
      exact ⟨hgrants₂, hnext, row₂, hlive₂⟩
    · cases he
  | beside h hrely ih =>
    obtain ⟨hgrants₁, htoken₁, row₁, hlive₁⟩ := ih
    exact ⟨hgrants₁.undisturbed hrely, htoken₁, row₁, hlive₁.undisturbed hrely⟩

/-- A session whose first token is live and whose scope is granted lasts. -/
theorem sessionLasts_of_grants {scope : SessionScope} {first : SessionTokens} {row : RefreshToken}
    (hlive : Live rt userId familyId scope.tenantId first.refreshToken row g)
    (hgrants : Grants userId scope g)
    (htoken : first.token = rt.sign ⟨userId, scope.tenantId, scope.role⟩) :
    SessionLasts T rt userId familyId first g where
  authority := ⟨_, fun tokens g₁ h => (h.live hlive hgrants htoken).2.1⟩
  succeeds tokens g₁ h t e g₂ hrefresh := by
    obtain ⟨hgrants₁, -, row₁, hlive₁⟩ := h.live hlive hgrants htoken
    obtain ⟨-, ⟨next, row₂, hr, -⟩ | ⟨-, hexpired⟩⟩ := refresh_ensures hlive₁ hgrants₁ _ _ hrefresh
    · cases hr
    · exact ⟨row₁, hlive₁.found, hexpired⟩
  renewable tokens g₁ h halive t plaintext hfree := by
    obtain ⟨hgrants₁, -, row₁, hlive₁⟩ := h.live hlive hgrants htoken
    have hlater : g₁.clock ≤ row₁.expiresAt :=
      Int.not_lt.1 fun hexpired => halive ⟨row₁, hlive₁.found, hexpired⟩
    exact exists_refresh hlive₁ hgrants₁ hlater hfree

/-- A session that lasts has started where its user is a member. -/
theorem member_of_sessionLasts {start : SessionStart} {result : AuthResult} {row : RefreshToken}
    (hstart : (sessionServer rt).Amid (Undisturbed start.user.id row.familyId) t
      (start.program rt) g (.ok result) g₁)
    (hrow : g₁.tokenOf (rt.sha256 result.refreshToken) = some row)
    (halive : g₁.clock ≤ row.expiresAt)
    (hlasts : SessionLasts T rt start.user.id row.familyId result.toSessionTokens g₁) :
    start.Member g := by
  obtain ⟨scope, ⟨result', h, -, row', hrow', hissued⟩, -, hother⟩ :=
    start_ensures start _ _ hstart result rfl
  cases h
  obtain rfl : row' = row := Option.some.inj (hrow'.symm.trans hrow)
  have hlive := hissued rfl
  by_contra hnot
  obtain ⟨tenantId, htenant, hnone⟩ := hother hnot
  rw [htenant] at hlive
  -- the first refresh is refused, although the token is alive
  obtain ⟨e, g₂, hrefused, hclock⟩ := exists_refused (t := t) hlive hnone halive
  obtain ⟨row₂, hrow₂, hexpired⟩ := hlasts.succeeds _ g₁ .first t e g₂ hrefused
  obtain rfl : row₂ = row' := Option.some.inj (hrow₂.symm.trans hrow)
  rw [hclock] at hexpired
  exact Int.not_lt.2 halive hexpired

/-! ## Interleaved runs -/

abbrev SessionWorld (T : Type) : Type :=
  World AuthSql T SessionDb SessionCall Thrown SessionResponse

/-- A step beside session `t`, which does not die: every other statement spares the user and the
family, and whatever else happens leaves them undisturbed. -/
def Beside [DecidableEq T] (rt : AuthRuntime) (userId familyId : Uuid) (t : T)
    (w w' : SessionWorld T) : Prop :=
  ∃ l, World.Step (sessionServer rt) w l w' ∧ match l with
    | .start _ _ => True
    | .call u x => u = t ∨ x.1.Spares userId familyId w.shared.toAuthDb
    | .crash u => u ≠ t
    | .env => Undisturbed userId familyId w.shared w'.shared

theorem Beside.undisturbed [DecidableEq T] {w w' : SessionWorld T}
    (h : Beside rt userId familyId t w w') :
    Server.StepBeside (sessionServer rt) (Undisturbed userId familyId) t w w' := by
  obtain ⟨l, hs, hl⟩ := h
  cases hs with
  | @start u q hidle => exact ⟨_, .start q hidle, nofun, fun _ => .refl _⟩
  | @call u q tr s k x hat hx =>
    refine ⟨_, .call x hat hx, nofun, fun hother => ?_⟩
    -- a statement of the session itself, or one that spares it
    rcases hl with rfl | hspares
    · exact absurd rfl (hother ⟨s, x⟩)
    · obtain ⟨v, rfl, -⟩ := hx
      exact undisturbed_apply hspares
  | @crash u σ hat hrunning =>
    refine ⟨_, .crash hat hrunning, ?_, fun _ => .refl _⟩
    rintro ⟨⟩
    exact hl rfl
  | env hg => exact ⟨_, .env hg, nofun, fun _ => hl⟩

/-- A refresh of the session in an interleaved run. -/
theorem Chain.of_run [DecidableEq T] {first tokens next : SessionTokens} {w w' : SessionWorld T}
    {q : SessionCall} {p : AuthM SessionResponse} {tr : List (Exchange AuthSql)}
    (h : Chain T rt userId familyId first g tokens w.shared)
    (hat : w.session t = some ⟨.refresh tokens.refreshToken,
      handleCall rt (.refresh tokens.refreshToken), []⟩)
    (hrun : Relation.ReflTransGen (Beside rt userId familyId t) w w')
    (hat' : w'.session t = some ⟨q, p, tr⟩) (hout : p.outcome = some (.ok (.tokens next))) :
    Chain T rt userId familyId first g next w'.shared := by
  have hbeside : Relation.ReflTransGen
      (Server.StepBeside (sessionServer rt) (Undisturbed userId familyId) t) w w' :=
    hrun.lift id fun _ _ hstep => hstep.undisturbed
  have hamid := Server.amid_of_run .refl (fun _ _ _ => .trans) hbeside hat hat' hout
  rcases Server.amid_bind_cases .refl hamid with ⟨e, he, -⟩ | ⟨tokens', g₁, hrefresh, hret, hrely⟩
  · cases he
  · cases hret
    exact (h.refreshed t hrefresh).beside hrely

/-- A session that has started and not expired lasts exactly if its user is a member where it
starts: unless it is a tenant switch of a super admin without a membership in the tenant. The
refreshes that succeed in interleaved runs are among those that are meant. -/
theorem session_lasts_iff [DecidableEq T] (start : SessionStart) {result : AuthResult}
    {row : RefreshToken}
    (hstart : (sessionServer rt).Amid (Undisturbed start.user.id row.familyId) t
      (start.program rt) g (.ok result) g₁)
    (hrow : g₁.tokenOf (rt.sha256 result.refreshToken) = some row)
    (halive : g₁.clock ≤ row.expiresAt) :
    (SessionLasts T rt start.user.id row.familyId result.toSessionTokens g₁ ↔ start.Member g) ∧
      ∀ (tokens next : SessionTokens) (u : T) (w w' : SessionWorld T) q p tr,
        Chain T rt start.user.id row.familyId result.toSessionTokens g₁ tokens w.shared →
        w.session u =
          some ⟨.refresh tokens.refreshToken, handleCall rt (.refresh tokens.refreshToken), []⟩ →
        Relation.ReflTransGen (Beside rt start.user.id row.familyId u) w w' →
        w'.session u = some ⟨q, p, tr⟩ → p.outcome = some (.ok (.tokens next)) →
        Chain T rt start.user.id row.familyId result.toSessionTokens g₁ next w'.shared := by
  refine ⟨⟨member_of_sessionLasts hstart hrow halive, fun hmember => ?_⟩, ?_⟩
  · obtain ⟨scope, ⟨result', h, htoken, row', hrow', hissued⟩, hgrants, -⟩ :=
      start_ensures start _ _ hstart result rfl
    cases h
    obtain rfl : row' = row := Option.some.inj (hrow'.symm.trans hrow)
    exact sessionLasts_of_grants (hissued rfl) (hgrants hmember) htoken
  · intro tokens next u w w' q p tr h hat hrun hat' hout
    exact h.of_run hat hrun hat' hout

end Rules

/-! ## Sample sessions -/

/-- A tenant switch that draws the random value `plaintext`. -/
theorem switchTenant_executes {T : Type} {rt : AuthRuntime} {t : T} {user : User} {tenantId : Uuid}
    {role : Option MembershipRole} {plaintext : String} {row : RefreshToken}
    (hrole : g.role user.id tenantId = role) (hallowed : ¬(role = none ∧ user.isSuperAdmin = false))
    (hrow : g.sessions.Inserts ⟨user.id, none, rt.sha256 plaintext, some tenantId, role,
      g.clock + rt.refreshTokenTtlDays * dayMs⟩ row) :
    ∃ result g₁, (sessionServer rt).Amid (Undisturbed user.id familyId) t
        (SessionStart.program rt (.switchTenant user tenantId)) g (.ok result) g₁ ∧
      result.refreshToken = plaintext ∧ g₁.tokens = g.tokens ++ [row] ∧ g₁.clock = g.clock := by
  let data : RefreshTokenData := ⟨user.id, none, rt.sha256 plaintext, some tenantId, role,
    g.clock + rt.refreshTokenTtlDays * dayMs⟩
  let g₁ := g.apply (.session (.create data)) row
  -- three statements: the random bytes, the clock and the insert
  have hissue : (sessionServer rt).Amid (Undisturbed user.id familyId) t
      (ofToken (RefreshTokenService.issue rt.toTokenRuntime user.id ⟨some tenantId, role⟩ none)) g
      (.ok plaintext) g₁ :=
    amid_token plaintext trivial (amid_token g.clock rfl (amid_token row hrow ⟨rfl, .refl _⟩))
  let tokens : SessionTokens := ⟨rt.sign ⟨user.id, some tenantId, role⟩, plaintext⟩
  have htokens : (sessionServer rt).Amid (Undisturbed user.id familyId) t
      (ofToken (AuthService.issueSession rt.toTokenRuntime user.id ⟨some tenantId, role⟩))
        g (.ok tokens)
      g₁ := by
    unfold AuthService.issueSession
    rw [ofToken_bind]
    exact hissue.bind (fun _ _ _ => .trans) ⟨rfl, .refl _⟩
  have hsession : (sessionServer rt).Amid (Undisturbed user.id familyId) t
      (AuthService.session rt user ⟨some tenantId, role⟩) g (.ok ⟨tokens, user⟩) g₁ :=
    htokens.bind (fun _ _ _ => .trans) ⟨rfl, .refl _⟩
  refine ⟨⟨tokens, user⟩, g₁, ?_, rfl, rfl, rfl⟩
  change (sessionServer rt).Amid _ t (AuthService.switchTenant rt user tenantId) g _ g₁
  unfold AuthService.switchTenant MembershipService.resolveRole
  rw [ofToken_execSql]
  refine ⟨g, .ok role, .refl g, ⟨role, rfl, hrole.symm⟩, ?_⟩
  change (sessionServer rt).Amid _ t
    (if role = none ∧ user.isSuperAdmin = false then _ else _) g _ g₁
  rw [if_neg hallowed]
  exact hsession

def sampleSessions : AuthRuntime :=
  ⟨⟨fun s => s, fun payload => reprStr payload, 7⟩, fun password hash => password = hash⟩

/-- User 1 is a member of tenant 1, and nobody has a token. -/
def sampleSessionDb : SessionDb := ⟨⟨[], [⟨1, 1, .staff⟩], [], []⟩, 0⟩

/-- The first session of the sample database. -/
theorem exists_sampleSwitch (user : User) {role : Option MembershipRole}
    (hrole : sampleSessionDb.role user.id 1 = role)
    (hallowed : ¬(role = none ∧ user.isSuperAdmin = false)) :
    ∃ result row g₁, (sessionServer sampleSessions).Amid (Undisturbed user.id row.familyId) ()
        (SessionStart.program sampleSessions (.switchTenant user 1)) sampleSessionDb
          (.ok result) g₁ ∧
      g₁.tokenOf (sampleSessions.sha256 result.refreshToken) = some row ∧
      g₁.clock ≤ row.expiresAt := by
  -- the row that the switch inserts
  let row : RefreshToken := ⟨1, user.id, 1, "r", some 1, role, 7 * dayMs, none, none⟩
  have hexpires : (0 : ℤ) + 7 * dayMs = 7 * dayMs := by decide
  have hrow : sampleSessionDb.sessions.Inserts
    ⟨user.id, none, sampleSessions.sha256 "r", some 1, role,
      sampleSessionDb.clock + sampleSessions.refreshTokenTtlDays * dayMs⟩ row := by
    refine ⟨?_, nofun, nofun⟩
    change row = ⟨1, user.id, 1, "r", some 1, role, 0 + 7 * dayMs, none, none⟩
    rw [hexpires]
  obtain ⟨result, g₁, hstart, hplaintext, htokens, hclock⟩ :
      ∃ result g₁, (sessionServer sampleSessions).Amid (Undisturbed user.id row.familyId) ()
        (SessionStart.program sampleSessions (.switchTenant user 1)) sampleSessionDb
          (.ok result) g₁ ∧
      result.refreshToken = "r" ∧ g₁.tokens = sampleSessionDb.tokens ++ [row] ∧
      g₁.clock = sampleSessionDb.clock := switchTenant_executes hrole hallowed hrow
  refine ⟨result, row, g₁, hstart, ?_, ?_⟩
  · rw [hplaintext]
    exact tokenOf_insert (g := sampleSessionDb) nofun htokens
  · rw [hclock]
    exact (by decide : (0 : ℤ) ≤ 7 * dayMs)

def sampleMember : User := ⟨1, "ann@example.com", "Ann", none, none, none, false⟩

def sampleSuperAdmin : User := ⟨2, "root@example.com", "Root", none, none, none, true⟩

/-- A member switches to the tenant. -/
theorem session_lasts_iff_member :
    ∃ result familyId g₁, (sessionServer sampleSessions).Amid (Undisturbed 1 familyId) ()
        (SessionStart.program sampleSessions (.switchTenant sampleMember 1)) sampleSessionDb
          (.ok result) g₁ ∧
      SessionLasts Unit sampleSessions 1 familyId result.toSessionTokens g₁ := by
  obtain ⟨result, row, g₁, hstart, hrow, halive⟩ := exists_sampleSwitch sampleMember rfl (by decide)
  have hmember : (SessionStart.switchTenant sampleMember 1).Member sampleSessionDb := by
    change sampleSessionDb.role 1 1 ≠ none
    decide
  exact ⟨result, row.familyId, g₁, hstart,
    (session_lasts_iff (.switchTenant sampleMember 1) hstart hrow halive).1.2 hmember⟩

/-- A super admin without a membership switches to the tenant, and the first refresh fails. -/
theorem superAdmin_switch_ends :
    ∃ result familyId g₁, (sessionServer sampleSessions).Amid (Undisturbed 2 familyId) ()
        (SessionStart.program sampleSessions (.switchTenant sampleSuperAdmin 1)) sampleSessionDb
        (.ok result) g₁ ∧
      ¬SessionLasts Unit sampleSessions 2 familyId result.toSessionTokens g₁ := by
  obtain ⟨result, row, g₁, hstart, hrow, halive⟩ :=
    exists_sampleSwitch sampleSuperAdmin rfl (by decide)
  refine ⟨result, row.familyId, g₁, hstart, fun hlasts => ?_⟩
  have hmember : (SessionStart.switchTenant sampleSuperAdmin 1).Member sampleSessionDb :=
    member_of_sessionLasts hstart hrow halive hlasts
  exact hmember (by decide)

end BookingPlatform
