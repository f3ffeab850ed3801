import BookingPlatform.Library.Server
import BookingPlatform.RefreshToken.Service
import Mathlib.Data.List.Nodup

/-!
# Rotation of Refresh Tokens

Refresh, logout and new sessions, statement by statement, over one table of refresh
tokens. Burning a family updates the rows that are there, so it is final only if no
refresh of the family is under way that can still consume a token or insert a successor.

## Main definitions

- `tokenServer`: any number of session requests over one table of refresh tokens.
- `Rotation`: how far a request has come.

## Main results

- `follows_rotation`: every request keeps to its course.
- `RotationInv.statement`: a family that is burned while no other refresh of it is under
  way stays burned.
-/

namespace BookingPlatform

open Library TokenM

/-! ## The token table -/

/-- The refresh tokens and the memberships, and the families that a `revokeFamily`
statement has named so far. -/
structure TokenDb where
  tokens : List RefreshToken
  role : Uuid → Uuid → Option MembershipRole
  burned : List Uuid

namespace TokenDb

variable (g : TokenDb)

/-- `SET used_at = … WHERE id = … AND used_at IS NULL`, on one row. -/
def useRow (id : Uuid) (usedAt : Instant) (r : RefreshToken) : RefreshToken :=
  if r.id = id ∧ r.usedAt = none then { r with usedAt := some usedAt } else r

/-- `SET revoked_at = … WHERE family_id = … AND revoked_at IS NULL`, on one row. -/
def revokeRow (familyId : Uuid) (revokedAt : Instant) (r : RefreshToken) : RefreshToken :=
  if r.familyId = familyId ∧ r.revokedAt = none then { r with revokedAt := some revokedAt } else r

/-- `v` is the row an `INSERT` of `data` makes: its id, its hash and a family id that is
drawn are new. -/
def Inserts (data : RefreshTokenData) (v : RefreshToken) : Prop :=
  v = ⟨v.id, data.userId, v.familyId, data.tokenHash, data.tenantId, data.role, data.expiresAt,
    none, none⟩ ∧
  (∀ r ∈ g.tokens, r.id ≠ v.id ∧ r.tokenHash ≠ v.tokenHash) ∧
  match data.familyId with
  | some familyId => v.familyId = familyId
  | none => ∀ r ∈ g.tokens, r.familyId ≠ v.familyId

/-- The results a statement can have when it succeeds. -/
def returns : (s : TokenStatement) → s.Result → Prop
  | .findByHash tokenHash, v => v = g.tokens.find? (·.tokenHash = tokenHash)
  | .create data, v => g.Inserts data v
  | .markUsedIfUnused id _, n => n = g.tokens.countP fun r => r.id = id ∧ r.usedAt = none
  | .revokeFamily familyId _, n =>
    n = g.tokens.countP fun r => r.familyId = familyId ∧ r.revokedAt = none
  | .findByUserAndTenant userId tenantId, v => v = g.role userId tenantId
  | .now, _ => True
  | .randomBytes, _ => True

/-- The answers a statement can get: reading the clock and drawing bytes never fail. -/
def possible (s : TokenStatement) : Except SqlState s.Result → Prop
  | .ok v => g.returns s v
  | .error _ => s ≠ .now ∧ s ≠ .randomBytes

/-- What a statement that succeeds does. -/
def apply : (s : TokenStatement) → s.Result → TokenDb
  | .create _, v => { g with tokens := g.tokens ++ [v] }
  | .markUsedIfUnused id usedAt, _ => { g with tokens := g.tokens.map (useRow id usedAt) }
  | .revokeFamily familyId revokedAt, _ =>
    { g with
      tokens := g.tokens.map (revokeRow familyId revokedAt)
      burned := familyId :: g.burned }
  | _, _ => g

/-- What a statement with a given answer does; one that fails does nothing. -/
def effect (s : TokenStatement) : Except SqlState s.Result → TokenDb
  | .ok v => g.apply s v
  | .error _ => g

end TokenDb

/-- Any number of session requests over one token table. Memberships may change at any
time, and a request that dies leaves what it has done. -/
def tokenServer {T : Type} (rt : TokenRuntime) :
    Server (sqlSignature TokenStatement TokenStatement.Result) T TokenDb SessionRequest Thrown
      SessionResponse where
  program := handleSession rt
  possible _ g := g.possible
  effect _ g := g.effect
  crash _ g := g
  env g g' := ∃ role, g' = { g with role }

/-! ## The course of a request -/

/-- How far a request has come: it is about to read its token or to open a family; it has
read a token that it may consume; it has lost the race for it; it has consumed it; it is
leaving; or it has nothing left to do. -/
inductive Rotation where
  | refreshing
  | opening
  | leaving
  | checked (r : RefreshToken)
  | lost (r : RefreshToken)
  | claimed (r : RefreshToken)
  | closing (r : RefreshToken)
  | finished

def Rotation.start : SessionRequest → Rotation
  | .refresh _ => refreshing
  | .logout _ => leaving
  | .issueSession .. => opening

/-- The course of refresh, logout and new sessions. -/
def rotation : Protocol (sqlSignature TokenStatement TokenStatement.Result) Rotation where
  allows ph s := match ph, s with
    | _, .now => True
    | _, .randomBytes => True
    | .refreshing, .findByHash _ => True
    | .leaving, .findByHash _ => True
    | .opening, .create data => data.familyId = none
    | .checked r, .markUsedIfUnused id _ => id = r.id
    | .lost r, .revokeFamily familyId _ => familyId = r.familyId
    | .closing r, .revokeFamily familyId _ => familyId = r.familyId
    | .claimed r, .revokeFamily familyId _ => familyId = r.familyId
    | .claimed _, .findByUserAndTenant _ _ => True
    | .claimed r, .create data => data.familyId = some r.familyId
    | _, _ => False
  answers _ _ _ := True
  next ph s x := match ph, s, x with
    | .refreshing, .findByHash _, .ok (some r) =>
      if r.revokedAt = none then .checked r else .finished
    | .leaving, .findByHash _, .ok (some r) => .closing r
    | .checked r, .markUsedIfUnused _ _, .ok n => if 0 < n then .claimed r else .lost r
    | _, .revokeFamily _ _, .ok _ => .finished
    | _, .create _, .ok _ => .finished
    | ph, _, _ => ph

/-! ## Programs -/

variable {rt : TokenRuntime} {α β : Type} {ph : Rotation}

/-- No condition on how a program ends. -/
def ends : Rotation → Except Thrown α → Prop := fun _ _ => True

theorem ends_bind {p : TokenM α} {f : α → TokenM β} (hp : p.Follows rotation ends ph)
    (hf : ∀ a ph, (f a).Follows rotation ends ph) : (p >>= f).Follows rotation ends ph := by
  refine Prog.follows_bind.2 (hp.mono fun ph' r _ => ?_)
  rcases r with e | a
  · trivial
  · exact hf a ph'

/-- Reading the clock changes nothing. -/
theorem follows_now {f : Instant → TokenM α} {post : Rotation → Except Thrown α → Prop}
    (herr : ∀ ph e, post ph (.error e)) (h : ∀ now, (f now).Follows rotation post ph) :
    (exec .now >>= f).Follows rotation post ph := by
  refine follows_execSql_bind.2 ⟨by cases ph <;> trivial, fun r _ => ?_⟩
  rcases r with code | now
  · exact herr _ _
  · cases ph <;> exact h now

theorem revokeFamily_rotation {familyId : Uuid}
    (hallow : ∀ now, rotation.allows ph (.revokeFamily familyId now)) :
    (RefreshTokenService.revokeFamily familyId).Follows rotation ends ph := by
  refine follows_now (fun _ _ => trivial) fun now => ?_
  refine follows_execSql_bind.2 ⟨hallow now, fun r _ => ?_⟩
  rcases r with code | n <;> trivial

/-- Burning the family and throwing. -/
theorem revokeThenThrow_rotation {familyId : Uuid} {e : AppException}
    {post : Rotation → Except Thrown α → Prop} (herr : ∀ ph e, post ph (.error e))
    (hallow : ∀ now, rotation.allows ph (.revokeFamily familyId now)) :
    (do
      RefreshTokenService.revokeFamily familyId
      throwSql e : TokenM α).Follows rotation post ph := by
  refine Prog.follows_bind.2 ((revokeFamily_rotation hallow).mono fun ph' r _ => ?_)
  rcases r with error | _ <;> exact herr _ _

theorem issue_rotation (userId : Uuid) (scope : SessionScope) {familyId : Option Uuid}
    (hallow : ∀ data : RefreshTokenData, data.familyId = familyId →
      rotation.allows ph (.create data)) :
    (RefreshTokenService.issue rt userId scope familyId).Follows rotation ends ph := by
  refine follows_execSql_bind.2 ⟨by cases ph <;> trivial, fun r _ => ?_⟩
  rcases r with code | plaintext
  · trivial
  · have hph : rotation.next ph .randomBytes (.ok plaintext) = ph := by cases ph <;> rfl
    rw [hph]
    refine follows_now (fun _ _ => trivial) fun now => ?_
    refine follows_execSql_bind.2 ⟨hallow _ rfl, fun r _ => ?_⟩
    rcases r with code | row <;> trivial

/-- A claim that returns has consumed a token of the family it returns. -/
def claims : Rotation → Except Thrown ClaimedSession → Prop
  | ph, .ok session => ∃ r, ph = .claimed r ∧ session.familyId = r.familyId
  | _, .error _ => True

theorem claim_rotation (plaintext : String) :
    (RefreshTokenService.claim rt plaintext).Follows rotation claims .refreshing := by
  refine follows_execSql_bind.2 ⟨trivial, fun r _ => ?_⟩
  rcases r with code | _ | record
  · trivial
  · trivial
  dsimp only
  split
  · trivial
  rename_i hrevoked
  have hph : rotation.next .refreshing (.findByHash (rt.sha256 plaintext)) (.ok (some record)) =
      .checked record := by
    have hnone : record.revokedAt = none := by simpa using hrevoked
    simp [rotation, hnone]
  rw [hph]
  refine follows_now (fun _ _ => trivial) fun now => ?_
  split
  · trivial
  refine follows_now (fun _ _ => trivial) fun usedAt => ?_
  refine Prog.follows_bind.2 (follows_execSql_bind.2 ⟨rfl, fun r _ => ?_⟩)
  rcases r with code | n
  · trivial
  · by_cases hn : 0 < n
    · -- the token is consumed
      simp [rotation, hn, claims]
    · -- somebody else has consumed it
      simp only [rotation, hn, if_false, decide_false]
      exact revokeThenThrow_rotation (fun _ _ => trivial) fun _ => rfl

theorem revoke_rotation (plaintext : String) :
    (RefreshTokenService.revoke rt plaintext).Follows rotation ends .leaving := by
  refine follows_execSql_bind.2 ⟨trivial, fun r _ => ?_⟩
  rcases r with code | _ | record
  · trivial
  · trivial
  · exact revokeFamily_rotation fun _ => rfl

theorem refresh_rotation (refreshToken : String) :
    (AuthService.refresh rt refreshToken).Follows rotation ends .refreshing := by
  -- the successor goes into the family of the claimed token
  have hrotate : ∀ (r : RefreshToken) (claimed : ClaimedSession) (scope : SessionScope),
      claimed.familyId = r.familyId →
      (AuthService.rotate rt claimed scope).Follows rotation ends (.claimed r) := by
    intro r claimed scope hfamily
    refine ends_bind (issue_rotation claimed.userId scope ?_) fun _ _ => trivial
    intro data hdata
    exact hdata.trans (by rw [hfamily])
  refine Prog.follows_bind.2 ((claim_rotation refreshToken).mono fun ph x h => ?_)
  rcases x with e | claimed
  · trivial
  obtain ⟨r, rfl, hfamily⟩ := h
  dsimp only
  split
  · exact hrotate r claimed _ hfamily
  · refine follows_execSql_bind.2 ⟨trivial, fun x _ => ?_⟩
    rcases x with code | _ | role
    · trivial
    · exact revokeThenThrow_rotation (fun _ _ => trivial) fun _ => hfamily
    · exact hrotate r claimed _ hfamily

/-- Every request keeps to its course. -/
theorem follows_rotation (rt : TokenRuntime) (q : SessionRequest) :
    (handleSession rt q).Follows rotation ends (Rotation.start q) := by
  cases q with
  | refresh refreshToken => exact ends_bind (refresh_rotation refreshToken) fun _ _ => trivial
  | logout refreshToken => exact ends_bind (revoke_rotation refreshToken) fun _ _ => trivial
  | issueSession userId scope =>
    have hissue : (RefreshTokenService.issue rt userId scope none).Follows rotation ends .opening :=
      issue_rotation userId scope fun data hdata => hdata
    exact ends_bind (ends_bind hissue fun _ _ => trivial) fun _ _ => trivial

/-! ## What a request knows -/

/-- The record that a request has read. -/
def Rotation.record : Rotation → Option RefreshToken
  | checked r | lost r | claimed r | closing r => some r
  | _ => none

/-- What a statement of a request does: to the table, and to how far the request has come. -/
inductive Rotates (g : TokenDb) : Rotation → TokenDb → Rotation → Prop where
  | stay (ph : Rotation) : Rotates g ph g ph
  | checks (r : RefreshToken) (hr : r ∈ g.tokens) (hrevoked : r.revokedAt = none) :
      Rotates g .refreshing g (.checked r)
  | refuses : Rotates g .refreshing g .finished
  | closes (r : RefreshToken) (hr : r ∈ g.tokens) : Rotates g .leaving g (.closing r)
  | claims (r : RefreshToken) (usedAt : Instant)
      (hunused : ∃ r' ∈ g.tokens, r'.id = r.id ∧ r'.usedAt = none) :
      Rotates g (.checked r) { g with
        tokens := g.tokens.map (TokenDb.useRow r.id usedAt) } (.claimed r)
  | loses (r : RefreshToken) (usedAt : Instant)
      (hused : ∀ r' ∈ g.tokens, r'.id = r.id → r'.usedAt ≠ none) :
      Rotates g (.checked r) { g with
        tokens := g.tokens.map (TokenDb.useRow r.id usedAt) } (.lost r)
  | burns (ph : Rotation) (r : RefreshToken) (hrecord : ph.record = some r) (revokedAt : Instant) :
      Rotates g ph
        { g with
          tokens := g.tokens.map (TokenDb.revokeRow r.familyId revokedAt)
          burned := r.familyId :: g.burned }
        .finished
  | opens (v : RefreshToken) (hnew : ∀ r ∈ g.tokens, r.id ≠ v.id) (hunused : v.usedAt = none)
      (hfamily : ∀ r ∈ g.tokens, r.familyId ≠ v.familyId) :
      Rotates g .opening { g with tokens := g.tokens ++ [v] } .finished
  | succeeds (r v : RefreshToken) (hnew : ∀ r ∈ g.tokens, r.id ≠ v.id) (hunused : v.usedAt = none)
      (hfamily : v.familyId = r.familyId) :
      Rotates g (.claimed r) { g with tokens := g.tokens ++ [v] } .finished

/-- Every statement of a request that keeps to its course does one of these. -/
theorem Rotates.of_statement {g : TokenDb} {s : TokenStatement} {x : Except SqlState s.Result}
    (hallow : rotation.allows ph s) (hx : g.possible s x) :
    Rotates g ph (g.effect s x) (rotation.next ph s x) := by
  -- what fails, and what is only read, changes nothing
  have hstay : rotation.next ph s x = ph → g.effect s x = g →
      Rotates g ph (g.effect s x) (rotation.next ph s x) := by
    intro hph hg
    rw [hph, hg]
    exact .stay ph
  rcases x with code | v
  · exact hstay (by cases ph <;> cases s <;> rfl) rfl
  cases s with
  | now | randomBytes | findByUserAndTenant => exact hstay (by cases ph <;> rfl) rfl
  | findByHash tokenHash =>
    obtain rfl : v = g.tokens.find? (·.tokenHash = tokenHash) := hx
    cases hfind : g.tokens.find? (·.tokenHash = tokenHash) with
    | none =>
      rw [hfind] at hstay
      exact hstay (by cases ph <;> rfl) rfl
    | some r =>
      have hr : r ∈ g.tokens := List.mem_of_find?_eq_some hfind
      cases ph with
      | refreshing =>
        -- a revoked token is refused
        by_cases hrevoked : r.revokedAt = none
        · have hnext : rotation.next .refreshing (.findByHash tokenHash) (.ok (some r)) =
              .checked r :=
            if_pos hrevoked
          rw [hnext]
          exact .checks r hr hrevoked
        · have hnext : rotation.next .refreshing (.findByHash tokenHash)
              (.ok (some r)) = .finished :=
            if_neg hrevoked
          rw [hnext]
          exact .refuses
      | leaving => exact .closes r hr
      | _ => exact hallow.elim
  | markUsedIfUnused id usedAt =>
    cases ph with
    | checked r =>
      obtain rfl : id = r.id := hallow
      obtain rfl : v = g.tokens.countP fun r' => r'.id = r.id ∧ r'.usedAt = none := hx
      -- the update claims the token, or finds it used
      by_cases hn : 0 < g.tokens.countP fun r' => r'.id = r.id ∧ r'.usedAt = none
      · rw [show rotation.next (.checked r) (.markUsedIfUnused r.id usedAt)
          (.ok _) = .claimed r from
          if_pos hn]
        obtain ⟨r', hr', hmatch⟩ := List.countP_pos_iff.1 hn
        exact .claims r usedAt ⟨r', hr', of_decide_eq_true hmatch⟩
      · rw [show rotation.next (.checked r) (.markUsedIfUnused r.id usedAt) (.ok _) = .lost r from
          if_neg hn]
        refine .loses r usedAt fun r' hr' hid hunused => hn ?_
        exact List.countP_pos_iff.2 ⟨r', hr', decide_eq_true ⟨hid, hunused⟩⟩
    | _ => exact hallow.elim
  | revokeFamily familyId revokedAt =>
    cases ph with
    | lost r | claimed r | closing r =>
      obtain rfl : familyId = r.familyId := hallow
      exact .burns _ r rfl revokedAt
    | _ => exact hallow.elim
  | create data =>
    obtain ⟨hrow, hnew, hfamily⟩ := hx
    have hunused : v.usedAt = none := by rw [hrow]
    cases ph with
    | opening =>
      rw [show data.familyId = none from hallow] at hfamily
      exact .opens v (fun r hr => (hnew r hr).1) hunused hfamily
    | claimed r =>
      rw [show data.familyId = some r.familyId from hallow] at hfamily
      exact .succeeds r v (fun r hr => (hnew r hr).1) hunused hfamily
    | _ => exact hallow.elim

/-- A refresh of family `familyId` is under way: it has consumed its token and not inserted
the successor, or it has read a token it may consume and nobody has. -/
def Rotation.UnderWay (g : TokenDb) (familyId : Uuid) : Rotation → Prop
  | claimed r => r.familyId = familyId
  | checked r => r.familyId = familyId ∧ ∃ r' ∈ g.tokens, r'.id = r.id ∧ r'.usedAt = none
  | _ => False

variable {T : Type}

/-- Family `familyId` is burned: it has tokens, all of them are revoked, and no request can
consume one or insert another. -/
structure Burned (g : TokenDb) (phase : T → Rotation) (familyId : Uuid) : Prop where
  member : ∃ r ∈ g.tokens, r.familyId = familyId
  revoked : ∀ r ∈ g.tokens, r.familyId = familyId → r.revokedAt ≠ none
  quiet : ∀ t, ¬(phase t).UnderWay g familyId

/-- The ids of the tokens differ, every record that a request has read is in the table,
and every family named by a `revokeFamily` is burned. -/
structure RotationInv (g : TokenDb) (phase : T → Rotation) : Prop where
  ids : (g.tokens.map (·.id)).Nodup
  known : ∀ t r, (phase t).record = some r → ∃ r' ∈ g.tokens, r'.id = r.id ∧
    r'.familyId = r.familyId
  burned : ∀ familyId ∈ g.burned, Burned g phase familyId

/-- An update of single rows that keeps what they are and takes nothing back. -/
structure RowUpdate (f : RefreshToken → RefreshToken) : Prop where
  id : ∀ r, (f r).id = r.id
  familyId : ∀ r, (f r).familyId = r.familyId
  revoked : ∀ r, r.revokedAt ≠ none → (f r).revokedAt ≠ none
  used : ∀ r, r.usedAt ≠ none → (f r).usedAt ≠ none

theorem rowUpdate_useRow (id : Uuid) (usedAt : Instant) :
    RowUpdate (TokenDb.useRow id usedAt) := by
  refine ⟨?_, ?_, ?_, ?_⟩ <;> intro r <;> unfold TokenDb.useRow <;> split <;> simp

theorem rowUpdate_revokeRow (familyId : Uuid) (revokedAt : Instant) :
    RowUpdate (TokenDb.revokeRow familyId revokedAt) := by
  refine ⟨?_, ?_, ?_, ?_⟩ <;> intro r <;> unfold TokenDb.revokeRow <;> split <;> simp

section Step

variable {g g' : TokenDb} {phase : T → Rotation} {f : RefreshToken → RefreshToken} {familyId : Uuid}

/-- An update of rows puts no refresh under way. -/
theorem underWay_of_map (hf : RowUpdate f) (htokens : g'.tokens = g.tokens.map f) {ph : Rotation}
    (h : ph.UnderWay g' familyId) : ph.UnderWay g familyId := by
  cases ph with
  | claimed r => exact h
  | checked r =>
    obtain ⟨hfamily, r', hr', hid, hused⟩ := h
    rw [htokens] at hr'
    obtain ⟨r₀, hr₀, rfl⟩ := List.mem_map.1 hr'
    refine ⟨hfamily, r₀, hr₀, (hf.id r₀).symm.trans hid, ?_⟩
    exact Decidable.byContradiction fun h => hf.used r₀ h hused
  | _ => exact h

/-- A new token is none that a request may consume. -/
theorem underWay_of_append (hinv : RotationInv g phase) {v : RefreshToken}
    (hnew : ∀ r ∈ g.tokens, r.id ≠ v.id) (htokens : g'.tokens = g.tokens ++ [v]) {t : T}
    (h : (phase t).UnderWay g' familyId) : (phase t).UnderWay g familyId := by
  have hknown := hinv.known t
  cases hph : phase t with
  | claimed r =>
    rw [hph] at h
    exact h
  -- the token that was checked is in the table, under another id than the new one
  | checked r =>
    rw [hph] at h hknown
    obtain ⟨hfamily, r', hr', hid, hused⟩ := h
    obtain ⟨r₀, hr₀, hid₀, -⟩ := hknown r rfl
    rw [htokens, List.mem_append, List.mem_singleton] at hr'
    rcases hr' with hr' | rfl
    · exact ⟨hfamily, r', hr', hid, hused⟩
    · exact absurd (hid₀.trans hid.symm) (hnew r₀ hr₀)
  | _ =>
    rw [hph] at h
    exact h

/-- Rows are updated, and a burned family stays burned. -/
theorem Burned.map (h : Burned g phase familyId) (hf : RowUpdate f)
    (htokens : g'.tokens = g.tokens.map f) {phase' : T → Rotation}
    (hphase : ∀ t, (phase' t).UnderWay g' familyId → (phase t).UnderWay g' familyId) :
    Burned g' phase' familyId where
  member := by
    obtain ⟨r, hr, hfamily⟩ := h.member
    exact ⟨f r, by rw [htokens]; exact List.mem_map_of_mem hr, (hf.familyId r).trans hfamily⟩
  revoked r hr hfamily := by
    rw [htokens] at hr
    obtain ⟨r₀, hr₀, rfl⟩ := List.mem_map.1 hr
    exact hf.revoked r₀ (h.revoked r₀ hr₀ ((hf.familyId r₀).symm.trans hfamily))
  quiet t ht := h.quiet t (underWay_of_map hf htokens (hphase t ht))

/-- Two rows of one id are the same row. -/
theorem RotationInv.eq_of_id (h : RotationInv g phase) {r r' : RefreshToken} (hr : r ∈ g.tokens)
    (hr' : r' ∈ g.tokens) (hid : r.id = r'.id) : r = r' :=
  List.inj_on_of_nodup_map h.ids hr hr' hid

variable [DecidableEq T] {t : T}

theorem RotationInv.known_update (h : RotationInv g phase) {ph' : Rotation}
    (hkeep : ∀ r ∈ g.tokens, ∃ r' ∈ g'.tokens, r'.id = r.id ∧ r'.familyId = r.familyId)
    (hph' : ∀ r, ph'.record = some r →
      ∃ r' ∈ g.tokens, r'.id = r.id ∧ r'.familyId = r.familyId) (u : T) (r : RefreshToken)
    (hu : (Function.update phase t ph' u).record = some r) :
    ∃ r' ∈ g'.tokens, r'.id = r.id ∧ r'.familyId = r.familyId := by
  have hold : ∃ r' ∈ g.tokens, r'.id = r.id ∧ r'.familyId = r.familyId := by
    by_cases hut : u = t
    · subst hut
      rw [Function.update_self] at hu
      exact hph' r hu
    · rw [Function.update_of_ne hut] at hu
      exact h.known u r hu
  obtain ⟨r₀, hr₀, hid₀, hfamily₀⟩ := hold
  obtain ⟨r', hr', hid', hfamily'⟩ := hkeep r₀ hr₀
  exact ⟨r', hr', hid'.trans hid₀, hfamily'.trans hfamily₀⟩

/-- A request moves on without a write. -/
theorem RotationInv.move (h : RotationInv g phase) {ph' : Rotation}
    (hknown : ∀ r, ph'.record = some r → ∃ r' ∈ g.tokens, r'.id = r.id ∧ r'.familyId = r.familyId)
    (hquiet : ∀ familyId ∈ g.burned, ¬ph'.UnderWay g familyId) :
    RotationInv g (Function.update phase t ph') where
  ids := h.ids
  known := h.known_update (fun r hr => ⟨r, hr, rfl, rfl⟩) hknown
  burned familyId hb := by
    refine ⟨(h.burned familyId hb).member, (h.burned familyId hb).revoked, fun u => ?_⟩
    by_cases hut : u = t
    · subst hut
      rw [Function.update_self]
      exact hquiet familyId hb
    · rw [Function.update_of_ne hut]
      exact (h.burned familyId hb).quiet u

/-- A request updates rows. -/
theorem RotationInv.update (h : RotationInv g phase) {ph' : Rotation} (hf : RowUpdate f)
    (htokens : g'.tokens = g.tokens.map f)
    (hknown : ∀ r, ph'.record = some r → ∃ r' ∈ g.tokens, r'.id = r.id ∧ r'.familyId = r.familyId)
    (hquiet : ∀ familyId ∈ g.burned, ¬ph'.UnderWay g' familyId)
    (hnew : ∀ familyId ∈ g'.burned, familyId ∈ g.burned ∨
      Burned g' (Function.update phase t ph') familyId) :
    RotationInv g' (Function.update phase t ph') where
  ids := by
    rw [htokens, List.map_map]
    have hid : (fun r : RefreshToken => r.id) ∘ f = fun r => r.id := funext hf.id
    rw [hid]
    exact h.ids
  known := by
    refine h.known_update (fun r hr => ⟨f r, ?_, hf.id r, hf.familyId r⟩) hknown
    rw [htokens]
    exact List.mem_map_of_mem hr
  burned familyId hb := by
    -- a family that was burned, or that this update burns
    rcases hnew familyId hb with hold | hnew
    · refine (h.burned familyId hold).map hf htokens fun u hu => ?_
      by_cases hut : u = t
      · subst hut
        rw [Function.update_self] at hu
        exact absurd hu (hquiet familyId hold)
      · rwa [Function.update_of_ne hut] at hu
    · exact hnew

/-- A request inserts a token into a family that is not burned, and is done. -/
theorem RotationInv.append (h : RotationInv g phase) {v : RefreshToken}
    (hnew : ∀ r ∈ g.tokens, r.id ≠ v.id) (hfamily : v.familyId ∉ g.burned)
    (htokens : g'.tokens = g.tokens ++ [v]) (hburned : g'.burned = g.burned) :
    RotationInv g' (Function.update phase t .finished) where
  ids := by
    rw [htokens, List.map_append, List.map_singleton]
    refine List.nodup_append.2 ⟨h.ids, List.nodup_singleton _, fun i hi j hj => ?_⟩
    obtain ⟨r, hr, rfl⟩ := List.mem_map.1 hi
    rw [List.mem_singleton.1 hj]
    exact hnew r hr
  known := by
    refine h.known_update (fun r hr => ⟨r, ?_, rfl, rfl⟩) nofun
    rw [htokens]
    exact List.mem_append_left _ hr
  burned familyId hb := by
    rw [hburned] at hb
    have hold := h.burned familyId hb
    refine ⟨?_, fun r hr hr' => ?_, fun u hu => ?_⟩
    · obtain ⟨r, hr, hr'⟩ := hold.member
      exact ⟨r, by rw [htokens]; exact List.mem_append_left _ hr, hr'⟩
    · rw [htokens, List.mem_append, List.mem_singleton] at hr
      -- the new token is of a family that is not burned
      rcases hr with hr | rfl
      · exact hold.revoked r hr hr'
      · exact absurd (hr' ▸ hb) hfamily
    · by_cases hut : u = t
      · subst hut
        rw [Function.update_self] at hu
        exact hu
      · rw [Function.update_of_ne hut] at hu
        exact hold.quiet u (underWay_of_append h hnew htokens hu)

omit [DecidableEq T] in
/-- The family of a token that a request may still consume is not burned. -/
theorem RotationInv.claimable (h : RotationInv g phase) {r : RefreshToken}
    (hph : phase t = .checked r)
    (hn : 0 < g.tokens.countP fun r' => r'.id = r.id ∧ r'.usedAt = none) :
    r.familyId ∉ g.burned ∧ ∀ r' ∈ g.tokens, r'.id = r.id → r'.familyId = r.familyId := by
  obtain ⟨r', hr', hmatch⟩ := List.countP_pos_iff.1 hn
  obtain ⟨hid, hused⟩ := of_decide_eq_true hmatch
  refine ⟨fun hb => ?_, fun r₁ hr₁ hid₁ => ?_⟩
  · refine (h.burned _ hb).quiet t ?_
    rw [hph]
    exact ⟨rfl, r', hr', hid, hused⟩
  · obtain ⟨r₀, hr₀, hid₀, hfamily₀⟩ := h.known t r (by rw [hph]; rfl)
    rw [h.eq_of_id hr₁ hr₀ (hid₁.trans hid₀.symm), hfamily₀]

/-- What a request does keeps every burned family burned, if it burns none of which another
refresh is under way. -/
theorem RotationInv.rotates (h : RotationInv g phase) {ph' : Rotation}
    (hr : Rotates g (phase t) g' ph')
    (hquiet : ∀ familyId ∈ g'.burned, familyId ∈ g.burned ∨
      ∀ u, u ≠ t → ¬(phase u).UnderWay g familyId) :
    RotationInv g' (Function.update phase t ph') := by
  have hrecord := h.known t
  generalize hph : phase t = ph at hr
  have hread : ∀ r ∈ g.tokens, ∀ r', some r = some r' →
      ∃ r₀ ∈ g.tokens, r₀.id = r'.id ∧ r₀.familyId = r'.familyId := by
    rintro r hr r' ⟨⟩
    exact ⟨r, hr, rfl, rfl⟩
  cases hr with
  | stay ph =>
    rw [← hph, Function.update_eq_self]
    exact h
  | checks r hr hrevoked =>
    -- a burned family has no token that is not revoked
    exact h.move (hread r hr) fun familyId hb hu =>
      (h.burned familyId hb).revoked r hr hu.1 hrevoked
  | refuses => exact h.move nofun fun _ _ => id
  | closes r hr => exact h.move (hread r hr) fun _ _ => id
  | claims r usedAt hunused =>
    -- the token is consumed, so its family is not burned
    rw [hph] at hrecord
    have hknown := hrecord r rfl
    refine h.update (rowUpdate_useRow r.id usedAt) rfl (by rintro r' ⟨⟩; exact hknown) ?_
      fun _ hb => .inl hb
    rintro familyId hb rfl
    refine (h.burned _ hb).quiet t ?_
    rw [hph]
    exact ⟨rfl, hunused⟩
  | loses r usedAt hused =>
    rw [hph] at hrecord
    have hknown := hrecord r rfl
    exact h.update (rowUpdate_useRow r.id usedAt) rfl (by rintro r' ⟨⟩; exact hknown)
      (fun _ _ => id)
      fun _ hb => .inl hb
  | burns ph r hr revokedAt =>
    rw [hph] at hrecord
    obtain ⟨r', hr', -, hfamily⟩ := hrecord r hr
    have hf := rowUpdate_revokeRow r.familyId revokedAt
    refine h.update hf rfl nofun (fun _ _ => id) fun F hb => ?_
    rcases hquiet F hb with hold | hnone
    · exact .inl hold
    rcases List.mem_cons.1 hb with rfl | hold
    · -- the rows of the family are revoked now, and no other refresh of it is under way
      refine .inr ⟨⟨_, List.mem_map_of_mem hr', (hf.familyId r').trans hfamily⟩, ?_, fun u hu => ?_⟩
      · intro r₁ hr₁ hfamily₁
        obtain ⟨r₀, hr₀, rfl⟩ := List.mem_map.1 hr₁
        rw [hf.familyId] at hfamily₁
        unfold TokenDb.revokeRow
        split
        · simp
        · rename_i hnot
          exact fun hunrevoked => hnot ⟨hfamily₁, hunrevoked⟩
      · by_cases hut : u = t
        · subst hut
          rw [Function.update_self] at hu
          exact hu
        · rw [Function.update_of_ne hut] at hu
          exact hnone u hut (underWay_of_map hf rfl hu)
    · exact .inl hold
  | opens v hnew hunused hfamily =>
    -- a family id that is drawn belongs to no token
    refine h.append hnew (fun hb => ?_) rfl rfl
    obtain ⟨r, hr, hr'⟩ := (h.burned _ hb).member
    exact hfamily r hr hr'
  | succeeds r v hnew hunused hfamily =>
    -- while the token is consumed and has no successor, its family is not burned
    refine h.append hnew (fun hb => ?_) rfl rfl
    refine (h.burned _ hb).quiet t ?_
    rw [hph]
    exact hfamily.symm

/-- One statement keeps every burned family burned, if it burns none of which another
refresh is under way. -/
theorem RotationInv.statement (h : RotationInv g phase) {s : TokenStatement}
    {x : Except SqlState s.Result} (hallow : rotation.allows (phase t) s) (hx : g.possible s x)
    (hquiet : ∀ familyId revokedAt, s = .revokeFamily familyId revokedAt → x.isOk = true →
      ∀ u, u ≠ t → ¬(phase u).UnderWay g familyId) :
    RotationInv (g.effect s x) (Function.update phase t (rotation.next (phase t) s x)) := by
  refine h.rotates (.of_statement hallow hx) fun familyId hb => ?_
  rcases x with code | v
  · exact .inl hb
  · cases s with
    | revokeFamily familyId' revokedAt =>
      rcases List.mem_cons.1 hb with rfl | hold
      · exact .inr (hquiet _ revokedAt rfl rfl)
      · exact .inl hold
    | _ => exact .inl hb

end Step

end BookingPlatform
