import BookingPlatform.Invite.Service
import BookingPlatform.Library.Counting
import BookingPlatform.Library.Solo

/-!
# One Membership for an Invite

Any number of redemptions, interleaved statement by statement, with sessions that die between
two statements. An invite is read, a membership is inserted, and then the invite is marked, so
two redemptions can both have read it pending. What keeps an invite to one membership is that a
user joins a tenant only once; accounts whose emails differ in letter case only are two users.

## Main definitions

- `InviteSafety`: an invite yields one membership at most, while it is pending, to its addressee.
- `OneAccountPerEmail`: no two accounts have the same email up to letter case.

## Main results

- `accepts_singleUse_iff`: invites are safe exactly where accounts differ in more than case.
- `accepts_twoAccounts`: a run in which an invite yields two memberships.
-/

namespace BookingPlatform

open Library InviteM

/-! ## The course of a redemption -/

/-- How far a redemption has come: it has nothing to insert; it is about to read the invite; it
has read it pending; or it has inserted the membership. -/
inductive AcceptPhase where
  | ended
  | asked (user : User)
  | pending (user : User) (i : Invite)
  | joined (user : User) (i : Invite)

/-- A membership for the invite may be inserted for this account. -/
def Addressed (rt : InviteRuntime) (i : Invite) (user : User) : Prop :=
  rt.toLowerCase i.email = rt.toLowerCase user.email

/-- The course of a redemption; it may give up at any point. -/
def accepting (rt : InviteRuntime) : Protocol InviteSql AcceptPhase where
  allows ph s := match ph, s with
    | _, .now => True
    | .asked _, .findByHash _ => True
    | .pending user i, .insertMembership userId tenantId _ =>
      userId = user.id ∧ tenantId = i.tenantId ∧ Addressed rt i user
    | .joined _ i, .markAcceptedIfPending id _ => id = i.id
    | _, _ => False
  answers _ _ _ := True
  next ph s r := match ph, s, r with
    | .asked user, .findByHash _, .ok (some i) =>
      if i.acceptedAt = none then .pending user i else .ended
    | .pending user i, .insertMembership .., .ok _ => .joined user i
    | ph, .now, _ => ph
    | .joined user i, .markAcceptedIfPending .., _ => .joined user i
    | _, _, _ => .ended

variable {rt : InviteRuntime}

/-- What a redemption does once it has read the invite, whatever becomes of it. -/
theorem join_accepting {user : User} {i : Invite} (haddressed : Addressed rt i user) :
    (Prog.tryCatch
      (do
        let membership ← exec (.insertMembership user.id i.tenantId i.role)
        let acceptedAt ← exec .now
        let _ ← InviteRepository.markAcceptedIfPending i.id acceptedAt
        return membership)
      fun error =>
        if error = .query uniqueViolation then throwSql
          (.conflict "Already a member of this tenant")
        else .raise error : InviteM Membership).Follows (accepting rt)
            (fun _ _ => True) (.pending user i) := by
  -- whatever fails, nothing is issued after it
  have hthrow : ∀ (error : Thrown) (ph : AcceptPhase),
      (if error = .query uniqueViolation then throwSql (.conflict "Already a member of this tenant")
        else .raise error : InviteM Membership).Follows (accepting rt) (fun _ _ => True) ph := by
    intro error ph
    split <;> exact trivial
  refine Prog.follows_tryCatch.2 (follows_execSql_bind.2 ⟨⟨rfl, rfl, haddressed⟩, fun r _ => ?_⟩)
  rcases r with code | membership
  · exact hthrow _ _
  refine follows_execSql_bind.2 ⟨trivial, fun r _ => ?_⟩
  rcases r with code | acceptedAt
  · exact hthrow _ _
  refine Prog.follows_bind.2 (follows_execSql_bind.2 ⟨rfl, fun r _ => ?_⟩)
  rcases r with code | n
  · exact hthrow _ _
  · exact trivial

/-- Every redemption keeps to this course. -/
theorem follows_accepting (rt : InviteRuntime) (user : User) (token : String) :
    (InviteService.accept rt user token).Follows (accepting rt)
      (fun _ _ => True) (.asked user) := by
  refine follows_execSql_bind.2 ⟨trivial, fun r _ => ?_⟩
  rcases r with code | i
  · exact trivial
  cases i with
  | none => exact trivial
  | some i =>
    cases haccepted : i.acceptedAt with
    -- accepted before
    | some at' =>
      simp only [haccepted, Option.isSome_some, if_true]
      exact trivial
    | none =>
      -- the phase remembers the invite as it was read
      have hpending : (accepting rt).next (.asked user) (.findByHash (rt.sha256 token))
        (.ok (some i)) =
          .pending user i := if_pos haccepted
      rw [hpending]
      simp only [haccepted, Option.isSome_none, Bool.false_eq_true, if_false]
      refine follows_execSql_bind.2 ⟨trivial, fun r _ => ?_⟩
      rcases r with code | now
      · exact trivial
      dsimp only
      -- expired, or addressed to somebody else
      split
      · exact trivial
      split
      · exact trivial
      · rename_i haddressed
        exact join_accepting (not_not.1 haddressed)

/-! ## Statements of a redemption -/

section Redeems

variable {T : Type} [DecidableEq T]

/-- One statement of session `t`: from phase `ph` the tables become `g'` and the phase `ph'`. -/
inductive Redeems (rt : InviteRuntime) (g : InviteDb T) (t : T) :
    AcceptPhase → InviteDb T → AcceptPhase → Prop where
  | stays (ph : AcceptPhase) : Redeems rt g t ph g ph
  | stops (ph : AcceptPhase) : Redeems rt g t ph g .ended
  | refuses (user : User) (found : Option Invite) :
      Redeems rt g t (.asked user) { g with found := Function.update g.found t found } .ended
  | finds (user : User) (i : Invite) (hmem : i ∈ g.invites) (hpending : i.acceptedAt = none) :
      Redeems rt g t (.asked user) { g with found := Function.update g.found t (some i) }
        (.pending user i)
  | joins (user : User) (i : Invite) (role : MembershipRole) (haddressed : Addressed rt i user)
      (hnew : ¬g.Member user.id i.tenantId) :
      Redeems rt g t (.pending user i)
        { g with
          memberships := ⟨user.id, i.tenantId, role⟩ :: g.memberships
          yields := g.yielded t user.id ++ g.yields }
        (.joined user i)
  | marks (user : User) (i : Invite) (acceptedAt : Instant) :
      Redeems rt g t (.joined user i)
        { g with invites := g.invites.map (InviteDb.acceptRow i.id acceptedAt) } (.joined user i)

variable {g : InviteDb T} {t : T} {ph : AcceptPhase}

/-- Everything a statement of a redemption can do. -/
theorem Redeems.of_statement {s : InviteStatement} (hallow : (accepting rt).allows ph s)
    {x : Except SqlState s.Result} (hx : g.possible s x) :
    Redeems rt g t ph (g.effect t s x) ((accepting rt).next ph s x) := by
  cases s with
  | now =>
    have hsame : (accepting rt).next ph .now x = ph := by cases ph <;> rfl
    rw [hsame]
    cases x <;> exact .stays ph
  | findByHash tokenHash =>
    cases ph with
    | asked user =>
      rcases x with code | _ | i
      · exact .stops _
      · exact .refuses user none
      · -- the row that is found is one of the invites, as it stands
        have hfind : some i = g.invites.find? (·.tokenHash = tokenHash) := hx
        change Redeems rt g t (.asked user) { g with found := Function.update g.found t (some i) }
          (if i.acceptedAt = none then .pending user i else .ended)
        split
        · rename_i hpending
          exact .finds user i (List.mem_of_find?_eq_some hfind.symm) hpending
        · exact .refuses user (some i)
    | _ => exact hallow.elim
  | insertMembership userId tenantId role =>
    cases ph with
    | pending user i =>
      -- the membership is the user's, in the tenant of the invite
      obtain ⟨hid, htenant, haddressed⟩ :
        userId = user.id ∧ tenantId = i.tenantId ∧ Addressed rt i user := hallow
      subst hid htenant
      rcases x with code | m
      · exact .stops _
      · obtain ⟨rfl, hnew⟩ := hx
        exact .joins user i role haddressed hnew
    | _ => exact hallow.elim
  | markAcceptedIfPending id acceptedAt =>
    cases ph with
    | joined user i =>
      have hid : id = i.id := hallow
      subst hid
      rcases x with code | n
      · exact .stays _
      · exact .marks user i acceptedAt
    | _ => exact hallow.elim

end Redeems

/-! ## The invariant -/

section Inv

variable {T : Type} (accounts : User → Prop)

namespace InviteDb

variable (g : InviteDb T)

/-- The invite has yielded a membership. -/
def Yielded (inviteId : Uuid) : Prop := ∃ y ∈ g.yields, y.inviteId = inviteId

/-- A version of the invite is in the table. -/
def Current (i : Invite) : Prop := ∃ row ∈ g.invites, row = { i with acceptedAt := row.acceptedAt }

/-- If the invite has been accepted, it has yielded a membership. -/
def Earned (inviteId : Uuid) : Prop :=
  ∀ row ∈ g.invites, row.id = inviteId → row.acceptedAt ≠ none → g.Yielded inviteId

end InviteDb

/-- What session `t` knows when its redemption has come to this phase. -/
def AcceptPhase.Sound (g : InviteDb T) (t : T) : AcceptPhase → Prop
  | .ended => True
  | .asked user => accounts user
  | .pending user i => accounts user ∧ g.found t = some i ∧ g.Current i ∧ g.Earned i.id
  | .joined user i => accounts user ∧ g.found t = some i ∧ g.Current i ∧ g.Yielded i.id

/-- Where a membership comes from that an invite has yielded: it was inserted while the invite was
pending, for an account that the invite was issued to, and it is there. -/
def InviteYield.Sound (rt : InviteRuntime) (g : InviteDb T) (y : InviteYield) : Prop :=
  y.acceptedAt = none ∧ ∃ row ∈ g.invites, row.id = y.inviteId ∧ g.Member y.userId row.tenantId ∧
    ∃ user, accounts user ∧ user.id = y.userId ∧ Addressed rt row user

/-- The tables while accounts in `accounts` redeem invites. -/
structure InviteInv (rt : InviteRuntime) (g : InviteDb T) (phase : T → AcceptPhase) : Prop where
  ids : (g.invites.map (·.id)).Nodup
  sound : ∀ t, (phase t).Sound accounts g t
  yields : ∀ y ∈ g.yields, y.Sound accounts rt g
  single : (g.yields.map (·.inviteId)).Nodup

/-- What every step leaves: rows and memberships stay, and an invite is accepted only after it
has yielded a membership. -/
structure InviteDb.Grows (g g' : InviteDb T) : Prop where
  rows : ∀ row ∈ g.invites, ∃ row' ∈ g'.invites, row' = { row with acceptedAt := row'.acceptedAt }
  accepted : ∀ row' ∈ g'.invites, row'.acceptedAt ≠ none → g.Yielded row'.id ∨
    ∃ row ∈ g.invites, row.id = row'.id ∧ row.acceptedAt ≠ none
  members : ∀ userId tenantId, g.Member userId tenantId → g'.Member userId tenantId
  yields : ∀ y ∈ g.yields, y ∈ g'.yields

variable {accounts} {g g' : InviteDb T} {t : T}

namespace InviteDb.Grows

/-- The invites are as they were. -/
theorem of_invites (hinvites : g'.invites = g.invites)
    (hmembers : ∀ m ∈ g.memberships, m ∈ g'.memberships) (hyields : ∀ y ∈ g.yields, y ∈ g'.yields) :
    g.Grows g' where
  rows row hrow := ⟨row, by rw [hinvites]; exact hrow, rfl⟩
  accepted row hrow haccepted := .inr ⟨row, hinvites ▸ hrow, rfl, haccepted⟩
  members _ _ hmember := by
    obtain ⟨m, hm, hpair⟩ := hmember
    exact ⟨m, hmembers m hm, hpair⟩
  yields := hyields

theorem refl (g : InviteDb T) : g.Grows g := of_invites rfl (fun _ hm => hm) fun _ hy => hy

variable (h : g.Grows g')

include h

theorem yielded {inviteId : Uuid} (hy : g.Yielded inviteId) : g'.Yielded inviteId := by
  obtain ⟨y, hmem, hid⟩ := hy
  exact ⟨y, h.yields y hmem, hid⟩

theorem current {i : Invite} (hi : g.Current i) : g'.Current i := by
  obtain ⟨row, hrow, hsame⟩ := hi
  obtain ⟨row', hrow', hsame'⟩ := h.rows row hrow
  refine ⟨row', hrow', ?_⟩
  rw [hsame', hsame]

theorem earned {inviteId : Uuid} (he : g.Earned inviteId) : g'.Earned inviteId := by
  rintro row' hrow' rfl haccepted
  rcases h.accepted row' hrow' haccepted with hy | ⟨row, hrow, hid, haccepted'⟩
  · exact h.yielded hy
  · exact h.yielded (he row hrow hid haccepted')

theorem sound {ph : AcceptPhase} (hph : ph.Sound accounts g t) (hfound : g'.found t = g.found t) :
    ph.Sound accounts g' t := by
  cases ph with
  | ended => trivial
  | asked user => exact hph
  | pending user i =>
    obtain ⟨haccount, hfound', hcurrent, hearned⟩ := hph
    exact ⟨haccount, hfound.trans hfound', h.current hcurrent, h.earned hearned⟩
  | joined user i =>
    obtain ⟨haccount, hfound', hcurrent, hyielded⟩ := hph
    exact ⟨haccount, hfound.trans hfound', h.current hcurrent, h.yielded hyielded⟩

theorem yieldSound {y : InviteYield} (hy : y.Sound accounts rt g) : y.Sound accounts rt g' := by
  obtain ⟨hpending, row, hrow, hid, hmember, user, haccount, huser, haddressed⟩ := hy
  obtain ⟨row', hrow', hsame⟩ := h.rows row hrow
  refine ⟨hpending, row', hrow', ?_, ?_, user, haccount, huser, ?_⟩
  · rw [hsame]
    exact hid
  · rw [hsame]
    exact h.members _ _ hmember
  · rw [hsame]
    exact haddressed

end InviteDb.Grows

/-! ## Every step keeps the invariant -/

/-- No two accounts have the same email up to letter case. -/
def OneAccountPerEmail (rt : InviteRuntime) (accounts : User → Prop) : Prop :=
  ∀ u v, accounts u → accounts v → rt.toLowerCase u.email = rt.toLowerCase v.email → u.id = v.id

theorem acceptRow_static (id : Uuid) (acceptedAt : Instant) (i : Invite) :
    InviteDb.acceptRow id acceptedAt i =
      { i with acceptedAt := (InviteDb.acceptRow id acceptedAt i).acceptedAt } := by
  unfold InviteDb.acceptRow
  split <;> rfl

theorem acceptRow_id (id : Uuid) (acceptedAt : Instant) (i : Invite) :
    (InviteDb.acceptRow id acceptedAt i).id = i.id := by
  rw [acceptRow_static]

/-- Marking an invite that has yielded a membership. -/
theorem grows_marks {i : Invite} (acceptedAt : Instant) (hy : g.Yielded i.id) :
    g.Grows { g with invites := g.invites.map (InviteDb.acceptRow i.id acceptedAt) } where
  rows row hrow := ⟨_, List.mem_map_of_mem hrow, acceptRow_static i.id acceptedAt row⟩
  accepted row' hrow' haccepted := by
    obtain ⟨row, hrow, rfl⟩ := List.mem_map.1 hrow'
    by_cases hid : row.id = i.id
    · rw [acceptRow_id, hid]
      exact .inl hy
    · have hsame : InviteDb.acceptRow i.id acceptedAt row = row := if_neg fun h => hid h.1
      rw [hsame] at haccepted
      exact .inr ⟨row, hrow, (acceptRow_id i.id acceptedAt row).symm, haccepted⟩
  members _ _ hmember := hmember
  yields _ hy := hy

section Step

variable [DecidableEq T] {phase : T → AcceptPhase} (h : InviteInv accounts rt g phase)

include h

/-- A change by session `t` that adds no membership. -/
theorem InviteInv.moved {ph' : AcceptPhase} (hgrows : g.Grows g')
    (hids : (g'.invites.map (·.id)).Nodup) (hfound : ∀ u, u ≠ t → g'.found u = g.found u)
    (hyields : g'.yields = g.yields) (hself : ph'.Sound accounts g' t) :
    InviteInv accounts rt g' (Function.update phase t ph') := by
  refine ⟨hids, fun u => ?_, fun y hy => ?_, ?_⟩
  · by_cases hu : u = t
    · subst hu
      rw [Function.update_self]
      exact hself
    · rw [Function.update_of_ne hu]
      exact hgrows.sound (h.sound u) (hfound u hu)
  · rw [hyields] at hy
    exact hgrows.yieldSound (h.yields y hy)
  · rw [hyields]
    exact h.single

omit [DecidableEq T] in
/-- A pending invite that is read is current, and has not been accepted. -/
theorem InviteInv.current_of_mem {i : Invite} (hmem : i ∈ g.invites)
    (hpending : i.acceptedAt = none) :
    g.Current i ∧ g.Earned i.id := by
  refine ⟨⟨i, hmem, rfl⟩, fun row hrow hid haccepted => ?_⟩
  have hsame : row = i := List.inj_on_of_nodup_map h.ids hrow hmem hid
  exact absurd (hsame ▸ hpending) haccepted

omit [DecidableEq T] in
/-- Where accounts differ in more than case, an invite that a user may still redeem has yielded
nothing yet, and is pending. -/
theorem InviteInv.unredeemed (hone : OneAccountPerEmail rt accounts) {user : User} {i : Invite}
    (haccount : accounts user) (hcurrent : g.Current i) (haddressed : Addressed rt i user)
    (hnew : ¬g.Member user.id i.tenantId) : ¬g.Yielded i.id := by
  rintro ⟨y, hy, hid⟩
  obtain ⟨-, row, hrow, hrowid, hmember, user', haccount', huser', haddressed'⟩ := h.yields y hy
  obtain ⟨row', hrow', hsame⟩ := hcurrent
  have hrows : row = row' := by
    refine List.inj_on_of_nodup_map h.ids hrow hrow' ?_
    rw [hrowid, hid, hsame]
  have hemail : rt.toLowerCase user'.email = rt.toLowerCase user.email := by
    refine Eq.trans haddressed'.symm ?_
    rw [hrows, hsame]
    exact haddressed
  have huser : user'.id = user.id := hone user' user haccount' haccount hemail
  rw [← huser', huser, hrows, hsame] at hmember
  exact hnew hmember

omit h [DecidableEq T] in
/-- An invite that has yielded nothing is pending. -/
theorem pending_of_earned {inviteId : Uuid} (hearned : g.Earned inviteId)
    (hnone : ¬g.Yielded inviteId) :
    (g.invites.find? (·.id = inviteId)).bind (·.acceptedAt) = none := by
  cases hfind : g.invites.find? (·.id = inviteId) with
  | none => rfl
  | some row =>
    have hid : row.id = inviteId := by simpa using List.find?_some hfind
    by_contra haccepted
    exact hnone (hearned row (List.mem_of_find?_eq_some hfind) hid haccepted)

/-- The first membership that an invite yields. -/
theorem InviteInv.joins {user : User} {i : Invite} (role : MembershipRole)
    (hmine : (AcceptPhase.pending user i).Sound accounts g t) (haddressed : Addressed rt i user)
    (hnone : ¬g.Yielded i.id) :
    InviteInv accounts rt
      { g with
        memberships := ⟨user.id, i.tenantId, role⟩ :: g.memberships
        yields := g.yielded t user.id ++ g.yields }
      (Function.update phase t (.joined user i)) := by
  obtain ⟨haccount, hfound, hcurrent, hearned⟩ := hmine
  -- the yield is recorded with the state of the invite, which is pending as it has yielded nothing
  have hyields : g.yielded t user.id ++ g.yields = ⟨i.id, user.id, none⟩ :: g.yields := by
    rw [InviteDb.yielded, hfound]
    simp [pending_of_earned hearned hnone]
  rw [hyields]
  have hgrows : g.Grows
      { g with
        memberships := ⟨user.id, i.tenantId, role⟩ :: g.memberships
        yields := ⟨i.id, user.id, none⟩ :: g.yields } :=
    .of_invites rfl (fun _ hm => List.mem_cons_of_mem _ hm) fun _ hy => List.mem_cons_of_mem _ hy
  refine ⟨h.ids, fun u => ?_, fun y hy => ?_, ?_⟩
  · by_cases hu : u = t
    · subst hu
      rw [Function.update_self]
      exact ⟨haccount, hfound, hgrows.current hcurrent, ⟨_, List.mem_cons_self, rfl⟩⟩
    · rw [Function.update_of_ne hu]
      exact hgrows.sound (h.sound u) rfl
  · rcases List.mem_cons.1 hy with rfl | hold
    · obtain ⟨row, hrow, hsame⟩ := hcurrent
      refine ⟨rfl, row, hrow, by rw [hsame], ⟨_, List.mem_cons_self, rfl, by rw [hsame]⟩,
        user, haccount, rfl, ?_⟩
      rw [Addressed, hsame]
      exact haddressed
    · exact hgrows.yieldSound (h.yields y hold)
  · rw [List.map_cons, List.nodup_cons]
    -- a second yield of the invite would contradict `hnone`
    refine ⟨fun hmem => ?_, h.single⟩
    obtain ⟨y, hy, hid⟩ := List.mem_map.1 hmem
    exact hnone ⟨y, hy, hid⟩

/-- One statement of a redemption keeps the invariant. -/
theorem InviteInv.redeems (hone : OneAccountPerEmail rt accounts) {ph' : AcceptPhase}
    (hstep : Redeems rt g t (phase t) g' ph') :
    InviteInv accounts rt g' (Function.update phase t ph') := by
  have hmine := h.sound t
  generalize hph : phase t = ph at hstep hmine
  cases hstep with
  | stays => exact h.moved (.refl g) h.ids (fun _ _ => rfl) rfl hmine
  | stops => exact h.moved (.refl g) h.ids (fun _ _ => rfl) rfl trivial
  | refuses user found =>
    exact h.moved (.of_invites rfl (fun _ hm => hm) fun _ hy => hy) h.ids
      (fun u hu => Function.update_of_ne hu _ _) rfl trivial
  | finds user i hmem hpending =>
    obtain ⟨hcurrent, hearned⟩ := h.current_of_mem hmem hpending
    exact h.moved (.of_invites rfl (fun _ hm => hm) fun _ hy => hy) h.ids (fun u hu =>
      Function.update_of_ne hu _ _) rfl ⟨hmine, Function.update_self _ _ _, hcurrent, hearned⟩
  | marks user i acceptedAt =>
    obtain ⟨haccount, hfound, hcurrent, hyielded⟩ := hmine
    have hgrows := grows_marks (i := i) acceptedAt hyielded
    -- marking an invite changes no id
    have hids : ((g.invites.map (InviteDb.acceptRow i.id acceptedAt)).map (·.id)).Nodup := by
      rw [List.map_map]
      simpa [Function.comp_def, acceptRow_id] using h.ids
    exact h.moved hgrows hids (fun _ _ => rfl) rfl
      ⟨haccount, hfound, hgrows.current hcurrent, hgrows.yielded hyielded⟩
  | joins user i role haddressed hnew =>
    -- here it matters that the email has one account: whoever was let in before was this user, who
    -- is no member yet
    have hnone : ¬g.Yielded i.id := h.unredeemed hone hmine.1 hmine.2.2.1 haddressed hnew
    exact h.joins role hmine haddressed hnone

end Step

end Inv

/-! ## Runs -/

section Runs

variable {T : Type} [DecidableEq T]

omit [DecidableEq T] in
/-- What others do keeps the invariant. -/
theorem InviteInv.env {accounts : User → Prop} {g g' : InviteDb T} {phase : T → AcceptPhase}
    (h : InviteInv accounts rt g phase) (henv : InviteDb.Env g g') :
    InviteInv accounts rt g' phase := by
  have hsound : g.Grows g' → g'.found = g.found → ∀ t, (phase t).Sound accounts g' t :=
    fun hgrows hfound t => hgrows.sound (h.sound t) (congrFun hfound t)
  cases henv with
  | invites i hid hhash hpending =>
    -- the new invite is pending, so that no accepted one is lost
    have hgrows : g.Grows { g with invites := i :: g.invites } := by
      refine ⟨fun row hrow => ⟨row, List.mem_cons_of_mem _ hrow, rfl⟩, fun row hrow haccepted => ?_,
        fun _ _ hm => hm, fun _ hy => hy⟩
      rcases List.mem_cons.1 hrow with rfl | hold
      · exact absurd hpending haccepted
      · exact .inr ⟨row, hold, rfl, haccepted⟩
    refine ⟨?_, hsound hgrows rfl, fun y hy => hgrows.yieldSound (h.yields y hy), h.single⟩
    rw [List.map_cons, List.nodup_cons]
    refine ⟨fun hmem => ?_, h.ids⟩
    obtain ⟨i', hi', hsame⟩ := List.mem_map.1 hmem
    exact hid i' hi' hsame
  -- memberships from elsewhere only add to what is there
  | joins m hnew =>
    have hgrows : g.Grows { g with memberships := m :: g.memberships } :=
      .of_invites rfl (fun _ hm => List.mem_cons_of_mem _ hm) fun _ hy => hy
    exact ⟨h.ids, hsound hgrows rfl, fun y hy => hgrows.yieldSound (h.yields y hy), h.single⟩
  | passes clock hclock =>
    have hgrows : g.Grows { g with clock } := .of_invites rfl (fun _ hm => hm) fun _ hy => hy
    exact ⟨h.ids, hsound hgrows rfl, fun y hy => hgrows.yieldSound (h.yields y hy), h.single⟩

variable (rt)

def acceptTracker :
    Tracker (inviteServer (T := T) rt) (accepting rt) .ended (fun q => .asked q.user) :=
  Server.traceTracker _ _ _ _ fun _ _ _ => trivial

/-- How far each session has come. -/
def acceptOf (w : InviteWorld T) : T → AcceptPhase := (acceptTracker rt).phase w

/-- Only these accounts redeem invites. -/
def RedeemedBy (accounts : User → Prop) (_ : InviteWorld T) (l : Label InviteSql T AcceptRequest) :
    Prop :=
  ∀ t q, l = .start t q → accounts q.user

structure InvitesInv (accounts : User → Prop) (w : InviteWorld T) : Prop where
  conforms : (acceptTracker rt).Conforms (fun _ _ => True) w
  tables : InviteInv accounts rt w.shared (acceptOf rt w)

variable {rt} {accounts : User → Prop} {w w' : InviteWorld T}

theorem InvitesInv.step (hone : OneAccountPerEmail rt accounts) (h : InvitesInv rt accounts w)
    {l : Label InviteSql T AcceptRequest} (hl : RedeemedBy accounts w l)
    (hs : World.Step (inviteServer rt) w l w') : InvitesInv rt accounts w' := by
  refine ⟨h.conforms.step (fun q => follows_accepting rt q.user q.token) hs, ?_⟩
  cases hs with
  | @start t q hidle =>
    have hmoved : acceptOf rt (w.start (inviteServer rt) t q) =
        Function.update (acceptOf rt w) t (.asked q.user) :=
      Function.eq_update_iff.2
        ⟨(acceptTracker rt).start_eq w t q hidle (h.conforms.phase_idle hidle),
          fun u hu => (acceptTracker rt).start_frame w t q u hu⟩
    rw [hmoved]
    exact h.tables.moved (.refl _) h.tables.ids (fun _ _ => rfl) rfl (hl t q rfl)
  | @call t q tr s k x hat hx =>
    have hmoved : acceptOf rt (w.answered (inviteServer rt) t q (k x) tr s x) =
        Function.update (acceptOf rt w) t ((accepting rt).next (acceptOf rt w t) s x) :=
      Function.eq_update_iff.2 ⟨(acceptTracker rt).call_eq w t q s k tr x hat hx,
        fun u hu => (acceptTracker rt).call_frame w t q (k x) tr s x u hu⟩
    rw [hmoved]
    -- a statement moves its own phase only
    exact h.tables.redeems hone (.of_statement (h.conforms.allows hat) hx)
  | @crash t σ hat hrun =>
    have hmoved : acceptOf rt (w.crashed (inviteServer rt) t) =
        Function.update (acceptOf rt w) t .ended :=
      Function.eq_update_iff.2 ⟨(acceptTracker rt).crash_eq w t,
        fun u hu => (acceptTracker rt).crash_frame w t u hu⟩
    rw [hmoved]
    exact h.tables.moved (.refl _) h.tables.ids (fun _ _ => rfl) rfl trivial
  | @env g hg => exact h.tables.env hg

/-- A session redeems for the account of its request. -/
def AcceptPhase.Of (user : User) : AcceptPhase → Prop
  | .ended => True
  | .asked v | .pending v _ | .joined v _ => v = user

theorem accepting_next_of {user : User} {ph : AcceptPhase} (h : ph.Of user) (s : InviteStatement)
    (x : Except SqlState s.Result) : ((accepting rt).next ph s x).Of user := by
  simp only [accepting]
  split
  · split
    · exact h
    · trivial
  all_goals first
    | exact h
    | trivial

theorem acceptOf_of {t : T} {σ : Session InviteSql AcceptRequest Thrown Membership}
    (hat : w.session t = some σ) : (acceptOf rt w t).Of σ.request.user := by
  have hphase : acceptOf rt w t =
      Server.phaseAfter (accepting rt) (.asked σ.request.user) σ.trace := by
    simp [acceptOf, acceptTracker, Server.traceTracker, Server.tracePhase, hat]
  have hstart : (AcceptPhase.asked σ.request.user).Of σ.request.user := rfl
  rw [hphase]
  generalize AcceptPhase.asked σ.request.user = ph at hstart
  induction σ.trace generalizing ph with
  | nil => exact hstart
  | cons x tr ih => exact ih _ (accepting_next_of hstart x.1 x.2)

/-! ## Safety -/

variable (rt)

/-- In a world that has been reached, every invite has yielded one membership at most, all while
it was pending; and a membership that is inserted is for the tenant of the invite that the
session has read, and for an account that has its email. -/
structure InviteSafety (w : InviteWorld T) : Prop where
  single : ∀ inviteId, w.shared.yields.countP (·.inviteId = inviteId) ≤ 1
  pending : ∀ y ∈ w.shared.yields, y.acceptedAt = none
  addressed : ∀ t userId tenantId role m w',
    World.Step (inviteServer rt) w (.call t ⟨.insertMembership userId tenantId role, .ok m⟩) w' →
    ∃ σ i, w.session t = some σ ∧ userId = σ.request.user.id ∧ w.shared.found t = some i ∧
      tenantId = i.tenantId ∧ Addressed rt i σ.request.user

variable {rt}

theorem InvitesInv.safety (h : InvitesInv rt accounts w) : InviteSafety rt w where
  single inviteId := by
    refine countP_le_one h.tables.single fun y _ y' _ hid hid' => ?_
    exact (of_decide_eq_true hid).trans (of_decide_eq_true hid').symm
  pending y hy := (h.tables.yields y hy).1
  addressed t userId tenantId role m w' hs := by
    cases hs with
    | @call _ q tr _ k _ hat hx =>
      have hallow := h.conforms.allows hat
      have hof : (acceptOf rt w t).Of q.user := acceptOf_of hat
      have hmine := h.tables.sound t
      unfold acceptOf at hof hmine
      -- a membership is inserted in the phase `pending` only
      generalize (acceptTracker rt).phase w t = ph at hallow hof hmine
      cases ph with
      | pending user i =>
        obtain ⟨hid, htenant, haddressed⟩ := hallow
        have huser : user = q.user := hof
        subst huser
        exact ⟨_, i, hat, hid, hmine.2.1, htenant, haddressed⟩
      | _ => exact hallow.elim

theorem InvitesInv.initial {g : InviteDb T} (hg : g.Initial) :
    InvitesInv rt accounts (World.fresh g) where
  conforms _ := rfl
  tables := by
    refine ⟨hg.ids, fun _ => trivial, fun y hy => ?_, ?_⟩
    · rw [World.fresh_shared, hg.yields] at hy
      cases hy
    · rw [World.fresh_shared, hg.yields]
      exact List.nodup_nil

/-! ## Two accounts -/

/-- The program comes to state `g'` before its end. -/
def LeadsTo {α : Type} (rt : InviteRuntime) (t : T) (p : InviteM α) (g g' : InviteDb T) : Prop :=
  ∃ p', p'.outcome = none ∧ (inviteServer rt).Leads t p g p' g'

theorem leadsTo_exec_bind {α : Type} {g g' : InviteDb T} {t : T} {s : InviteStatement}
    {v : s.Result} {f : s.Result → InviteM α} (hv : g.returns s v)
    (h : LeadsTo rt t (f v) (g.apply t s v) g') :
    LeadsTo rt t (exec s >>= f) g g' := by
  obtain ⟨p', hp', hleads⟩ := h
  exact ⟨p', hp', .call (.ok v) hv hleads⟩

/-- A redemption that has inserted its membership. -/
theorem accept_leadsTo {g : InviteDb T} {t : T} {user : User} {i : Invite} {token : String}
    (hfind : g.invites.find? (·.tokenHash = rt.sha256 token) = some i)
    (hpending : i.acceptedAt = none) (hlive : g.clock ≤ i.expiresAt)
    (haddressed : Addressed rt i user) (hnew : ¬g.Member user.id i.tenantId) :
    LeadsTo rt t (InviteService.accept rt user token) g
      { g with
        memberships := ⟨user.id, i.tenantId, i.role⟩ :: g.memberships
        found := Function.update g.found t (some i)
        yields := ⟨i.id, user.id,
            (g.invites.find? (·.id = i.id)).bind (·.acceptedAt)⟩ :: g.yields } := by
  let g₁ : InviteDb T := { g with found := Function.update g.found t (some i) }
  have hyields : g₁.yielded t user.id ++ g₁.yields =
      ⟨i.id, user.id, (g.invites.find? (·.id = i.id)).bind (·.acceptedAt)⟩ :: g.yields := by
    simp [InviteDb.yielded, g₁]
  have hread : g.returns (.findByHash (rt.sha256 token)) (some i) := hfind.symm
  have hclock : g₁.returns .now g.clock := rfl
  have hunexpired : ¬i.expiresAt < g.clock := Int.not_lt.2 hlive
  have hsame : ¬rt.toLowerCase i.email ≠ rt.toLowerCase user.email := not_not.2 haddressed
  rw [← hyields]
  -- read the invite, then the clock, then insert
  refine leadsTo_exec_bind hread ?_
  simp only [hpending, Option.isSome_none, Bool.false_eq_true, if_false]
  refine leadsTo_exec_bind hclock ?_
  rw [if_neg hunexpired, if_neg hsame]
  exact ⟨_, rfl, .call (.ok ⟨user.id, i.tenantId, i.role⟩) ⟨rfl, hnew⟩ (.refl _ _)⟩

/-- A redemption that dies once it has inserted its membership. -/
theorem exists_run_of_leadsTo {q : AcceptRequest} {g' : InviteDb T} {t : T} (hq : accounts q.user)
    (hidle : w.session t = none)
    (h : LeadsTo rt t (InviteService.accept rt q.user q.token) w.shared g') :
    ∃ w', Runs (World.Step (inviteServer rt)) (RedeemedBy accounts) w w' ∧ w'.shared = g' ∧
      w'.session t = none := by
  obtain ⟨p', hp', hleads⟩ := h
  have hguard : ∀ (w : InviteWorld T) x, RedeemedBy accounts w (.call t x) := by
    rintro w x u q' ⟨⟩
  have hstart : RedeemedBy accounts w (.start t q) := by
    rintro u q' ⟨⟩
    exact hq
  have hself : (w.start (inviteServer rt) t q).session t =
      some ⟨q, InviteService.accept rt q.user q.token, []⟩ := by
    rw [World.start_session, if_pos rfl]
    rfl
  obtain ⟨w', tr', hrun, hshared, hat⟩ := Server.exists_run_of_leads
    (w := w.start (inviteServer rt) t q) hguard hleads hself
  -- the session dies before it marks the invite
  have hcrash : World.Step (inviteServer rt) w' (.crash t) (w'.crashed (inviteServer rt) t) :=
    .crash hat hp'
  refine ⟨_, .head ⟨_, hstart, .start q hidle⟩ (hrun.snoc ?_ hcrash), hshared, ?_⟩
  · rintro u q' ⟨⟩
  · rw [World.crashed_session, if_pos rfl]

/-- The token of an invite link. -/
def sampleToken : String := "6f1d0c3b9a7e4d5886c2b1a0f3e9d7c46f1d0c3b9a7e4d5886c2b1a0f3e9d7c4"

/-- Two accounts whose emails differ in letter case can both join by one invite: the first dies
before it marks the invite. -/
theorem exists_unsafe_run (rt : InviteRuntime) (accounts : User → Prop) [Inhabited T] {u v : User}
    (hu : accounts u) (hv : accounts v) (hemail : rt.toLowerCase u.email = rt.toLowerCase v.email)
    (hne : u.id ≠ v.id) :
    ∃ g : InviteDb T, g.Initial ∧ ∃ w, Runs (World.Step (inviteServer rt)) (RedeemedBy accounts)
      (World.fresh g) w ∧ ¬InviteSafety rt w := by
  let i : Invite := ⟨0, 0, rt.toLowerCase u.email, .staff, rt.sha256 sampleToken, 0, none⟩
  let g : InviteDb T := ⟨[i], [], 0, fun _ => none, []⟩
  have hfind : ∀ g' : InviteDb T, g'.invites = [i] →
      g'.invites.find? (·.tokenHash = rt.sha256 sampleToken) = some i := by
    intro g' hg'
    rw [hg']
    simp [i]
  have haddressed : Addressed rt i u := rt.toLowerCase_idem u.email
  have hfirst : accounts (AcceptRequest.mk u sampleToken).user := hu
  -- the first account joins and leaves the invite pending
  obtain ⟨w₁, hrun₁, hshared₁, hidle₁⟩ :=
    exists_run_of_leadsTo (w := World.fresh g) (t := default) hfirst rfl
    (accept_leadsTo (hfind g rfl) rfl (Int.le_refl 0) haddressed (by simp [InviteDb.Member, g]))
  -- the second one is no member, and the address is the same to the check
  have hnew : ¬w₁.shared.Member v.id i.tenantId := by
    rw [hshared₁]
    simpa [InviteDb.Member, g] using hne
  have hsecond : accounts (AcceptRequest.mk v sampleToken).user := hv
  obtain ⟨w₂, hrun₂, hshared₂, -⟩ := exists_run_of_leadsTo (w := w₁) (t := default) hsecond hidle₁
    (accept_leadsTo (hfind w₁.shared (by rw [hshared₁]; rfl)) rfl
      (by rw [hshared₁]; exact Int.le_refl 0) (haddressed.trans hemail) hnew)
  refine ⟨g, ⟨by simp [g], rfl⟩, w₂, hrun₁.trans hrun₂, fun hsafe => ?_⟩
  -- two yields of one invite
  have hsingle := hsafe.single i.id
  rw [hshared₂, hshared₁] at hsingle
  simp at hsingle

/-- Invites are safe in every run exactly if no two of the accounts have emails that differ in
letter case only. -/
theorem accepts_singleUse_iff (rt : InviteRuntime) (T : Type) [DecidableEq T] [Inhabited T]
    (accounts : User → Prop) :
    (∀ g : InviteDb T, g.Initial → ∀ w, Runs (World.Step (inviteServer rt)) (RedeemedBy accounts)
      (World.fresh g) w → InviteSafety rt w) ↔ OneAccountPerEmail rt accounts := by
  constructor
  · intro hsafe u v hu hv hemail
    by_contra hne
    obtain ⟨g, hg, w, hrun, hunsafe⟩ := exists_unsafe_run (T := T) rt accounts hu hv hemail hne
    exact hunsafe (hsafe g hg w hrun)
  · intro hone g hg w hrun
    have h : InvitesInv rt accounts w :=
      hrun.invariant (fun _ _ _ hw hl hs => hw.step hone hl hs) (.initial hg)
    exact h.safety

end Runs

/-- A letter in lower case stays as it is. -/
theorem toLower_toLower (c : Char) : c.toLower.toLower = c.toLower := by
  unfold Char.toLower
  split
  · rename_i hupper
    rw [dif_neg]
    rintro ⟨-, hle⟩
    have hlow : 65 ≤ c.val.toNat := hupper.1
    have hhigh : c.val.toNat ≤ 90 := hupper.2
    have hmoved : (c.val.toNat + 32) % 4294967296 ≤ 90 := hle
    omega
  · rfl

/-- Lower case of ASCII letters. -/
def sampleInvites : InviteRuntime where
  sha256 s := s
  toLowerCase s := String.ofList (s.toList.map Char.toLower)
  toLowerCase_idem s := by
    have htwice : Char.toLower ∘ Char.toLower = Char.toLower := funext toLower_toLower
    rw [String.toList_ofList, List.map_map, htwice]

/-- The accounts `ann@example.com` and `Ann@example.com` join by one invite. -/
theorem accepts_twoAccounts :
    ∃ g : InviteDb (Fin 1), g.Initial ∧ ∃ w, Runs (World.Step (inviteServer sampleInvites)) anyStep
      (World.fresh g) w ∧ ¬InviteSafety sampleInvites w := by
  let ann : User := ⟨1, "ann@example.com", "Ann", none, none, none, false⟩
  obtain ⟨g, hg, w, hrun, hunsafe⟩ := exists_unsafe_run (T := Fin 1) sampleInvites (fun _ => True)
    (u := ann) (v := { ann with id := 2, email := "Ann@example.com" }) trivial trivial
      (by decide) (by decide)
  exact ⟨g, hg, w, hrun.toAny, hunsafe⟩

end BookingPlatform
