import BookingPlatform.Auth.Service
import BookingPlatform.Library.Schedule

/-!
# Google Accounts

Any number of registrations and Google sign-ins, interleaved statement by statement. The stable
key of a Google identity is its `sub`, but an unknown `sub` falls back on the email and takes over
the link of the account that it finds.

## Main definitions

- `StableAccounts`: an account keeps its Google `sub`, and a `sub` keeps its account.
- `KeepsLinks`: no account is linked that has another Google account.

## Main results

- `googleAccounts_stable`: accounts are stable in every run that keeps links.
- `googleAccounts_takeover`: a run in which an account is taken over.
-/

namespace BookingPlatform

open Library AuthM

/-! ## Requests -/

inductive AccountRequest where
  | register (dto : RegisterDto)
  | google (identity : GoogleIdentity)
  deriving DecidableEq, Repr

inductive AccountResponse where
  | registered (result : AuthResult)
  | resolved (user : User)
  deriving DecidableEq, Repr

/-- The service call of a request. -/
def handleAccount (rt : AuthRuntime) : AccountRequest → AuthM AccountResponse
  | .register dto => .registered <$> AuthService.register rt dto
  | .google identity => .resolved <$> AuthService.resolveGoogleUser identity

/-- Any number of registrations and sign-ins. Sessions and memberships may change at any time, and
a request that dies leaves what it has done. -/
def accountServer {T : Type} (rt : AuthRuntime) :
    Server AuthSql T AuthDb AccountRequest Thrown AccountResponse where
  program := handleAccount rt
  possible _ g := g.possible
  effect _ g := g.effect
  crash _ g := g
  env g g' := g'.users = g.users

abbrev AccountWorld (T : Type) : Type :=
  World AuthSql T AuthDb AccountRequest Thrown AccountResponse

/-! ## The course of a sign-in -/

/-- How far a request has come: a registration; or a sign-in that is about to look for its `sub`,
has not found it, has found an account or none by email, has resolved its account, or failed. -/
inductive Linking where
  | registering
  | asked (i : GoogleIdentity)
  | unlinked (i : GoogleIdentity)
  | known (i : GoogleIdentity) (u : User)
  | unknown (i : GoogleIdentity)
  | resolved (i : GoogleIdentity) (u : User)
  | failed

def Linking.start : AccountRequest → Linking
  | .register _ => registering
  | .google i => asked i

/-- The course of registrations and sign-ins. -/
def linking : Protocol AuthSql Linking where
  allows ph s := match ph with
    | .registering => match s with
      | .createUser data => data.provider = none
      | .linkProvider .. | .onboard _ => False
      | _ => True
    | .asked i => match s with
      | .findByProviderAccount provider account => provider = "google" ∧ account = i.sub
      | _ => False
    | .unlinked i => match s with
      | .findByEmail email => email = i.email
      | _ => False
    | .known i u => match s with
      | .linkProvider id provider account => id = u.id ∧ provider = "google" ∧ account = i.sub
      | _ => False
    | .unknown i => match s with
      | .createUser data => data = ⟨i.email, i.name, none, some "google", some i.sub⟩
      | _ => False
    | .resolved .. | .failed => False
  answers _ _ _ := True
  next ph s r := match ph with
    | .registering => .registering
    | .asked i => match s, r with
      | .findByProviderAccount .., .ok (some u) => .resolved i u
      | .findByProviderAccount .., .ok none => .unlinked i
      | _, _ => .failed
    | .unlinked i => match s, r with
      | .findByEmail _, .ok (some u) => .known i u
      | .findByEmail _, .ok none => .unknown i
      | _, _ => .failed
    | .known i u => match s, r with
      | .linkProvider .., .ok _ => .resolved i u
      | _, _ => .failed
    | .unknown i => match s, r with
      | .createUser _, .ok v => .resolved i v
      | _, _ => .failed
    | .resolved .. | .failed => .failed

/-- A sign-in that returns an account has resolved it. -/
def resolves (ph : Linking) (r : Except Thrown AccountResponse) : Prop :=
  ∀ u, r = .ok (.resolved u) → ∃ i, ph = .resolved i u

/-- The statements on refresh tokens do not concern the accounts. -/
theorem ofToken_registering {α : Type} (p : TokenM α) :
    (ofToken p).Follows linking (fun ph _ => ph = .registering) .registering := by
  induction p with
  | ret a => exact rfl
  | raise e => exact rfl
  | call s k ih => exact ⟨trivial, fun r _ => ih r⟩

theorem session_registering (rt : AuthRuntime) (user : User) (scope : SessionScope) :
    (AuthService.session rt user scope).Follows linking
      (fun ph _ => ph = .registering) .registering := by
  refine Prog.follows_bind.2 ((ofToken_registering _).mono fun ph r hph => ?_)
  cases r <;> exact hph

theorem register_registering (rt : AuthRuntime) (dto : RegisterDto) :
    (AuthService.register rt dto).Follows linking (fun ph _ => ph = .registering) .registering := by
  refine follows_execSql_bind.2 ⟨trivial, fun r _ => ?_⟩
  rcases r with code | _ | existing
  · exact rfl
  · refine follows_execSql_bind.2 ⟨trivial, fun r _ => ?_⟩
    rcases r with code | passwordHash
    · exact rfl
    refine follows_execSql_bind.2 ⟨rfl, fun r _ => ?_⟩
    rcases r with code | user
    · exact rfl
    · exact session_registering rt user _
  · exact rfl

theorem resolveGoogleUser_linking (i : GoogleIdentity) :
    (AuthService.resolveGoogleUser i).Follows linking
      (fun ph r => ∀ u, r = .ok u → ph = .resolved i u) (.asked i) := by
  unfold AuthService.resolveGoogleUser
  split
  · exact nofun
  -- by the subject first
  refine follows_execSql_bind.2 ⟨⟨rfl, rfl⟩, fun r _ => ?_⟩
  rcases r with code | _ | u
  · exact nofun
  · -- then by the address
    refine follows_execSql_bind.2 ⟨rfl, fun r _ => ?_⟩
    rcases r with code | _ | u
    · exact nofun
    · -- neither is known: a new account
      refine follows_execSql.2 ⟨rfl, fun r _ => ?_⟩
      rcases r with code | v
      · exact nofun
      · rintro _ ⟨⟩
        exact rfl
    · -- the address is known: the account is linked
      refine follows_execSql_bind.2 ⟨⟨rfl, rfl, rfl⟩, fun r _ => ?_⟩
      rcases r with code | _
      · exact nofun
      · rintro _ ⟨⟩
        exact rfl
  · rintro _ ⟨⟩
    exact rfl

/-- Every request keeps to this course. -/
theorem follows_linking (rt : AuthRuntime) (q : AccountRequest) :
    (handleAccount rt q).Follows linking resolves (.start q) := by
  cases q with
  | register dto =>
    refine Prog.follows_bind.2 ((register_registering rt dto).mono fun ph r _ => ?_)
    cases r <;> exact nofun
  | google i =>
    refine Prog.follows_bind.2 ((resolveGoogleUser_linking i).mono fun ph r h => ?_)
    cases r with
    | error e => exact nofun
    | ok u =>
      rintro _ ⟨⟩
      exact ⟨i, h u rfl⟩

/-! ## Statements of a request -/

/-- The account is linked to this Google account. -/
def User.Linked (u : User) (sub : String) : Prop :=
  u.provider = some "google" ∧ u.providerAccountId = some sub

/-- A phase in which nothing is known of an account. -/
def Linking.Quiet : Linking → Prop
  | known .. | resolved .. => False
  | _ => True

/-- One statement: from phase `ph` the tables become `g'` and the phase `ph'`. -/
inductive SignsIn (g : AuthDb) : Linking → AuthDb → Linking → Prop where
  | stays {ph g' ph'} (husers : g'.users = g.users) (hquiet : ph'.Quiet) : SignsIn g ph g' ph'
  | finds (i : GoogleIdentity) (u : User) (hu : u ∈ g.users) (hlinked : u.Linked i.sub) :
      SignsIn g (.asked i) g (.resolved i u)
  | knows (i : GoogleIdentity) (u : User) (hu : u ∈ g.users) :
    SignsIn g (.unlinked i) g (.known i u)
  | links (i : GoogleIdentity) (u : User) (hfree : ∀ v ∈ g.users, v.Linked i.sub → v.id = u.id) :
      SignsIn g (.known i u) { g with users := g.users.map (AuthDb.linkRow u.id "google" i.sub) }
        (.resolved i u)
  | registers (v : User) (hid : ∀ u ∈ g.users, u.id ≠ v.id) (hprovider : v.provider = none) :
      SignsIn g .registering { g with users := g.users ++ [v] } .registering
  | signsUp (i : GoogleIdentity) (v : User) (hid : ∀ u ∈ g.users, u.id ≠ v.id)
      (hfree : ∀ u ∈ g.users, ¬u.Linked i.sub) (hlinked : v.Linked i.sub) :
      SignsIn g (.unknown i) { g with users := g.users ++ [v] } (.resolved i v)

/-- Everything a statement of a request can do. -/
theorem SignsIn.of_statement {g : AuthDb} {ph : Linking} {s : AuthStatement}
    (hallow : linking.allows ph s) {x : Except SqlState s.Result} (hx : g.possible s x) :
    SignsIn g ph (g.effect s x) (linking.next ph s x) := by
  cases ph with
  | registering =>
    cases s with
    | linkProvider id provider account => exact hallow.elim
    | onboard userId => exact hallow.elim
    | createUser data =>
      rcases x with code | v
      · exact .stays rfl trivial
      · obtain ⟨hv, hnew, -⟩ := hx
        refine .registers v (fun u hu => (hnew u hu).1) ?_
        rw [hv]
        exact hallow
    | _ => cases x <;> exact .stays rfl trivial
  | asked i =>
    cases s with
    | findByProviderAccount provider account =>
      obtain ⟨rfl, rfl⟩ := hallow
      rcases x with code | _ | u
      · exact .stays rfl trivial
      · exact .stays rfl trivial
      · have hfind : some u = g.users.find? fun u =>
            u.provider = some "google" ∧ u.providerAccountId = some i.sub := hx
        -- what is found by the subject is linked to it
        have hlinked : u.provider = some "google" ∧ u.providerAccountId = some i.sub := by
          simpa using List.find?_some hfind.symm
        exact .finds i u (List.mem_of_find?_eq_some hfind.symm) hlinked
    | _ => exact hallow.elim
  | unlinked i =>
    cases s with
    | findByEmail email =>
      rcases x with code | _ | u
      · exact .stays rfl trivial
      · exact .stays rfl trivial
      · have hfind : some u = g.users.find? (·.email = email) := hx
        -- what is found by the address may be linked to another subject
        exact .knows i u (List.mem_of_find?_eq_some hfind.symm)
    | _ => exact hallow.elim
  | known i u =>
    cases s with
    | linkProvider id provider account =>
      obtain ⟨rfl, rfl, rfl⟩ := hallow
      rcases x with code | _
      · exact .stays rfl trivial
      · exact .links i u fun v hv hlinked => hx v hv hlinked.1 hlinked.2
    | _ => exact hallow.elim
  | unknown i =>
    cases s with
    | createUser data =>
      have hdata : data = ⟨i.email, i.name, none, some "google", some i.sub⟩ := hallow
      subst hdata
      rcases x with code | v
      · exact .stays rfl trivial
      · obtain ⟨hv, hnew, hfree⟩ := hx
        -- the account is created with its link
        have hlinked : v.Linked i.sub := by
          rw [hv]
          exact ⟨rfl, rfl⟩
        refine .signsUp i v (fun u hu => (hnew u hu).1) (fun u hu hu' => ?_) hlinked
        refine hfree u hu (by rw [hlinked.1]; nofun) (hu'.1.trans hlinked.1.symm) ?_
        exact hu'.2.trans hlinked.2.symm
    | _ => exact hallow.elim
  | resolved i u => cases s <;> exact hallow.elim
  | failed => cases s <;> exact hallow.elim

/-! ## The invariant -/

section Inv

variable {T : Type}

/-- The account is in the table, linked to this Google account. -/
def AuthDb.LinkedTo (g : AuthDb) (id : Uuid) (sub : String) : Prop :=
  ∃ row ∈ g.users, row.id = id ∧ row.Linked sub

/-- What a sign-in has found when it has come to this phase. -/
def Linking.Sound (g : AuthDb) : Linking → Prop
  | .known _ u => ∃ row ∈ g.users, row.id = u.id
  | .resolved i u => g.LinkedTo u.id i.sub
  | _ => True

/-- Accounts have one Google account each, and a resolved sign-in has its own. -/
structure AccountsInv (g : AuthDb) (phase : T → Linking) : Prop where
  ids : (g.users.map (·.id)).Nodup
  unique : ∀ id id' sub, g.LinkedTo id sub → g.LinkedTo id' sub → id = id'
  sound : ∀ t, (phase t).Sound g

/-- The account has no other Google account. -/
def FreeToLink (g : AuthDb) (id : Uuid) (sub : String) : Prop :=
  ∀ sub', g.LinkedTo id sub' → sub' = sub

/-- Accounts and their links stay. -/
structure AuthDb.Retains (g g' : AuthDb) : Prop where
  rows : ∀ row ∈ g.users, ∃ row' ∈ g'.users, row'.id = row.id
  links : ∀ id sub, g.LinkedTo id sub → g'.LinkedTo id sub

variable {g g' : AuthDb}

theorem AuthDb.Retains.of_users (husers : g'.users = g.users) : g.Retains g' := by
  refine ⟨fun row hrow => ⟨row, husers ▸ hrow, rfl⟩, ?_⟩
  rintro id sub ⟨row, hrow, hlinked⟩
  exact ⟨row, husers ▸ hrow, hlinked⟩

theorem AuthDb.Retains.append (v : User) : g.Retains { g with users := g.users ++ [v] } := by
  refine ⟨fun row hrow => ⟨row, List.mem_append_left _ hrow, rfl⟩, ?_⟩
  rintro id sub ⟨row, hrow, hlinked⟩
  exact ⟨row, List.mem_append_left _ hrow, hlinked⟩

theorem AuthDb.Retains.sound {ph : Linking} (h : g.Retains g') (hph : ph.Sound g) :
    ph.Sound g' := by
  cases ph with
  | known i u =>
    obtain ⟨row, hrow, hid⟩ := hph
    obtain ⟨row', hrow', hid'⟩ := h.rows row hrow
    exact ⟨row', hrow', hid'.trans hid⟩
  | resolved i u => exact h.links _ _ hph
  | _ => trivial

theorem linkRow_id (id : Uuid) (provider account : String) (u : User) :
    (AuthDb.linkRow id provider account u).id = u.id := by
  unfold AuthDb.linkRow
  split <;> rfl

/-- Who is linked to what after an account has been linked. -/
theorem linkedTo_link {id id' : Uuid} {sub sub' : String}
    (h : AuthDb.LinkedTo { g with
      users := g.users.map (AuthDb.linkRow id "google" sub) } id' sub') :
    (id' = id ∧ sub' = sub) ∨ (id' ≠ id ∧ g.LinkedTo id' sub') := by
  obtain ⟨row', hrow', hid, hlinked⟩ := h
  obtain ⟨row, hrow, rfl⟩ := List.mem_map.1 hrow'
  rw [linkRow_id] at hid
  by_cases hmine : row.id = id
  · refine .inl ⟨hid.symm.trans hmine, ?_⟩
    rw [AuthDb.linkRow, if_pos hmine] at hlinked
    exact (Option.some.inj hlinked.2).symm
  · rw [AuthDb.linkRow, if_neg hmine] at hlinked
    exact .inr ⟨fun heq => hmine (hid.trans heq), row, hrow, hid, hlinked⟩

/-- Linking an account that is free to be linked keeps all links. -/
theorem AuthDb.Retains.link {id : Uuid} {sub : String} (hfree : FreeToLink g id sub) :
    g.Retains { g with users := g.users.map (AuthDb.linkRow id "google" sub) } where
  rows row hrow := ⟨_, List.mem_map_of_mem hrow, linkRow_id id "google" sub row⟩
  links id' sub' h := by
    obtain ⟨row, hrow, hid, hlinked⟩ := h
    refine ⟨_, List.mem_map_of_mem hrow, (linkRow_id id "google" sub row).trans hid, ?_⟩
    unfold AuthDb.linkRow
    split
    · rename_i hmine
      have hsub : sub' = sub := hfree sub' ⟨row, hrow, hmine, hlinked⟩
      exact ⟨rfl, by rw [hsub]⟩
    · exact hlinked

section Step

variable [DecidableEq T] {phase : T → Linking} (h : AccountsInv g phase)

include h

/-- A change by session `t` that retains accounts and links. -/
theorem AccountsInv.moved {t : T} {ph' : Linking} (hretains : g.Retains g')
    (hids : (g'.users.map (·.id)).Nodup)
    (hunique : ∀ id id' sub, g'.LinkedTo id sub → g'.LinkedTo id' sub → id = id')
    (hself : ph'.Sound g') : AccountsInv g' (Function.update phase t ph') := by
  refine ⟨hids, hunique, fun u => ?_⟩
  by_cases hu : u = t
  · subst hu
    rw [Function.update_self]
    exact hself
  · rw [Function.update_of_ne hu]
    exact hretains.sound (h.sound u)

omit [DecidableEq T] h in
/-- Who is linked to what after an account has been added. -/
theorem linkedTo_append {v : User} {id : Uuid} {sub : String}
    (hlinked : AuthDb.LinkedTo { g with users := g.users ++ [v] } id sub) :
    g.LinkedTo id sub ∨ (v.id = id ∧ v.Linked sub) := by
  obtain ⟨row, hrow, hid, hrowlinked⟩ := hlinked
  rcases List.mem_append.1 hrow with hold | hnew
  · exact .inl ⟨row, hold, hid, hrowlinked⟩
  · rw [List.mem_singleton.1 hnew] at hid hrowlinked
    exact .inr ⟨hid, hrowlinked⟩

omit [DecidableEq T] in
theorem AccountsInv.ids_append {v : User} (hid : ∀ u ∈ g.users, u.id ≠ v.id) :
    ((g.users ++ [v]).map (·.id)).Nodup := by
  rw [List.map_append, List.nodup_append]
  refine ⟨h.ids, List.nodup_singleton _, fun a ha b hb heq => ?_⟩
  obtain ⟨u, hu, rfl⟩ := List.mem_map.1 ha
  rw [List.map_singleton, List.mem_singleton] at hb
  exact hid u hu (heq.trans hb)

/-- One statement of a request keeps the invariant, if it takes over no account. -/
theorem AccountsInv.signsIn {t : T} {ph' : Linking}
    (hkeep : ∀ i u, phase t = .known i u → ph' = .resolved i u → FreeToLink g u.id i.sub)
    (hstep : SignsIn g (phase t) g' ph') :
    g.Retains g' ∧ AccountsInv g' (Function.update phase t ph') := by
  have hmine := h.sound t
  generalize phase t = ph at hkeep hstep hmine
  cases hstep with
  | stays husers hquiet =>
    have hself : ph'.Sound g' := by
      cases ph' with
      | known i u => exact hquiet.elim
      | resolved i u => exact hquiet.elim
      | _ => trivial
    refine ⟨.of_users husers, h.moved (.of_users husers) (by rw [husers]; exact h.ids) ?_ hself⟩
    intro id id' sub hlinked hlinked'
    exact h.unique id id' sub ((AuthDb.Retains.of_users husers.symm).links _ _ hlinked)
      ((AuthDb.Retains.of_users husers.symm).links _ _ hlinked')
  | finds i u hu hlinked =>
    exact ⟨.of_users rfl, h.moved (.of_users rfl) h.ids h.unique ⟨u, hu, rfl, hlinked⟩⟩
  | knows i u hu => exact ⟨.of_users rfl, h.moved (.of_users rfl) h.ids h.unique ⟨u, hu, rfl⟩⟩
  -- the dangerous case: the account may have had another subject, unless the step keeps links
  | links i u hfree =>
    have hretains := AuthDb.Retains.link (hkeep i u rfl rfl)
    obtain ⟨row, hrow, hid⟩ := hmine
    refine ⟨hretains, h.moved hretains ?_ (fun id id' sub hlinked hlinked' => ?_) ?_⟩
    · rw [List.map_map]
      simpa [Function.comp_def, linkRow_id] using h.ids
    · -- two accounts of one subject: one of them is the account that has just been linked
      rcases linkedTo_link hlinked with ⟨rfl, rfl⟩ | ⟨hne, hold⟩
      · rcases linkedTo_link hlinked' with ⟨rfl, -⟩ | ⟨hne', row', hrow', hid', hlinked''⟩
        · rfl
        · exact absurd (hid'.symm.trans (hfree row' hrow' hlinked'')) hne'
      · rcases linkedTo_link hlinked' with ⟨rfl, rfl⟩ | ⟨-, hold'⟩
        · obtain ⟨row', hrow', hid', hlinked''⟩ := hold
          exact absurd (hid'.symm.trans (hfree row' hrow' hlinked'')) hne
        · exact h.unique id id' sub hold hold'
    · refine ⟨_, List.mem_map_of_mem hrow, (linkRow_id u.id "google" i.sub row).trans hid, ?_⟩
      rw [AuthDb.linkRow, if_pos hid]
      exact ⟨rfl, rfl⟩
  | registers v hid hprovider =>
    -- a password account is linked to nobody
    have hunlinked : ∀ sub, ¬v.Linked sub := fun sub hlinked => by
      have hgoogle := hlinked.1
      rw [hprovider] at hgoogle
      cases hgoogle
    refine ⟨.append v, h.moved (.append v) (h.ids_append hid)
      (fun id id' sub hlinked hlinked' => ?_) trivial⟩
    rcases linkedTo_append hlinked with hold | ⟨-, hv⟩
    · rcases linkedTo_append hlinked' with hold' | ⟨-, hv⟩
      · exact h.unique id id' sub hold hold'
      · exact absurd hv (hunlinked sub)
    · exact absurd hv (hunlinked sub)
  | signsUp i v hid hfree hlinked =>
    -- nobody had the subject before
    have hnone : ∀ id sub, g.LinkedTo id sub → v.Linked sub → False := by
      rintro id sub ⟨row, hrow, -, hrowlinked⟩ hv
      have hsub : sub = i.sub := Option.some.inj (hv.2.symm.trans hlinked.2)
      exact hfree row hrow (hsub ▸ hrowlinked)
    refine ⟨.append v, h.moved (.append v) (h.ids_append hid) (fun id id' sub hl hl' => ?_)
      ⟨v, List.mem_append_right _ (List.mem_singleton_self v), rfl, hlinked⟩⟩
    rcases linkedTo_append hl with hold | ⟨hv, hvl⟩
    · rcases linkedTo_append hl' with hold' | ⟨-, hvl⟩
      · exact h.unique id id' sub hold hold'
      · exact (hnone id sub hold hvl).elim
    · rcases linkedTo_append hl' with hold' | ⟨hv', -⟩
      · exact (hnone id' sub hold' hvl).elim
      · exact hv.symm.trans hv'

end Step

end Inv

/-! ## Runs -/

section Runs

variable {T : Type} [DecidableEq T] (rt : AuthRuntime)

def linkTracker : Tracker (accountServer (T := T) rt) linking .failed Linking.start :=
  Server.traceTracker _ _ _ _ fun _ _ _ => trivial

/-- How far each session has come. -/
def linkOf (w : AccountWorld T) : T → Linking := (linkTracker rt).phase w

/-- No account is linked that has another Google account. -/
def KeepsLinks (w : AccountWorld T) (l : Label AuthSql T AccountRequest) : Prop :=
  ∀ t id sub, l = .call t ⟨.linkProvider id "google" sub, .ok ()⟩ → FreeToLink w.shared id sub

structure SignInsInv (w : AccountWorld T) : Prop where
  conforms : (linkTracker rt).Conforms resolves w
  tables : AccountsInv w.shared (linkOf rt w)

variable {rt} {w w' : AccountWorld T}

/-- The statement that resolves a known account links it. -/
theorem link_of_resolved {s : AuthStatement} {x : Except SqlState s.Result} {i i' : GoogleIdentity}
    {u u' : User} (hallow : linking.allows (.known i u) s)
    (h : linking.next (.known i u) s x = .resolved i' u') :
    i' = i ∧ u' = u ∧ (⟨s, x⟩ : Exchange AuthSql) =
      ⟨.linkProvider u.id "google" i.sub, .ok ()⟩ := by
  cases s with
  | linkProvider id provider account =>
    obtain ⟨rfl, rfl, rfl⟩ := hallow
    rcases x with code | _
    · cases h
    · cases h
      exact ⟨rfl, rfl, rfl⟩
  | _ => exact hallow.elim

/-- Every step that keeps links keeps the invariant, the accounts and their links. -/
theorem SignInsInv.step (h : SignInsInv rt w) {l : Label AuthSql T AccountRequest}
    (hl : KeepsLinks w l) (hs : World.Step (accountServer rt) w l w') :
    w.shared.Retains w'.shared ∧ SignInsInv rt w' := by
  have hconforms := h.conforms.step (follows_linking rt) hs
  cases hs with
  | @start t q hidle =>
    have hmoved : linkOf rt (w.start (accountServer rt) t q) =
        Function.update (linkOf rt w) t (.start q) :=
      Function.eq_update_iff.2
        ⟨(linkTracker rt).start_eq w t q hidle (h.conforms.phase_idle hidle),
          fun u hu => (linkTracker rt).start_frame w t q u hu⟩
    refine ⟨.of_users rfl, hconforms, ?_⟩
    rw [hmoved]
    refine h.tables.moved (.of_users rfl) h.tables.ids h.tables.unique ?_
    cases q <;> trivial
  | @call t q tr s k x hat hx =>
    have hmoved : linkOf rt (w.answered (accountServer rt) t q (k x) tr s x) =
        Function.update (linkOf rt w) t (linking.next (linkOf rt w t) s x) :=
      Function.eq_update_iff.2 ⟨(linkTracker rt).call_eq w t q s k tr x hat hx,
        fun u hu => (linkTracker rt).call_frame w t q (k x) tr s x u hu⟩
    have hallow : linking.allows (linkOf rt w t) s := h.conforms.allows hat
    -- a session that links an account has found it by its address
    obtain ⟨hretains, htables⟩ := h.tables.signsIn (t := t) (fun i u hknown hresolved => by
      rw [hknown] at hallow hresolved
      obtain ⟨-, -, hlink⟩ := link_of_resolved hallow hresolved
      exact hl t u.id i.sub (by rw [hlink])) (.of_statement hallow hx)
    refine ⟨hretains, hconforms, ?_⟩
    rw [hmoved]
    exact htables
  | @crash t σ hat hrun =>
    have hmoved : linkOf rt (w.crashed (accountServer rt) t) =
        Function.update (linkOf rt w) t .failed :=
      Function.eq_update_iff.2 ⟨(linkTracker rt).crash_eq w t,
        fun u hu => (linkTracker rt).crash_frame w t u hu⟩
    refine ⟨.of_users rfl, hconforms, ?_⟩
    rw [hmoved]
    exact h.tables.moved (.of_users rfl) h.tables.ids h.tables.unique trivial
  | @env g hg =>
    have husers : g.users = w.shared.users := hg
    refine ⟨.of_users husers, hconforms, ?_⟩
    have hback : g.Retains w.shared := .of_users husers.symm
    refine ⟨?_, fun id id' sub hlinked hlinked' => ?_, fun t => ?_⟩
    · exact husers.symm ▸ h.tables.ids
    · exact h.tables.unique id id' sub (hback.links _ _ hlinked) (hback.links _ _ hlinked')
    · exact (AuthDb.Retains.of_users husers).sound (h.tables.sound t)

/-- Along every run that keeps links. -/
theorem SignInsInv.run (h : SignInsInv rt w)
    (hrun : Runs (World.Step (accountServer rt)) KeepsLinks w w') :
    w.shared.Retains w'.shared ∧ SignInsInv rt w' := by
  refine hrun.invariant (I := fun w' =>
    w.shared.Retains w'.shared ∧ SignInsInv rt w') ?_ ⟨.of_users rfl, h⟩
  rintro w₁ l w₂ ⟨hretains, hw⟩ hl hs
  obtain ⟨hretains', hw'⟩ := hw.step hl hs
  refine ⟨⟨fun row hrow => ?_, fun id sub hlinked => ?_⟩, hw'⟩
  · obtain ⟨row', hrow', hid⟩ := hretains.rows row hrow
    obtain ⟨row'', hrow'', hid'⟩ := hretains'.rows row' hrow'
    exact ⟨row'', hrow'', hid'.trans hid⟩
  · exact hretains'.links _ _ (hretains.links _ _ hlinked)

/-! ## Stable accounts -/

/-- Session `t` has returned the account `u` for a Google identity with this `sub`. -/
def Returned (w : AccountWorld T) (t : T) (sub : String) (u : User) : Prop :=
  ∃ σ i, w.session t = some σ ∧ σ.request = .google i ∧ i.sub = sub ∧
    σ.prog.outcome = some (.ok (.resolved u))

variable (rt)

/-- Whatever happens next, as `guard` admits it: an account that is linked to a `sub` is returned
for no other; and a `sub` that an account was returned for gets no other account, and is found by
the first statement of every sign-in. -/
structure StableAccounts (guard : AccountWorld T → Label AuthSql T AccountRequest → Prop)
    (w : AccountWorld T) : Prop where
  linked : ∀ w', Runs (World.Step (accountServer rt)) guard w w' → ∀ id sub,
    w.shared.LinkedTo id sub → ∀ t sub' u, Returned w' t sub' u → u.id = id → sub' = sub
  returned : ∀ t sub u, Returned w t sub u → ∀ w', Runs (World.Step (accountServer rt)) guard w w' →
    ∀ t' u', Returned w' t' sub u' → u'.id = u.id
  found : ∀ t sub u, Returned w t sub u → ∀ w', Runs (World.Step (accountServer rt)) guard w w' →
    ∀ t' found w'', World.Step (accountServer rt) w'
      (.call t' ⟨.findByProviderAccount "google" sub, .ok found⟩) w'' →
      ∃ u', found = some u' ∧ u'.id = u.id

variable {rt}

/-- A sign-in keeps to the identity of its request. -/
def Linking.Of (q : AccountRequest) : Linking → Prop
  | .registering | .failed => True
  | .asked i | .unlinked i | .known i _ | .unknown i | .resolved i _ => q = .google i

theorem linking_next_of {q : AccountRequest} {ph : Linking} (h : ph.Of q) (s : AuthStatement)
    (x : Except SqlState s.Result) : (linking.next ph s x).Of q := by
  -- a phase moves on by one statement only
  cases ph with
  | registering | resolved i u | failed => cases s <;> trivial
  | asked i =>
    cases s with
    | findByProviderAccount provider account => rcases x with code | _ | u <;> first
        | exact h
        | trivial
    | _ => trivial
  | unlinked i =>
    cases s with
    | findByEmail email => rcases x with code | _ | u <;> first
        | exact h
        | trivial
    | _ => trivial
  | known i u =>
    cases s with
    | linkProvider id provider account => cases x <;> first
        | exact h
        | trivial
    | _ => trivial
  | unknown i =>
    cases s with
    | createUser data => cases x <;> first
        | exact h
        | trivial
    | _ => trivial

theorem linkOf_of {t : T} {σ : Session AuthSql AccountRequest Thrown AccountResponse}
    (hat : w.session t = some σ) : (linkOf rt w t).Of σ.request := by
  have hphase : linkOf rt w t = Server.phaseAfter linking (.start σ.request) σ.trace := by
    simp [linkOf, linkTracker, Server.traceTracker, Server.tracePhase, hat]
  have hstart : (Linking.start σ.request).Of σ.request := by
    cases σ.request <;> trivial
  rw [hphase]
  generalize Linking.start σ.request = ph at hstart
  induction σ.trace generalizing ph with
  | nil => exact hstart
  | cons x tr ih => exact ih _ (linking_next_of hstart x.1 x.2)

/-- An account that was returned for a `sub` is linked to it. -/
theorem SignInsInv.returned (h : SignInsInv rt w) {t : T} {sub : String} {u : User}
    (hret : Returned w t sub u) : w.shared.LinkedTo u.id sub := by
  obtain ⟨⟨q, p, tr⟩, i, hat, hq, rfl, hout⟩ := hret
  have hends := h.conforms.running hat
  have hof : (linkOf rt w t).Of q := linkOf_of hat
  have hsound := h.tables.sound t
  cases p with
  | ret a =>
    cases hout
    -- a session returns the account that its phase has resolved
    obtain ⟨i', hph⟩ := hends u rfl
    change linkOf rt w t = .resolved i' u at hph
    rw [hph] at hof hsound
    have hidentity : q = .google i' := hof
    obtain rfl : i' = i := AccountRequest.google.inj (hidentity.symm.trans hq)
    exact hsound
  | raise e => cases hout
  | call s k => cases hout

/-- Accounts are stable as long as no account is linked that has another Google account. -/
theorem SignInsInv.stable (h : SignInsInv rt w) : StableAccounts rt KeepsLinks w where
  linked w' hrun id sub hlinked t sub' u hret hid := by
    obtain ⟨hretains, h'⟩ := h.run hrun
    obtain ⟨row, hrow, hrowid, hrowlinked⟩ := hretains.links _ _ hlinked
    obtain ⟨row', hrow', hrowid', hrowlinked'⟩ := h'.returned hret
    -- the ids are distinct, so that both links are of one row
    have hsame : row' = row := List.inj_on_of_nodup_map h'.tables.ids hrow' hrow
      (hrowid'.trans (hid.trans hrowid.symm))
    rw [hsame] at hrowlinked'
    exact Option.some.inj (hrowlinked'.2.symm.trans hrowlinked.2)
  returned t sub u hret w' hrun t' u' hret' := by
    obtain ⟨hretains, h'⟩ := h.run hrun
    have hlinked := hretains.links _ _ (h.returned hret)
    exact h'.tables.unique _ _ sub (h'.returned hret') hlinked
  found t sub u hret w' hrun t' found w'' hs := by
    obtain ⟨hretains, h'⟩ := h.run hrun
    have hlinked := hretains.links _ _ (h.returned hret)
    cases hs with
    | @call _ q tr _ k _ hat hx =>
      have hfind : found = w'.shared.users.find? fun u =>
          u.provider = some "google" ∧ u.providerAccountId = some sub := hx
      cases found with
      -- the row is still linked, so that something is found
      | none =>
        obtain ⟨row, hrow, hid, hrowlinked⟩ := hlinked
        have hnone : row.provider = some "google" → row.providerAccountId ≠ some sub := by
          simpa using List.find?_eq_none.1 hfind.symm row hrow
        exact absurd hrowlinked.2 (hnone hrowlinked.1)
      | some u' =>
        have hu' : u'.provider = some "google" ∧ u'.providerAccountId = some sub := by
          simpa using List.find?_some hfind.symm
        have hmem : u' ∈ w'.shared.users := List.mem_of_find?_eq_some hfind.symm
        exact ⟨u', rfl, h'.tables.unique _ _ sub ⟨u', hmem, rfl, hu'⟩ hlinked⟩

/-- Any accounts, with ids of their own and Google accounts of their own. -/
structure AuthDb.WellFormed (g : AuthDb) : Prop where
  ids : (g.users.map (·.id)).Nodup
  unique : ∀ id id' sub, g.LinkedTo id sub → g.LinkedTo id' sub → id = id'

/-- In every run that keeps links, accounts are stable. -/
theorem googleAccounts_stable (rt : AuthRuntime) {g : AuthDb} (hg : g.WellFormed)
    (hrun : Runs (World.Step (accountServer (T := T) rt)) KeepsLinks (World.fresh g) w) :
    StableAccounts rt KeepsLinks w := by
  have hfresh : SignInsInv rt (World.fresh g : AccountWorld T) :=
    ⟨fun _ => rfl, hg.ids, hg.unique, fun _ => trivial⟩
  exact (hfresh.run hrun).2.stable

end Runs

/-! ## Computed runs -/

instance (g : AuthDb) (data : UserData) (v : User) : Decidable (g.Inserts data v) :=
  inferInstanceAs (Decidable (_ ∧ _))

/-- The good answer to a statement on the accounts; a choice is the id that an insert draws. -/
def AuthDb.answer (g : AuthDb) (id : Uuid) : (s : AuthStatement) → Option (Except SqlState s.Result)
  | .findByEmail email => some (.ok (g.users.find? (·.email = email)))
  | .findByProviderAccount provider account => some (.ok (g.users.find? fun u =>
      u.provider = some provider ∧ u.providerAccountId = some account))
  | .createUser data =>
    let v : User := ⟨id, data.email, data.name, data.passwordHash, data.provider,
      data.providerAccountId, false⟩
    if g.Inserts data v then some (.ok v) else none
  | .linkProvider id provider account =>
    if ∀ u ∈ g.users, u.provider = some provider → u.providerAccountId = some account → u.id = id
    then some (.ok ()) else none
  | .hash password => some (.ok password)
  | _ => none

/-- Registrations and sign-ins with computed answers. -/
def accountResponder {T : Type} (rt : AuthRuntime) :
    Responder (accountServer (T := T) rt) Uuid where
  answer id _ g s := g.answer id s
  sound id t g s r h := by
    cases s with
    | createUser data =>
      simp only [AuthDb.answer] at h
      split at h
      · rename_i hinserts
        cases h
        exact hinserts
      · cases h
    | linkProvider id provider account =>
      simp only [AuthDb.answer] at h
      split at h
      · rename_i hfree
        cases h
        exact hfree
      · cases h
    | findByEmail _ | findByProviderAccount _ _ =>
      cases h
      rfl
    | hash _ =>
      cases h
      trivial
    | session _ | findByUser _ | onboard _ => cases h

/-- No accounts, memberships or tokens. -/
def emptyAuth : AuthDb := ⟨[], [], [], []⟩

theorem emptyAuth_wellFormed : emptyAuth.WellFormed :=
  ⟨List.nodup_nil, fun _ _ _ h => by obtain ⟨_, hrow, _⟩ := h; cases hrow⟩

def sampleAuth : AuthRuntime := ⟨⟨fun s => s, fun _ => "", 7⟩, fun password hash => password = hash⟩

/-- A sign-in with the sample address. -/
def signIn (sub : String) : AccountRequest := .google ⟨sub, "ann@example.com", true, "Ann"⟩

/-- An account is registered, linked by a first sign-in and found by a second. -/
def registerAndSignIn : List (Move (Fin 3) AccountRequest Uuid) :=
  [.start 0 (.register ⟨"ann@example.com", "Ann", "password"⟩), .go 0 0, .go 0 0, .go 0 1,
    .start 1 (signIn "1"), .go 1 0, .go 1 0, .go 1 0, .start 2 (signIn "1"), .go 2 0]

/-- Whether a step links an account only that has no other Google account. -/
def keepsLinks (w : AccountWorld (Fin 3)) : Label AuthSql (Fin 3) AccountRequest → Bool
  | .call _ ⟨.linkProvider id _ sub, _⟩ =>
    decide (∀ u ∈ w.shared.users, u.id = id → u.provider = none ∨ u.providerAccountId = some sub)
  | _ => true

theorem keepsLinks_sound (w : AccountWorld (Fin 3)) (l : Label AuthSql (Fin 3) AccountRequest)
    (h : keepsLinks w l = true) : KeepsLinks w l := by
  rintro t id sub rfl sub' ⟨row, hrow, hid, hlinked⟩
  rcases of_decide_eq_true h row hrow hid with hnone | hsame
  · rw [hlinked.1] at hnone
    cases hnone
  · exact Option.some.inj (hlinked.2.symm.trans hsame)

/-- Whether a session has returned an account with this id. -/
def returnedId {T : Type} (w : AccountWorld T) (t : T) : Option Uuid :=
  (w.session t).bind fun σ => match σ.prog.outcome with
    | some (.ok (.resolved u)) => some u.id
    | _ => none

theorem returned_of_id {T : Type} {w : AccountWorld T} {t : T} {sub : String} {id : Uuid}
    (hrequest : (w.session t).map (·.request) = some (signIn sub))
    (hid : returnedId w t = some id) :
    ∃ u, Returned w t sub u ∧ u.id = id := by
  obtain ⟨σ, hat, hmatch⟩ := Option.bind_eq_some_iff.1 hid
  split at hmatch
  · rename_i u hout
    have hσ : σ.request = signIn sub := by simpa [hat] using hrequest
    exact ⟨u, ⟨σ, _, hat, hσ, rfl, hout⟩, Option.some.inj hmatch⟩
  · cases hmatch

theorem googleAccounts_stable_registerAndSignIn :
    ∃ w : AccountWorld (Fin 3), returnedId w 1 = some 1 ∧ returnedId w 2 = some 1 ∧
      StableAccounts sampleAuth KeepsLinks w := by
  obtain ⟨w, hrun, hw⟩ := (accountResponder sampleAuth).exists_run keepsLinks_sound
    (World.fresh emptyAuth) registerAndSignIn
    (fun w => returnedId w 1 = some 1 ∧ returnedId w 2 = some 1) (by decide +kernel)
  obtain ⟨hfirst, hsecond⟩ := of_decide_eq_true hw
  exact ⟨w, hfirst, hsecond, googleAccounts_stable sampleAuth emptyAuth_wellFormed hrun⟩

/-- A second Google account reports the email of the first. -/
def exchangedEmail : List (Move (Fin 2) AccountRequest Uuid) :=
  [.start 0 (signIn "1"), .go 0 0, .go 0 0, .go 0 1, .start 1 (signIn "2"), .go 1 0,
    .go 1 0, .go 1 0]

/-- The account of one Google identity is taken over by another with the same email. -/
theorem googleAccounts_takeover :
    ∃ w : AccountWorld (Fin 2), Runs (World.Step (accountServer sampleAuth)) anyStep
      (World.fresh emptyAuth) w ∧ ¬StableAccounts sampleAuth anyStep w := by
  obtain ⟨w, hrun, hw⟩ := (accountResponder sampleAuth).exists_anyRun (World.fresh emptyAuth)
    exchangedEmail (fun w =>
      (w.session 0).map (·.request) = some (signIn "1") ∧ returnedId w 0 = some 1 ∧
      ∃ u ∈ w.shared.users, u.id = 1 ∧ u.provider = some "google" ∧ u.providerAccountId = some "2")
    (by decide +kernel)
  obtain ⟨hrequest, hreturned, row, hrow, hid, hlinked⟩ := of_decide_eq_true hw
  obtain ⟨u, hret, huid⟩ := returned_of_id hrequest hreturned
  refine ⟨w, hrun, fun hstable => ?_⟩
  have hsame : "1" = "2" := hstable.linked w .refl 1 "2" ⟨row, hrow, hid, hlinked⟩ 0 "1" u hret huid
  exact absurd hsame (by decide)

end BookingPlatform
