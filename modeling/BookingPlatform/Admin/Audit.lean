import BookingPlatform.Admin.Console

/-!
# The Audit Log and the Owners of Tenants

Console requests in any number, interleaved statement by statement, with statements that fail and
sessions that die, and beside them other parts of the program that add members and change
subscriptions.

## Main definitions

- `charter`: what the requests may commit, and when they may read a subscription.

## Main results

- `statusChange_audited`: no status changes without its record.
- `tenants_owned`: every tenant has an owner.
- `subscription_read_recorded`: what a super-admin reads of a tenant has been recorded before.
-/

namespace BookingPlatform.Console

open Library

/-! ## The rules -/

/-- Every tenant has a member who owns it. -/
def Owned (db : Store consoleSchema) : Prop :=
  ∀ r ∈ db .tenants, ∃ m ∈ db .memberships, m.tenantId = r.id ∧ m.role = .owner

/-- The rules of the tables; the one about owners is kept where it is asked for. -/
structure ConsoleHolds (owners : Prop) (db : Store consoleSchema) : Prop where
  keyed : db.Keyed
  owned : owners → Owned db

/-- Tenants stay, with everything but their status, and so do members. -/
structure ConsoleEvolves (db db' : Store consoleSchema) : Prop where
  tenants : ∀ r ∈ db .tenants, ∃ r' ∈ db' .tenants, r' = { r with status := r'.status }
  memberships : ∀ m ∈ db .memberships, m ∈ db' .memberships

/-- A row of `tenants` that a transaction commits: a new tenant with its owner, or a tenant with the
status that a super-admin asks for. -/
inductive Justified (q : ConsoleRequest) (L : Ledger consoleSchema) (r : Tenant) : Prop where
  | onboarded (userId : Uuid) (input : CreateTenantDto) (m : MembershipRow)
    (hq : q = .onboard userId input)
    (hid : r.id ∈ L.inserted) (hactive : r.status = .active)
      (hm : m ∈ rowsIn ConsoleTable.memberships L.tx.pending)
    (htenant : m.tenantId = r.id) (huser : m.userId = userId) (howner : m.role = .owner)
  | changed (c : StatusChange) (r₀ : Tenant) (a : AdminAuditLog) (hq : q.change? = some c)
    (hread : r₀ ∈ L.read .tenants) (hid : r₀.id = c.tenantId)
      (hr : r = { r₀ with status := c.status })
    (ha : a ∈ rowsIn ConsoleTable.adminAuditLogs L.tx.pending) (hentry : a.toAuditEntry = c.entry)

/-- What a request may commit. -/
structure Closes (q : ConsoleRequest) (L : Ledger consoleSchema) : Prop where
  tenants : ∀ r ∈ rowsIn ConsoleTable.tenants L.tx.pending, Justified q L r
  records : ∀ a ∈ rowsIn ConsoleTable.adminAuditLogs L.tx.pending, q.entry? = some a.toAuditEntry
  puts : ∀ τ id, .remove τ id ∉ L.tx.pending

/-- A subscription is only read of the tenant for which a record has been committed. -/
def MayRead (q : ConsoleRequest) (L : Ledger consoleSchema) (p : SubscriptionRow → Bool) : Prop :=
  ∃ actorUserId tenantId, q = .tenantDetail actorUserId tenantId ∧
    (∀ r, p r = true → r.tenantId = tenantId) ∧
    ∃ a ∈ rowsIn ConsoleTable.adminAuditLogs L.committed,
      a.toAuditEntry = viewEntry actorUserId tenantId

/-- What the rules say of single statements. -/
def Permits (q : ConsoleRequest) (L : Ledger consoleSchema) : Stmt consoleSchema → Prop
  | .select .subscriptions p => MayRead q L p
  | .commit => Closes q L
  | _ => True

/-- The tables in which no row is ever changed. -/
def Lasting (τ : ConsoleTable) : Prop := τ = .memberships ∨ τ = .adminAuditLogs

structure May (q : ConsoleRequest) (L : Ledger consoleSchema) (s : Stmt consoleSchema) : Prop where
  tells : s.Tells
  identifies : s.Identifies
  spares : ∀ τ : ConsoleTable, Lasting τ → s.Spares τ
  permits : Permits q L s

/-- The rules of the console, with or without the one about owners. -/
def charter (owners : Prop) : Charter consoleSchema ConsoleRequest where
  grows := Lasting
  holds := ConsoleHolds owners
  evolves := ConsoleEvolves
  may := May

/-- What other parts of the program commit: members who have accepted an invite, and
subscriptions. -/
def otherCommits (db : Store consoleSchema) (id : Uuid) : Change consoleSchema → Prop
  | .put .memberships m => m.id = id
  | .put .subscriptions s => s.id = id ∨ ∃ s₀ ∈ db .subscriptions, s.id = s₀.id
  | .remove .subscriptions _ => True
  | _ => False

/-! ## What the rules keep -/

section Lawful

variable {owners : Prop} {db : Store consoleSchema} {q : ConsoleRequest} {L : Ledger consoleSchema}

theorem ConsoleEvolves.refl (db : Store consoleSchema) : ConsoleEvolves db db :=
  ⟨fun r hr => ⟨r, hr, rfl⟩, fun _ hm => hm⟩

theorem ConsoleEvolves.trans {db' db'' : Store consoleSchema} (h : ConsoleEvolves db db')
    (h' : ConsoleEvolves db' db'') : ConsoleEvolves db db'' := by
  refine ⟨fun r hr => ?_, fun m hm => h'.memberships m (h.memberships m hm)⟩
  obtain ⟨r', hr', heq⟩ := h.tenants r hr
  obtain ⟨r'', hr'', heq'⟩ := h'.tenants r' hr'
  refine ⟨r'', hr'', ?_⟩
  rw [heq', heq]

/-- A key determines its row. -/
theorem ConsoleHolds.eq_of_id (h : ConsoleHolds owners db) {r r' : Tenant} (hr : r ∈ db .tenants)
    (hr' : r' ∈ db .tenants) (hid : r.id = r'.id) : r = r' :=
  List.inj_on_of_nodup_map (h.keyed .tenants) hr hr' hid

/-- A tenant that has been read is still there, with the status that it has now. -/
theorem ConsoleHolds.tenant_of_past (h : ConsoleHolds owners db) {r r' : Tenant}
    (hpast : (charter owners).Past db .tenants r) (hr' : r' ∈ db .tenants) (hid : r'.id = r.id) :
    r' = { r with status := r'.status } := by
  obtain ⟨db₀, -, hr, hevolves⟩ := hpast
  obtain ⟨r₁, hr₁, heq⟩ := hevolves.tenants r hr
  have hid₁ : r₁.id = r.id := by rw [heq]
  obtain rfl : r₁ = r' := h.eq_of_id hr₁ hr' (hid₁.trans hid.symm)
  exact heq

theorem owner_of_past (howners : owners) {r : Tenant}
    (hpast : (charter owners).Past db .tenants r) :
    ∃ m ∈ db .memberships, m.tenantId = r.id ∧ m.role = .owner := by
  obtain ⟨db₀, hholds, hr, hevolves⟩ := hpast
  obtain ⟨m, hm, htenant, howner⟩ := hholds.owned howners r hr
  exact ⟨m, hevolves.memberships m hm, htenant, howner⟩

/-- A commit keeps the owners. -/
theorem Closes.holds (hcloses : Closes q L) (h : ConsoleHolds owners db)
    (hpast : ∀ τ, ∀ r ∈ L.read τ, (charter owners).Past db τ r)
    (hgrown : db.applyAll L.tx.pending .memberships =
      db .memberships ++ rowsIn ConsoleTable.memberships L.tx.pending) :
    ConsoleHolds owners (db.applyAll L.tx.pending) := by
  refine ⟨h.keyed.applyAll, fun howners r hr => ?_⟩
  rw [hgrown]
  rcases Store.mem_applyAll hr with hr | hput
  · obtain ⟨m, hm, hmember⟩ := h.owned howners r hr
    exact ⟨m, List.mem_append_left _ hm, hmember⟩
  · cases hcloses.tenants r (mem_rowsIn.2 hput) with
    | onboarded userId input m hq hid hactive hm htenant huser howner =>
      exact ⟨m, List.mem_append_right _ hm, htenant, howner⟩
    | changed c r₀ a hq hread hid hr ha hentry =>
      obtain ⟨m, hm, htenant, howner⟩ := owner_of_past howners (hpast .tenants r₀ hread)
      have hsame : r.id = r₀.id := by rw [hr]
      exact ⟨m, List.mem_append_left _ hm, htenant.trans hsame.symm, howner⟩

/-- A row that takes the place of a tenant differs in the status, which a super-admin has asked
for. -/
theorem Closes.tenant_of_put (hcloses : Closes q L) (h : ConsoleHolds owners db)
    (hpast : ∀ τ, ∀ r ∈ L.read τ, (charter owners).Past db τ r)
    (hnew : ∀ i ∈ L.inserted, ∀ r ∈ db .tenants, r.id ≠ i) {r r' : Tenant} (hr : r ∈ db .tenants)
    (hid : r'.id = r.id) (hput : r' ∈ rowsIn ConsoleTable.tenants L.tx.pending) :
    ∃ c, q.change? = some c ∧ c.tenantId = r.id ∧ r' = { r with status := c.status } ∧
      ∃ a ∈ rowsIn ConsoleTable.adminAuditLogs L.tx.pending, a.toAuditEntry = c.entry := by
  cases hcloses.tenants r' hput with
  | onboarded userId input m hq hinserted =>
    exact absurd hid.symm (hnew _ hinserted r hr)
  | changed c r₀ a hq hread htenant hr' ha hentry =>
    have hsame : r.id = r₀.id := by rw [← hid, hr']
    have hr₀ : r = { r₀ with status := r.status } :=
      h.tenant_of_past (hpast .tenants r₀ hread) hr hsame
    refine ⟨c, hq, htenant.symm.trans hsame.symm, ?_, a, ha, hentry⟩
    rw [hr', hr₀]

theorem Closes.evolves (hcloses : Closes q L) (h : ConsoleHolds owners db)
    (hpast : ∀ τ, ∀ r ∈ L.read τ, (charter owners).Past db τ r)
    (hnew : ∀ i ∈ L.inserted, ∀ r ∈ db .tenants, r.id ≠ i)
    (hgrown : db.applyAll L.tx.pending .memberships =
      db .memberships ++ rowsIn ConsoleTable.memberships L.tx.pending) :
    ConsoleEvolves db (db.applyAll L.tx.pending) := by
  refine ⟨fun r hr => ?_, fun m hm => ?_⟩
  · obtain ⟨r', hr', hid, hfrom⟩ := Store.exists_applyAll (hcloses.puts .tenants) hr
    refine ⟨r', hr', ?_⟩
    rcases hfrom with rfl | hput
    · rfl
    · obtain ⟨c, -, -, heq, -⟩ := hcloses.tenant_of_put h hpast hnew hr hid (mem_rowsIn.2 hput)
      rw [heq]
  · rw [hgrown]
    exact List.mem_append_left _ hm

theorem respects_of_otherCommits {id : Uuid} {c : Change consoleSchema}
    (hc : otherCommits db id c) :
    Respects Lasting db id c := by
  cases c with
  | put τ r =>
    cases τ with
    | memberships => exact .inl hc
    | subscriptions =>
      rcases hc with hid | hold
      · exact .inl hid
      · exact .inr ⟨by simp [Lasting], hold⟩
    | _ => exact hc.elim
  | remove τ id =>
    cases τ with
    | subscriptions => simp [Respects, Lasting]
    | _ => exact hc.elim

theorem otherCommits_tenants {id : Uuid} {c : Change consoleSchema} (hc : otherCommits db id c) :
    db.apply c .tenants = db .tenants := by
  apply Store.apply_of_ne
  intro htable
  rcases Change.cases_of_table htable with ⟨r, rfl⟩ | ⟨i, rfl⟩
  · exact hc
  · exact hc

theorem charter_lawful : (charter owners).Lawful otherCommits where
  refl := ConsoleEvolves.refl
  trans _ _ _ h h' := h.trans h'
  tells _ _ _ h := h.tells
  identifies _ _ _ h := h.identifies
  spares _ _ _ h := h.spares
  commits q L db hmay h hpast hnew hgrown := by
    have hmemberships := hgrown .memberships (.inl rfl)
    have hcloses : Closes q L := hmay.permits
    exact ⟨hcloses.holds h hpast hmemberships,
      hcloses.evolves h hpast (fun i hi => hnew i hi .tenants) hmemberships⟩
  respects _ _ _ hc := respects_of_otherCommits hc
  -- new members take no owner away, and the tenants are not touched
  others db id c hc h hgrown := by
    have hmembers : ∀ m ∈ db .memberships, m ∈ db.apply c .memberships :=
      fun m hm => (hgrown .memberships (.inl rfl)).subset hm
    have htenants : db.apply c .tenants = db .tenants := otherCommits_tenants hc
    refine ⟨⟨h.keyed.apply, fun howners r hr => ?_⟩, fun r hr => ⟨r, htenants ▸ hr, rfl⟩, hmembers⟩
    obtain ⟨m, hm, hmember⟩ := h.owned howners r (htenants ▸ hr)
    exact ⟨m, hmembers m hm, hmember⟩

end Lawful

/-! ## What the programs do -/

section Programs

variable {owners : Prop} {α β : Type} {q : ConsoleRequest} {L : Ledger consoleSchema}
  {post : Ledger consoleSchema → Except Thrown α → Prop}

theorem may_of_permits {s : Stmt consoleSchema} (htells : s.Tells) (hidentifies : s.Identifies)
    (hspares : ∀ τ : ConsoleTable, Lasting τ → s.Spares τ) (h : Permits q L s) :
    (charter owners).may q L s :=
  ⟨htells, hidentifies, hspares, h⟩

/-- A statement after which a failure is only passed on. -/
theorem follows_exec_bind {s : Stmt consoleSchema} {f : s.Result → ConsoleM α}
    (herror : ∀ L' e, post L' (.error e))
    (hissues : ((charter owners).protocol q).Issues L s fun L' a =>
      ∀ v, a = .ok v → (f v).Follows ((charter owners).protocol q) post L') :
    (exec s >>= f).Follows ((charter owners).protocol q) post L := by
  apply follows_execSql_bind.2
  refine ⟨hissues.1, fun a ha => ?_⟩
  have hnext := hissues.2 a ha
  cases a with
  | ok v => exact hnext v rfl
  | error code => exact herror _ _

theorem follows_select_bind {τ : ConsoleTable} {p : ConsoleRow τ → Bool}
    {f : List (ConsoleRow τ) → ConsoleM α} (herror : ∀ L' e, post L' (.error e))
    (hpermits : Permits q L (.select τ p)) (hpending : L.tx.pending = [])
    (hf : ∀ db, ConsoleHolds owners db → (∀ σ, ∀ r ∈ L.read σ, (charter owners).Past db σ r) →
      (f ((db τ).filter p)).Follows ((charter owners).protocol q) post
        (L.reads τ ((db τ).filter p))) :
    (exec (.select τ p) >>= f).Follows ((charter owners).protocol q) post L := by
  apply follows_exec_bind herror
  apply Charter.issues_select
    (may_of_permits trivial trivial (fun _ _ => trivial) hpermits) hpending
  · intro db hholds hpast v hv
    obtain rfl := Except.ok.inj hv
    exact hf db hholds hpast
  · intro L' code v hv
    cases hv

theorem follows_insert_bind {τ : ConsoleTable}
    {mk : Uuid → Instant → Except SqlState (ConsoleRow τ)} {f : ConsoleRow τ → ConsoleM α}
    (herror : ∀ L' e, post L' (.error e))
    (hid : ∀ id time r, mk id time = .ok r → consoleRowId τ r = id)
    (hf : ∀ id time r, mk id time = .ok r →
      (f r).Follows ((charter owners).protocol q) post (L.inserts τ r)) :
    (exec (.insert τ mk) >>= f).Follows ((charter owners).protocol q) post L := by
  apply follows_exec_bind herror
  apply Charter.issues_insert (may_of_permits trivial hid (fun _ _ => trivial) trivial)
  · intro id time r hr v hv
    obtain rfl := Except.ok.inj hv
    exact hf id time r hr
  · intro L' code v hv
    cases hv

theorem follows_update_bind {τ : ConsoleTable} {p : ConsoleRow τ → Bool}
    {set : ConsoleRow τ → ConsoleRow τ} {f : List (ConsoleRow τ) → ConsoleM α}
    (herror : ∀ L' e, post L' (.error e)) (hτ : ¬Lasting τ)
    (hid : ∀ r, consoleRowId τ (set r) = consoleRowId τ r) (hpending : L.tx.pending = [])
    (hf : ∀ db rows, ConsoleHolds owners db → (∀ σ, ∀ r ∈ L.read σ, (charter owners).Past db σ r) →
      (∀ r' ∈ rows, ∃ r ∈ db τ, p r = true ∧ r' = set r) →
      (f rows).Follows ((charter owners).protocol q) post (L.updates τ rows)) :
    (exec (.update τ p fun _ r => .ok (set r)) >>= f).Follows
      ((charter owners).protocol q) post L := by
  apply follows_exec_bind herror
  apply Charter.issues_update (may_of_permits trivial ?_ ?_ trivial) hpending
  · -- the rows that come back are the ones that have been set
    intro db time rows hholds hpast hset v hv
    obtain rfl := Except.ok.inj hv
    apply hf db rows hholds hpast
    intro r' hr'
    obtain ⟨r, hr, hsame⟩ := mem_setRows hset hr'
    obtain ⟨hmem, hp⟩ := List.mem_filter.1 hr
    exact ⟨r, hmem, hp, (Except.ok.inj hsame).symm⟩
  · intro L' code v hv
    cases hv
  · -- no row gets another id
    intro time r r' hr'
    obtain rfl : set r = r' := Except.ok.inj hr'
    exact hid r
  · rintro σ hσ rfl
    exact hτ hσ

theorem follows_config_bind {value : String} {f : Unit → ConsoleM α}
    (herror : ∀ L' e, post L' (.error e))
    (hf : (f ()).Follows ((charter owners).protocol q) post L) :
    (exec (.config value) >>= f).Follows ((charter owners).protocol q) post L := by
  apply follows_exec_bind herror
  apply Charter.issues_config (may_of_permits trivial trivial (fun _ _ => trivial) trivial)
  · intro v hv
    obtain rfl := Except.ok.inj hv
    exact hf
  · intro L' code v hv
    cases hv

/-- A transaction commits what its body leaves in the ledger. -/
theorem follows_transaction {body : ConsoleM α} (herror : ∀ L' e, post L' (.error e))
    (hbody : body.Follows ((charter owners).protocol q) (fun L' r =>
      ∀ v, r = .ok v → L'.tx.aborted = false ∧ Closes q L' ∧ post L'.commit (.ok v)) L) :
    (transaction body).Follows ((charter owners).protocol q) post L := by
  have hrollback : ∀ L', (charter owners).may q L' .rollback := fun _ =>
    may_of_permits trivial trivial (fun _ _ => trivial) trivial
  unfold transaction
  rw [Prog.follows_tryCatch, Prog.follows_bind]
  apply hbody.mono
  intro L' r hr
  cases r with
  | error e =>
    -- `ROLLBACK`, and the error of the body is thrown again
    exact ⟨hrollback L', fun _ _ => herror _ _⟩
  | ok v =>
    obtain ⟨hrunning, hcloses, hpost⟩ := hr v rfl
    show (exec .commit >>= fun _ => Prog.ret v).Follows _ _ _
    rw [follows_execSql_bind]
    apply Charter.issues_commit
      (may_of_permits trivial trivial (fun _ _ => trivial) hcloses) hrunning
    · exact hpost
    · intro L'' code
      exact ⟨hrollback L'', fun _ _ => herror _ _⟩

/-! ### Tenants -/

/-- A transaction that has written nothing may commit. -/
theorem closes_of_nothing (h : L.tx.pending = []) : Closes q L := by
  constructor
  · intro r hr
    rw [h] at hr
    exact absurd hr List.not_mem_nil
  · intro a ha
    rw [h] at ha
    exact absurd ha List.not_mem_nil
  · intro τ id
    rw [h]
    exact List.not_mem_nil

theorem follows_onboard (userId : Uuid) (input : CreateTenantDto) :
    (TenantService.onboard userId input).Follows ((charter owners).protocol (.onboard userId input))
      (fun _ _ => True)
      .empty := by
  unfold TenantService.onboard
  apply Prog.follows_tryCatch_any
  · apply follows_transaction fun _ _ => trivial
    apply follows_insert_bind fun _ _ _ h => by cases h
    · intro id time r hr
      obtain rfl := Except.ok.inj hr
      rfl
    · intro id time tenant htenant
      apply follows_insert_bind fun _ _ _ h => by cases h
      · intro id time r hr
        obtain rfl := Except.ok.inj hr
        rfl
      · intro id' time' m hm
        rintro v -
        obtain rfl := Except.ok.inj htenant
        obtain rfl := Except.ok.inj hm
        refine ⟨rfl, ⟨fun r hr => ?_, fun a ha => ?_, fun τ i => ?_⟩, trivial⟩
        · -- the one tenant that is put, with its one member
          rw [Ledger.rowsIn_inserts_of_ne (by simp), Ledger.rowsIn_inserts] at hr
          obtain rfl := List.mem_singleton.1 hr
          apply Justified.onboarded userId input _ rfl
          · show id ∈ ([] ++ [id]) ++ [id']
            simp
          · rfl
          · rw [Ledger.rowsIn_inserts]
            exact List.mem_append_right _ (List.mem_singleton.2 rfl)
          · rfl
          · rfl
          · rfl
        · rw [Ledger.rowsIn_inserts_of_ne (by simp), Ledger.rowsIn_inserts_of_ne (by simp)] at ha
          exact absurd ha List.not_mem_nil
        · simp
  · intro e L
    split
    · trivial
    · trivial

theorem follows_findById_bind {id : Uuid} {f : Option Tenant → ConsoleM α}
    (herror : ∀ L' e, post L' (.error e)) (hpending : L.tx.pending = [])
    (hf : ∀ db, ConsoleHolds owners db → (∀ τ, ∀ r ∈ L.read τ, (charter owners).Past db τ r) →
      (f ((db .tenants).filter fun r => r.id = id).head?).Follows ((charter owners).protocol q) post
        (L.reads .tenants ((db .tenants).filter fun r => r.id = id))) :
    (TenantRepository.findById id >>= f).Follows ((charter owners).protocol q) post L := by
  rw [Prog.follows_bind]
  unfold TenantRepository.findById
  apply follows_select_bind
  · exact herror
  · trivial
  · exact hpending
  · intro db hholds hpast
    exact hf db hholds hpast

/-- The ledger after `save` of a tenant with another status: at most that tenant is put. -/
structure Saved (L : Ledger consoleSchema) (found : Tenant) (c : StatusChange) : Prop where
  running : L.tx.aborted = false
  read : found ∈ L.read .tenants
  tenants : ∀ r ∈ rowsIn ConsoleTable.tenants L.tx.pending, r = { found with status := c.status }
  records : rowsIn ConsoleTable.adminAuditLogs L.tx.pending = []
  puts : ∀ τ id, .remove τ id ∉ L.tx.pending

/-- `save` finds the tenant as it has been read, but for its status. -/
theorem follows_save {found : Tenant} {c : StatusChange} (hrunning : L.tx.aborted = false)
    (hpending : L.tx.pending = []) (hread : found ∈ L.read .tenants) :
    (TenantRepository.save { found with status := c.status }).Follows ((charter owners).protocol q)
      (fun L' r => ∀ v, r = .ok v → Saved L' found c) L := by
  unfold TenantRepository.save
  have hreads : ∀ rows : List Tenant, found ∈ (L.reads ConsoleTable.tenants rows).read .tenants :=
    fun _ => Ledger.mem_reads_of_mem hread
  have hsaved : ∀ rows : List Tenant, Saved (L.reads ConsoleTable.tenants rows) found c := by
    intro rows
    refine ⟨hrunning, hreads rows, fun r hr => ?_, ?_, fun τ id => ?_⟩
    · rw [Ledger.reads_tx, hpending] at hr
      exact absurd hr List.not_mem_nil
    · rw [Ledger.reads_tx, hpending]
      rfl
    · rw [Ledger.reads_tx, hpending]
      exact List.not_mem_nil
  apply follows_findById_bind (fun _ _ _ h => by cases h) hpending
  intro db hholds hpast
  have hpast' : (charter owners).Past db .tenants found := hpast .tenants found hread
  cases hstored : ((db .tenants).filter fun r => r.id = found.id).head? with
  | none =>
    -- the tenant has been read, and tenants stay
    obtain ⟨db₀, -, hfound, hevolves⟩ := hpast'
    obtain ⟨r', hr', heq⟩ := hevolves.tenants found hfound
    have hempty := List.head?_eq_none_iff.1 hstored
    have hmem : r' ∈ (db .tenants).filter fun r => r.id = found.id :=
      List.mem_filter.2 ⟨hr', by rw [heq]; simp⟩
    rw [hempty] at hmem
    exact absurd hmem List.not_mem_nil
  | some stored =>
    obtain ⟨hmem, hid⟩ := List.mem_filter.1 (List.mem_of_head? hstored)
    have hstored' : stored = { found with status := stored.status } :=
      hholds.tenant_of_past hpast' hmem (by simpa using hid)
    dsimp only
    split
    · exact fun v _ => hsaved _
    · rename_i hdiffers
      have hstatus : stored.status ≠ c.status := by
        intro heq
        apply hdiffers
        rw [hstored', heq]
      apply follows_update_bind (fun _ _ _ h => by cases h)
      · simp [Lasting]
      · intro r
        rfl
      · exact hpending
      · intro db' rows hholds' hpast₁ hrows v _
        have hfound : (charter owners).Past db' .tenants found := hpast₁ .tenants found (hreads _)
        refine ⟨hrunning, hreads _, fun r' hr' => ?_, ?_, fun τ id => ?_⟩
        · rw [Ledger.rowsIn_updates, Ledger.reads_tx, hpending] at hr'
          obtain ⟨r, hr, hid', rfl⟩ := hrows r' hr'
          have hsame : r = { found with status := r.status } :=
            hholds'.tenant_of_past hfound hr (by simpa using hid')
          unfold TenantRepository.changed
          rw [if_neg hstatus, hsame, hstored']
          simp
        · rw [Ledger.rowsIn_updates_of_ne (by simp), Ledger.reads_tx, hpending]
          rfl
        · rw [Ledger.remove_mem_updates, Ledger.reads_tx, hpending]
          exact List.not_mem_nil

theorem follows_insertAuditLog_bind {entry : AuditEntry} {f : AdminAuditLog → ConsoleM α}
    (herror : ∀ L' e, post L' (.error e))
    (hf : ∀ a : AdminAuditLog, a.toAuditEntry = entry →
      (f a).Follows ((charter owners).protocol q) post (L.inserts .adminAuditLogs a)) :
    (insertAuditLog entry >>= f).Follows ((charter owners).protocol q) post L := by
  apply follows_insert_bind herror
  · intro id time r hr
    obtain rfl := Except.ok.inj hr
    rfl
  · intro id time r hr
    apply hf
    obtain rfl := Except.ok.inj hr
    rfl

theorem rowsIn_insertAuditLog (a : AdminAuditLog)
    (h : rowsIn ConsoleTable.adminAuditLogs L.tx.pending = []) :
    rowsIn ConsoleTable.adminAuditLogs (L.inserts .adminAuditLogs a).tx.pending = [a] := by
  rw [Ledger.rowsIn_inserts, h, List.nil_append]

/-- A transaction that has put its one record may commit, if the tenants that it puts are justified
by then. -/
theorem closes_insertAuditLog {a : AdminAuditLog} (hentry : q.entry? = some a.toAuditEntry)
    (hrecords : rowsIn ConsoleTable.adminAuditLogs L.tx.pending = [])
    (hputs : ∀ τ id, .remove τ id ∉ L.tx.pending)
    (htenants : ∀ r ∈ rowsIn ConsoleTable.tenants L.tx.pending,
      Justified q (L.inserts .adminAuditLogs a) r) :
    Closes q (L.inserts .adminAuditLogs a) := by
  constructor
  · intro r hr
    rw [Ledger.rowsIn_inserts_of_ne (by simp)] at hr
    exact htenants r hr
  · intro a' ha'
    rw [rowsIn_insertAuditLog a hrecords] at ha'
    obtain rfl := List.mem_singleton.1 ha'
    exact hentry
  · intro τ id
    rw [Ledger.remove_mem_inserts]
    exact hputs τ id

theorem follows_changeStatus {c : StatusChange} (hq : q.change? = some c)
    (hentry : q.entry? = some c.entry) :
    (AdminService.changeStatus c).Follows ((charter owners).protocol q)
      (fun _ _ => True) .empty := by
  unfold AdminService.changeStatus
  apply follows_transaction fun _ _ => trivial
  apply follows_findById_bind (fun _ _ _ h => by cases h) rfl
  intro db hholds hpast
  cases hfound : ((db .tenants).filter fun r => r.id = c.tenantId).head? with
  -- there is no such tenant, and nothing is recorded
  | none =>
    intro v h
    cases h
  | some found =>
    have hid : found.id = c.tenantId := by
      simpa using (List.mem_filter.1 (List.mem_of_head? hfound)).2
    dsimp only
    -- the row is saved first, its record is inserted in the same transaction
    rw [Prog.follows_bind]
    apply (follows_save rfl rfl (Ledger.mem_reads (List.mem_of_head? hfound))).mono
    intro L' r hr
    cases r with
    | error e =>
      intro v h
      cases h
    | ok v =>
      have hsaved : Saved L' found c := hr v rfl
      apply follows_insertAuditLog_bind (fun _ _ _ h => by cases h)
      intro a ha v' _
      refine ⟨hsaved.running, closes_insertAuditLog ?_ hsaved.records hsaved.puts fun r hr => ?_,
        trivial⟩
      · rw [ha, hentry]
      · -- the commit is justified by the record that has just been inserted
        apply Justified.changed (L := L'.inserts .adminAuditLogs a) c found a hq hsaved.read hid
          (hsaved.tenants r hr)
        · rw [rowsIn_insertAuditLog a hsaved.records]
          exact List.mem_singleton.2 rfl
        · exact ha

/-! ### Looking at tenants -/

theorem follows_listTenants :
    AdminService.listTenants.Follows ((charter owners).protocol q) (fun _ _ => True) .empty := by
  unfold AdminService.listTenants TenantService.listAll TenantRepository.listAll
  apply follows_select_bind
  · exact fun _ _ => trivial
  · trivial
  · rfl
  · exact fun _ _ _ => trivial

theorem follows_getById_bind {id : Uuid} {f : Tenant → ConsoleM α}
    (herror : ∀ L' e, post L' (.error e)) (hpending : L.tx.pending = [])
    (hf : ∀ tenant rows, (f tenant).Follows ((charter owners).protocol q) post
      (L.reads .tenants rows)) :
    (TenantService.getById id >>= f).Follows ((charter owners).protocol q) post L := by
  rw [Prog.follows_bind]
  unfold TenantService.getById
  apply follows_findById_bind
  · exact herror
  · exact hpending
  · intro db hholds hpast
    split
    · exact hf _ _
    · exact herror _ _

/-- A record on its own is committed before anything else is done. -/
theorem follows_record_bind {entry : AuditEntry} {f : AdminAuditLog → ConsoleM α}
    (herror : ∀ L' e, post L' (.error e)) (hentry : q.entry? = some entry) (hidle : L.tx = .idle)
    (hf : ∀ a : AdminAuditLog, a.toAuditEntry = entry →
      (f a).Follows ((charter owners).protocol q) post (L.inserts .adminAuditLogs a).commit) :
    (AdminAuditLogRepository.record entry >>= f).Follows ((charter owners).protocol q) post L := by
  rw [Prog.follows_bind]
  unfold AdminAuditLogRepository.record
  apply follows_transaction
  · exact herror
  · rw [← Prog.bind_ret (insertAuditLog entry)]
    apply follows_insertAuditLog_bind (fun _ _ _ h => by cases h)
    intro a ha v hv
    obtain rfl := Except.ok.inj hv
    -- the transaction was idle, so that the record is all that it commits
    refine ⟨?_, closes_insertAuditLog ?_ ?_ (fun τ id => ?_) fun r hr => ?_, hf a ha⟩
    · show L.tx.aborted = false
      rw [hidle]
      rfl
    · rw [ha, hentry]
    · rw [hidle]
      rfl
    · rw [hidle]
      exact List.not_mem_nil
    · rw [hidle] at hr
      exact absurd hr List.not_mem_nil

theorem follows_tenantDetail (uuid : UuidText) (actorUserId tenantId : Uuid) :
    (AdminService.getTenantDetail uuid actorUserId tenantId).Follows
      ((charter owners).protocol (.tenantDetail actorUserId tenantId))
        (fun _ _ => True) .empty := by
  unfold AdminService.getTenantDetail
  apply follows_getById_bind (fun _ _ => trivial) rfl
  intro tenant rows
  apply follows_record_bind (fun _ _ => trivial) rfl rfl
  intro a ha
  rw [Prog.follows_bind]
  unfold runInTenantContext
  apply follows_transaction
  · exact fun _ _ => trivial
  · apply follows_config_bind (fun _ _ _ h => by cases h)
    rw [← Prog.bind_ret (exec _)]
    apply follows_select_bind (fun _ _ _ h => by cases h)
    · -- the record has been committed
      refine ⟨actorUserId, tenantId, rfl, fun r hr => by simpa using hr, a, ?_, ha⟩
      let L : Ledger consoleSchema := .reads .empty .tenants rows
      have hrecorded : a ∈ rowsIn ConsoleTable.adminAuditLogs
          (L.inserts .adminAuditLogs a).tx.pending := by
        rw [Ledger.rowsIn_inserts]
        exact List.mem_append_right _ (List.mem_singleton.2 rfl)
      exact hrecorded
    · rfl
    · exact fun db _ _ v _ => ⟨rfl, closes_of_nothing rfl, trivial⟩

theorem follows_program (uuid : UuidText) (q : ConsoleRequest) :
    (q.program uuid).Follows ((charter owners).protocol q) (fun _ _ => True) .empty := by
  cases q with
  | onboard userId input =>
    exact Prog.follows_bind_any (follows_onboard userId input) fun _ _ => trivial
  | listTenants => exact Prog.follows_bind_any follows_listTenants fun _ _ => trivial
  | tenantDetail actorUserId tenantId =>
    exact Prog.follows_bind_any (follows_tenantDetail uuid actorUserId tenantId) fun _ _ => trivial
  | suspend actorUserId tenantId reason =>
    exact Prog.follows_bind_any (follows_changeStatus rfl rfl) fun _ _ => trivial
  | reactivate actorUserId tenantId =>
    exact Prog.follows_bind_any (follows_changeStatus rfl rfl) fun _ _ => trivial

end Programs

/-! ## Runs -/

/-- Console requests over one database. -/
abbrev ConsoleWorld (T : Type) : Type :=
  World (storeSignature consoleSchema) T
    (SharedStore consoleSchema T) ConsoleRequest Thrown ConsoleResponse

/-- The server of the console. -/
abbrev console {T : Type} [DecidableEq T] (uuid : UuidText) (supply : ℕ → Uuid × ℤ) :
    Server (storeSignature consoleSchema) T
      (SharedStore consoleSchema T) ConsoleRequest Thrown ConsoleResponse :=
  storeServer supply otherCommits (ConsoleRequest.program uuid)

/-- A database with its primary keys, in which no row has an id that is still to be drawn. -/
structure Settled (supply : ℕ → Uuid × ℤ) (db : Store consoleSchema) : Prop where
  keyed : db.Keyed
  undrawn : ∀ τ, ∀ r ∈ db τ, ∀ n, consoleRowId τ r ≠ (supply n).1

section Runs

variable {T : Type} [DecidableEq T] {uuid : UuidText} {supply : ℕ → Uuid × ℤ}
  {db : Store consoleSchema} {w w₁ : ConsoleWorld T}

theorem Settled.kept_of_run (hdb : Settled supply db)
    (hdistinct : Function.Injective fun n => (supply n).1)
    (hrun : Runs (World.Step (console uuid supply)) anyStep
      (World.fresh (SharedStore.initial T db)) w) :
    ConsoleEvolves db w.shared.store ∧ ∃ L, (charter (Owned db)).Kept supply w L :=
  Charter.kept_run hdistinct charter_lawful (follows_program uuid) ⟨hdb.keyed, id⟩ hdb.undrawn hrun

end Runs

/-- A salon and its owner. -/
def sampleConsole : Store consoleSchema
  | .tenants => [{ id := 1, createdAt := 0, name := "Salon", slug := "salon", timezone := "UTC",
                   status := .active }]
  | .memberships => [{ userId := 7, tenantId := 1, role := .owner, id := 2 }]
  | _ => []

/-- Ids from 100 on. -/
def consoleSupply (n : ℕ) : Uuid × ℤ := (100 + n, n)

theorem consoleSupply_injective : Function.Injective fun n => (consoleSupply n).1 :=
  fun _ _ h => Nat.add_left_cancel h

theorem sampleConsole_owned : Owned sampleConsole := by
  unfold Owned
  decide

theorem sampleConsole_settled : Settled consoleSupply sampleConsole := by
  have hlow : ∀ τ, ∀ r ∈ sampleConsole τ, consoleRowId τ r < 100 := by
    intro τ
    cases τ <;> decide
  refine ⟨fun τ => ?_, fun τ r hr n => ?_⟩
  · cases τ <;> decide
  · exact Nat.ne_of_lt ((hlow τ r hr).trans_le (Nat.le_add_right 100 n))

/-- However console requests are interleaved, and whichever of them fail or die: a step only appends
to the audit log, every record that it appends is the one of the request that commits, and if it
changes the status of a tenant, then it appends the record of that change. -/
theorem statusChange_audited {T : Type} [DecidableEq T] (uuid : UuidText) (supply : ℕ → Uuid × ℤ)
    (hdistinct : Function.Injective fun n => (supply n).1) (db : Store consoleSchema)
    (hdb : Settled supply db) (w w₁ : ConsoleWorld T)
    (hrun : Runs (World.Step (console uuid supply)) anyStep
      (World.fresh (SharedStore.initial T db)) w)
    (l : Label (storeSignature consoleSchema) T ConsoleRequest)
    (hstep : World.Step (console uuid supply) w l w₁) :
    ∃ records, w₁.shared.store .adminAuditLogs = w.shared.store .adminAuditLogs ++ records ∧
      (∀ a ∈ records, ∃ t σ, l = .call t ⟨.commit, .ok ()⟩ ∧ w.session t = some σ ∧
        σ.request.entry? = some a.toAuditEntry) ∧
      ∀ r ∈ w.shared.store .tenants, ∀ r₁ ∈ w₁.shared.store .tenants, r₁.id = r.id →
        r₁.status ≠ r.status →
        ∃ t σ c, l = .call t ⟨.commit, .ok ()⟩ ∧ w.session t = some σ ∧ σ.request.change? = some c ∧
          c.tenantId = r.id ∧ r₁ = { r with status := c.status } ∧
          ∃ a ∈ records, a.toAuditEntry = c.entry := by
  obtain ⟨-, L, hkept⟩ := hdb.kept_of_run hdistinct hrun
  have hholds : ConsoleHolds (Owned db) w.shared.store := hkept.holds
  rcases hkept.commit_cases hstep with hsame | ⟨t, σ, hat, rfl, hmay, hstore,
    hgrown⟩ | ⟨c, hc, hstore⟩
  · -- nothing is committed
    refine ⟨[], by rw [hsame, List.append_nil], fun a ha => absurd ha List.not_mem_nil, ?_⟩
    intro r hr r₁ hr₁ hid hstatus
    rw [hsame] at hr₁
    exact absurd (congrArg Tenant.status (hholds.eq_of_id hr₁ hr hid)) hstatus
  · -- a request of the console commits
    have hcloses : Closes σ.request (L t) := hmay.permits
    refine ⟨_, hgrown .adminAuditLogs (.inr rfl), fun a ha =>
      ⟨t, σ, rfl, hat, hcloses.records a ha⟩, ?_⟩
    intro r hr r₁ hr₁ hid hstatus
    rw [hstore] at hr₁
    rcases Store.mem_applyAll hr₁ with hr₁ | hput
    · exact absurd (congrArg Tenant.status (hholds.eq_of_id hr₁ hr hid)) hstatus
    · have hnew : ∀ i ∈ (L t).inserted, ∀ r ∈ w.shared.store .tenants, r.id ≠ i :=
        fun i hi => hkept.minted.stored t i hi .tenants
      obtain ⟨c, hchange, htenant, heq, hrecord⟩ :=
        hcloses.tenant_of_put hholds (hkept.past t) hnew hr hid (mem_rowsIn.2 hput)
      exact ⟨t, σ, c, rfl, hat, hchange, htenant, heq, hrecord⟩
  · -- another part of the platform commits
    have hlog : w.shared.store.apply c .adminAuditLogs = w.shared.store .adminAuditLogs := by
      apply Store.apply_of_ne
      intro htable
      rcases Change.cases_of_table htable with ⟨r, rfl⟩ | ⟨i, rfl⟩
      · exact hc
      · exact hc
    refine ⟨[], by rw [hstore, hlog, List.append_nil], fun a ha => absurd ha List.not_mem_nil, ?_⟩
    intro r hr r₁ hr₁ hid hstatus
    rw [hstore, otherCommits_tenants hc] at hr₁
    exact absurd (congrArg Tenant.status (hholds.eq_of_id hr₁ hr hid)) hstatus

/-- A request of the console after its first `n` statements. -/
def afterStatements (q : ConsoleRequest) (n : ℕ) :
    ConsoleM ConsoleResponse × Machine consoleSchema :=
  (q.program sampleUuid).advance (Machine.step consoleSupply) n ⟨sampleConsole, .idle, 0⟩

theorem exists_run_afterStatements (q : ConsoleRequest) (n : ℕ) :
    ∃ (w : ConsoleWorld Unit) (tr : List (Exchange (storeSignature consoleSchema))),
      Runs (World.Step (console sampleUuid consoleSupply)) anyStep
        (World.fresh (SharedStore.initial Unit sampleConsole)) w ∧
      w.shared = (SharedStore.initial Unit sampleConsole).left () (afterStatements q n).2 ∧
      w.session () = some ⟨q, (afterStatements q n).1, tr⟩ :=
  exists_run_of_advance q n rfl

/-- The salon is suspended with the fifth statement. -/
theorem statusChange_audited_suspended :
    ∃ w w₁ : ConsoleWorld Unit, (w₁.shared.store .tenants).map (·.status) = [.suspended] ∧
      ∃ records, w₁.shared.store .adminAuditLogs = w.shared.store .adminAuditLogs ++ records ∧
        ∀ r ∈ w.shared.store .tenants, ∀ r₁ ∈ w₁.shared.store .tenants, r₁.id = r.id →
          r₁.status ≠ r.status →
          ∃ a ∈ records, a.toAuditEntry = ⟨9, .tenantSuspend, r.id, none⟩ := by
  -- after four statements the `COMMIT` is next
  obtain ⟨w, tr, hrun, hshared, hat⟩ := exists_run_afterStatements (.suspend 9 1 none) 4
  obtain ⟨w₁, hstep, hstore⟩ : ∃ w₁,
      World.Step (console sampleUuid consoleSupply) w (.call () ⟨.commit, .ok ()⟩) w₁ ∧
      w₁.shared.store = (w.shared.tx ()).committed w.shared.store .commit (.ok ()) :=
    ⟨_, .call (Except.ok ()) hat (Or.inl rfl), rfl⟩
  obtain ⟨records, hlog, -, hchanges⟩ :=
    statusChange_audited sampleUuid consoleSupply consoleSupply_injective
    sampleConsole sampleConsole_settled w w₁ hrun _ hstep
  refine ⟨w, w₁, ?_, records, hlog, fun r hr r₁ hr₁ hid hstatus => ?_⟩
  · rw [hstore, hshared]
    decide +kernel
  · obtain ⟨t, σ, c, hl, hσ, hchange, htenant, -, a, ha, hentry⟩ := hchanges r hr r₁ hr₁ hid hstatus
    cases hl
    rw [hat] at hσ
    cases hσ
    cases hchange
    exact ⟨a, ha, by rw [hentry, ← htenant]; rfl⟩

/-- In every such run each tenant has an owner, and keeps everything but its status. -/
theorem tenants_owned {T : Type} [DecidableEq T] (uuid : UuidText) (supply : ℕ → Uuid × ℤ)
    (hdistinct : Function.Injective fun n => (supply n).1) (db : Store consoleSchema)
    (hdb : Settled supply db) (howned : Owned db) (w : ConsoleWorld T)
    (hrun : Runs (World.Step (console uuid supply)) anyStep
      (World.fresh (SharedStore.initial T db)) w) :
    (∀ r ∈ w.shared.store .tenants, ∃ m ∈ w.shared.store .memberships, m.tenantId = r.id ∧
      m.role = .owner) ∧
      ∀ r ∈ db .tenants, ∃ r' ∈ w.shared.store .tenants, r' = { r with status := r'.status } := by
  obtain ⟨hevolves, L, hkept⟩ := hdb.kept_of_run hdistinct hrun
  have hholds : ConsoleHolds (Owned db) w.shared.store := hkept.holds
  exact ⟨hholds.owned howned, hevolves.tenants⟩

/-- A second salon gets its owner. -/
theorem tenants_owned_onboarded :
    ∃ w : ConsoleWorld Unit, (w.shared.store .tenants).map (·.slug) = ["salon", "spa"] ∧
      ∀ r ∈ w.shared.store .tenants, ∃ m ∈ w.shared.store .memberships, m.tenantId = r.id ∧
        m.role = .owner := by
  obtain ⟨w, tr, hrun, hshared, -⟩ := exists_run_afterStatements (.onboard 8 ⟨"Spa", "spa", none⟩) 3
  refine ⟨w, ?_, (tenants_owned sampleUuid consoleSupply consoleSupply_injective sampleConsole
    sampleConsole_settled sampleConsole_owned w hrun).1⟩
  rw [hshared]
  decide +kernel

/-- A subscription is only ever read by a super-admin who looks at its tenant, when the record of
that is committed. -/
theorem subscription_read_recorded {T : Type} [DecidableEq T] (uuid : UuidText)
    (supply : ℕ → Uuid × ℤ) (hdistinct : Function.Injective fun n => (supply n).1)
    (db : Store consoleSchema) (hdb : Settled supply db) (w w₁ : ConsoleWorld T)
    (hrun : Runs (World.Step (console uuid supply)) anyStep
      (World.fresh (SharedStore.initial T db)) w)
    (t : T) (p : SubscriptionRow → Bool) (a : Except SqlState (List SubscriptionRow))
    (hstep : World.Step (console uuid supply) w (.call t ⟨.select .subscriptions p, a⟩) w₁) :
    ∃ σ actorUserId tenantId, w.session t = some σ ∧
      σ.request = .tenantDetail actorUserId tenantId ∧
      (∀ r, p r = true → r.tenantId = tenantId) ∧
      ∃ record ∈ w.shared.store .adminAuditLogs,
        record.toAuditEntry = viewEntry actorUserId tenantId := by
  obtain ⟨-, L, hkept⟩ := hdb.kept_of_run hdistinct hrun
  cases hstep with
  | call _ hat _ =>
    have hmay : May _ (L t) (.select .subscriptions p) := hkept.may hat
    obtain ⟨actorUserId, tenantId, rfl, hp, record, hrecord, hentry⟩ := hmay.permits
    exact ⟨_, actorUserId, tenantId, hat, rfl, hp, record,
      hkept.committed t .adminAuditLogs (.inr rfl) record hrecord, hentry⟩

/-- A super-admin looks at the salon: the subscription is read with the fifth statement. -/
theorem subscription_read_recorded_salon :
    ∃ (w w₁ : ConsoleWorld Unit) (p : SubscriptionRow → Bool)
      (a : Except SqlState (List SubscriptionRow)),
      World.Step (console sampleUuid consoleSupply) w (.call () ⟨.select .subscriptions p, a⟩) w₁ ∧
      ∃ record ∈ w.shared.store .adminAuditLogs, record.toAuditEntry = viewEntry 9 1 := by
  obtain ⟨w, tr, hrun, -, hat⟩ := exists_run_afterStatements (.tenantDetail 9 1) 4
  obtain ⟨w₁, a, hstep⟩ : ∃ w₁ a, World.Step (console sampleUuid consoleSupply) w
      (.call () ⟨.select .subscriptions fun r => r.tenantId = 1, a⟩) w₁ :=
        ⟨_, _, .call _ hat (Or.inl rfl)⟩
  obtain ⟨σ, actorUserId, tenantId, hσ, hrequest, -, hrecord⟩ :=
    subscription_read_recorded sampleUuid
    consoleSupply consoleSupply_injective sampleConsole sampleConsole_settled w w₁ hrun () _ a hstep
  rw [hat] at hσ
  cases hσ
  cases hrequest
  exact ⟨w, w₁, _, a, hstep, hrecord⟩

end BookingPlatform.Console
