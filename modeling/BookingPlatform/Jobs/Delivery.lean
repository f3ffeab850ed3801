import BookingPlatform.Jobs.Workers

/-!
# Deliveries of the Workers

Any number of jobs, while everything else changes the tables and the network answers as it likes.
What a worker sends depends on what it has read and on nothing else, and so it stays within the
tenant of the job.

## Main definitions

- `Posts`, `Mails`: what has to be seen before something is sent.
- `Handed`: the event of a job has been handed over, or nobody wants it.

## Main results

- `posts_confined`: a webhook is posted to the tenant's own endpoint, signed, and not into the
  internal network.
- `webhook_done_iff`: a webhook job is done exactly if its event has been handed over, or nobody
  wanted it while the job was under way.
- `mails_confined`: a mail goes to the customer of the job's tenant.
-/

namespace BookingPlatform

open Library WorkerM

/-! ## What has to be seen before something is sent -/

/-- The URL has passed the check at delivery, on the addresses that the resolver has answered. -/
def Checked (urls : UrlRuntime) (tr : List (Exchange WorkerCalls)) (raw : String) : Prop :=
  ∃ lookup url, WebhookUrl.assertSafeWebhookUrl urls lookup raw = .ok url ∧
    ∀ host addresses, lookup host = .ok addresses → ⟨.lookup host, .ok addresses⟩ ∈ tr

/-- The request is the first of a job, for the endpoint that has been read. -/
structure Posts (rt : WorkerRuntime) (job : WebhookJob) (e : WebhookEndpoint)
    (tr : List (Exchange WorkerCalls)) (r : HttpRequest) : Prop where
  read : ⟨.activeEndpoint job.tenantId, .ok (some e)⟩ ∈ tr
  first : ∀ r' x, ⟨.fetch r', x⟩ ∉ tr
  checked : Checked rt.urls tr e.url
  request : ∃ now, ⟨.now, .ok now⟩ ∈ tr ∧
    r = WebhookService.deliveryRequest rt e.url e.secret job.payload now

/-- Where the address of a job comes from. -/
def AddressOf (tr : List (Exchange WorkerCalls)) : EmailJob → String → Prop
  | .welcome _ email, recipient => recipient = email
  | .invite email .., recipient => recipient = email
  | .booking data, recipient => ∃ c : CustomerRow,
      ⟨.findCustomer data.tenantId data.customerId, .ok (some c)⟩ ∈ tr ∧ recipient = c.email

/-- The mail is the first of a job. -/
structure Mails (job : EmailJob) (tr : List (Exchange WorkerCalls)) (m : MailMessage) : Prop where
  addressed : AddressOf tr job m.recipient
  nonempty : m.recipient ≠ ""
  first : ∀ m' x, ⟨.sendMail m', x⟩ ∉ tr
  content : (m.subject, m.html) = renderEmail job

/-- What a worker may send. -/
def MaySend (rt : WorkerRuntime) (q : WorkerJob) (tr : List (Exchange WorkerCalls)) :
    WorkerCall → Prop
  | .fetch r => ∃ job e, q = .webhook job ∧ Posts rt job e tr r
  | .sendMail m => ∃ job, q = .email job ∧ Mails job tr m
  | _ => True

/-- The discipline of the workers. -/
abbrev sending (rt : WorkerRuntime) : Protocol WorkerCalls (History WorkerCalls WorkerJob) :=
  history (MaySend rt) fun _ _ => True

/-- A response that is a success. -/
def Acknowledged (tr : List (Exchange WorkerCalls)) : Prop :=
  ∃ r status, ⟨.fetch r, .ok status⟩ ∈ tr ∧ 200 ≤ status ∧ status ≤ 299

/-- The event of a job has been handed over, or its tenant has no endpoint. -/
def Handed (job : WebhookJob) (tr : List (Exchange WorkerCalls)) : Prop :=
  ⟨.activeEndpoint job.tenantId, .ok none⟩ ∈ tr ∨ Acknowledged tr

/-- The condition at the end of a job. -/
def jobEnds (h : History WorkerCalls WorkerJob) (r : Except Thrown Unit) : Prop :=
  ∀ job, h.request = some (.webhook job) → (r = .ok () ↔ Handed job h.trace)

/-! ## One call -/

section Calls

variable {Φ α : Type} {P : Protocol WorkerCalls Φ} {ph : Φ}

theorem follows_external {s : WorkerCall} {post : Φ → Except Thrown s.Result → Prop} :
    (external s).Follows P post ph ↔
      P.Issues ph s fun ph' x => match x with
        | .ok v => post ph' (.ok v)
        | .error message => post ph' (.error (.error message)) := by
  apply Protocol.issues_congr
  intro ph' x
  cases x <;> exact Iff.rfl

theorem follows_external_bind {s : WorkerCall} {f : s.Result → WorkerM α}
    {post : Φ → Except Thrown α → Prop} :
    (external s >>= f).Follows P post ph ↔
      P.Issues ph s fun ph' x => match x with
        | .ok v => (f v).Follows P post ph'
        | .error message => post ph' (.error (.error message)) := by
  apply Protocol.issues_congr
  intro ph' x
  cases x <;> exact Iff.rfl

end Calls

/-! ## Deliveries -/

section Deliveries

variable {rt : WorkerRuntime} {q : WorkerJob} {tr : List (Exchange WorkerCalls)}

/-- Exchanges with the resolver. -/
def Lookups (tr : List (Exchange WorkerCalls)) : Prop := ∀ x ∈ tr, ∃ host a, x = ⟨.lookup host, a⟩

theorem Checked.append {urls : UrlRuntime} {raw : String} (h : Checked urls tr raw)
    (tr' : List (Exchange WorkerCalls)) :
    Checked urls (tr ++ tr') raw := by
  obtain ⟨lookup, url, hsafe, hlookup⟩ := h
  exact ⟨lookup, url, hsafe, fun host addresses h =>
    List.mem_append_left _ (hlookup host addresses h)⟩

theorem assertSafe_of_literal {urls : UrlRuntime} {lookup : String → Except Thrown (List String)}
    {raw : String} {url : Url} (hvalid : WebhookUrl.validateWebhookUrl urls raw = .ok url)
    (hliteral : urls.isIP url.host ≠ 0) :
    WebhookUrl.assertSafeWebhookUrl urls lookup raw = .ok url := by
  unfold WebhookUrl.assertSafeWebhookUrl
  rw [hvalid]
  exact if_pos hliteral

theorem assertSafe_of_lookup {urls : UrlRuntime} {lookup : String → Except Thrown (List String)}
    {raw : String} {url : Url} {addresses : List String}
    (hvalid : WebhookUrl.validateWebhookUrl urls raw = .ok url) (hname : ¬urls.isIP url.host ≠ 0)
    (hlookup : lookup url.host = .ok addresses)
    (hopen : ¬(addresses.length = 0 || addresses.any (WebhookUrl.isBlockedIp urls)) = true) :
    WebhookUrl.assertSafeWebhookUrl urls lookup raw = .ok url := by
  unfold WebhookUrl.assertSafeWebhookUrl
  rw [hvalid]
  show (if urls.isIP url.host ≠ 0 then _ else _) = _
  rw [if_neg hname, hlookup]
  exact if_neg hopen

/-- A URL that is found safe is one that the check finds safe with the addresses that have been
answered. -/
theorem assertSafe_sending (raw : String) :
    (WebhookService.assertSafe rt raw).Follows (sending rt) (fun h r =>
      ∃ looked, h = ⟨some q, tr ++ looked⟩ ∧ Lookups looked ∧
        ∀ url, r = .ok url → Checked rt.urls (tr ++ looked) raw) ⟨some q, tr⟩ := by
  have hnone : ∀ (r : Except Thrown Url) (_ : ∀ url, r = .ok url → Checked rt.urls tr raw),
      ∃ looked, (⟨some q, tr⟩ : History WorkerCalls WorkerJob) = ⟨some q, tr ++ looked⟩ ∧
        Lookups looked ∧
        ∀ url, r = .ok url → Checked rt.urls (tr ++ looked) raw := by
    intro r hr
    refine ⟨[], by rw [List.append_nil], fun x hx => absurd hx List.not_mem_nil, ?_⟩
    rwa [List.append_nil]
  unfold WebhookService.assertSafe
  cases hvalid : WebhookUrl.validateWebhookUrl rt.urls raw with
  | error e => exact hnone (.error e) fun url h => by cases h
  | ok url =>
    show Prog.Follows _ _ (if rt.urls.isIP url.host ≠ 0 then _ else _) _
    by_cases hliteral : rt.urls.isIP url.host ≠ 0
    · rw [if_pos hliteral]
      apply hnone (.ok url)
      intro _ _
      exact ⟨fun _ => .error (.error ""), url, assertSafe_of_literal hvalid hliteral,
        fun host addresses h => by cases h⟩
    · rw [if_neg hliteral]
      apply follows_external_bind.2
      apply issues_history trivial
      intro x _
      have hlooked : Lookups [⟨.lookup url.host, x⟩] := by
        intro y hy
        exact ⟨url.host, x, List.mem_singleton.1 hy⟩
      cases x with
      | error message => exact ⟨_, rfl, hlooked, fun url h => by cases h⟩
      | ok addresses =>
        by_cases hblocked : (addresses.length = 0 ||
          addresses.any (WebhookUrl.isBlockedIp rt.urls)) = true
        · simp only [hblocked, ↓reduceIte]
          exact ⟨_, rfl, hlooked, fun url h => by cases h⟩
        · simp only [hblocked]
          refine ⟨_, rfl, hlooked, fun _ _ => ?_⟩
          -- the resolver is asked for the host, and for nothing else
          let lookup : String → Except Thrown (List String) :=
            fun host => if host = url.host then .ok addresses else .error (.error "")
          refine ⟨lookup, url, assertSafe_of_lookup hvalid hliteral (if_pos rfl) hblocked, ?_⟩
          intro host addresses' h
          by_cases hhost : host = url.host
          · subst hhost
            obtain rfl := Except.ok.inj ((if_pos rfl).symm.trans h)
            exact List.mem_append_right _ (List.mem_singleton_self _)
          · cases (if_neg hhost).symm.trans h

theorem jobEnds_error {job : WebhookJob} {error : Thrown} (h : ¬Handed job tr) :
    jobEnds ⟨some (.webhook job), tr⟩ (.error error) := by
  intro job' hjob'
  cases hjob'
  exact iff_of_false (fun h => by cases h) h

theorem jobEnds_ok {job : WebhookJob} (h : Handed job tr) :
    jobEnds ⟨some (.webhook job), tr⟩ (.ok ()) := by
  intro job' hjob'
  cases hjob'
  exact iff_of_true rfl h

/-- An exchange that does not hand the event of a job over. -/
def Fruitless (job : WebhookJob) (x : Exchange WorkerCalls) : Prop :=
  x ≠ ⟨.activeEndpoint job.tenantId, .ok none⟩ ∧
    ∀ r status, 200 ≤ status ∧ status ≤ 299 → x ≠ ⟨.fetch r, .ok status⟩

theorem not_handed {job : WebhookJob} (h : ∀ x ∈ tr, Fruitless job x) : ¬Handed job tr := by
  rintro (hgone | ⟨r, status, hmem, hsuccess⟩)
  · exact (h _ hgone).1 rfl
  · exact (h _ hmem).2 r status hsuccess rfl

theorem fruitless_append {job : WebhookJob} {x : Exchange WorkerCalls}
    (h : ∀ y ∈ tr, Fruitless job y) (hx : Fruitless job x) : ∀ y ∈ tr ++ [x], Fruitless job y := by
  intro y hy
  rcases List.mem_append.1 hy with hy | hy
  · exact h y hy
  · obtain rfl := List.mem_singleton.1 hy
    exact hx

theorem fruitless_read (job : WebhookJob) {a : Except SqlState (Option WebhookEndpoint)}
    (h : a ≠ .ok none) :
    Fruitless job ⟨.activeEndpoint job.tenantId, a⟩ := by
  constructor
  · simpa using h
  · simp

theorem fruitless_lookup (job : WebhookJob) (host : String) (a : Except SqlState (List String)) :
    Fruitless job ⟨.lookup host, a⟩ := by
  constructor
  · simp
  · simp

theorem fruitless_now (job : WebhookJob) (a : Except SqlState Instant) :
    Fruitless job ⟨.now, a⟩ := by
  constructor
  · simp
  · simp

theorem fruitless_fetch (job : WebhookJob) (r : HttpRequest) {a : Except SqlState ℕ}
    (h : ∀ status, a = .ok status → ¬(200 ≤ status ∧ status ≤ 299)) :
    Fruitless job ⟨.fetch r, a⟩ := by
  constructor
  · simp
  · intro r' status hsuccess heq
    cases heq
    exact h status rfl hsuccess

/-- Nothing is handed over before the URL of the endpoint has been checked. -/
theorem fruitless_checks (job : WebhookJob) (e : WebhookEndpoint)
    (h : ∀ x ∈ tr, ∃ host a, x = ⟨.lookup host, a⟩) :
    ∀ x ∈ [⟨.activeEndpoint job.tenantId, .ok (some e)⟩] ++ tr, Fruitless job x := by
  intro x hx
  rcases List.mem_append.1 hx with hx | hx
  · obtain rfl := List.mem_singleton.1 hx
    exact fruitless_read job (by simp)
  · obtain ⟨host, a, rfl⟩ := h x hx
    exact fruitless_lookup job host a

/-- The delivery of an event, after the endpoint has been read. -/
theorem deliver_sending (job : WebhookJob) (e : WebhookEndpoint) :
    (WebhookService.deliver rt e.url e.secret job.payload).Follows (sending rt) jobEnds
      ⟨some (.webhook job), [⟨.activeEndpoint job.tenantId, .ok (some e)⟩]⟩ := by
  apply Prog.follows_bind.2
  apply (assertSafe_sending e.url).mono
  rintro h r ⟨looked, rfl, hlooked, hchecked⟩
  have hnoFetch : ∀ r' x, (⟨.fetch r', x⟩ : Exchange WorkerCalls) ∉ looked := by
    intro r' x hmem
    obtain ⟨host, a, heq⟩ := hlooked _ hmem
    cases heq
  have hbefore := fruitless_checks job e hlooked
  cases r with
  | error error => exact jobEnds_error (not_handed hbefore)
  | ok url =>
    apply follows_execSql_bind.2
    apply issues_history trivial
    intro x _
    have htimed := fruitless_append hbefore (fruitless_now job x)
    cases x with
    | error code => exact jobEnds_error (not_handed htimed)
    | ok now =>
      apply follows_external_bind.2
      apply issues_history
      · refine ⟨job, e, rfl, ?_, ?_, ?_, now, ?_, rfl⟩
        · simp
        · simpa using hnoFetch
        · exact (hchecked url rfl).append _
        · simp
      · intro x _
        cases x with
        | error message =>
          apply jobEnds_error
          apply not_handed
          apply fruitless_append htimed
          exact fruitless_fetch job _ fun status h => by cases h
        | ok status =>
          -- `response.ok`
          by_cases hsuccess : 200 ≤ status ∧ status ≤ 299
          · simp only [hsuccess, and_self, ↓reduceIte]
            apply jobEnds_ok
            exact .inr ⟨_, status, List.mem_append_right _ (List.mem_singleton_self _), hsuccess⟩
          · simp only [hsuccess, ↓reduceIte]
            apply jobEnds_error
            apply not_handed
            apply fruitless_append htimed
            apply fruitless_fetch job
            intro status' h
            obtain rfl := Except.ok.inj h
            exact hsuccess

theorem webhookWorker_sending (job : WebhookJob) :
    (webhookWorker rt job).Follows (sending rt) jobEnds (.start (.webhook job)) := by
  apply follows_execSql_bind.2
  apply issues_history trivial
  intro x _
  cases x with
  -- the read has failed: nothing is sent, and the job fails
  | error code =>
    apply jobEnds_error
    apply not_handed
    intro y hy
    obtain rfl := List.mem_singleton.1 hy
    exact fruitless_read job (by simp)
  | ok found =>
    cases found with
    -- nobody wants the event
    | none => exact jobEnds_ok (.inl (List.mem_singleton_self _))
    | some e => exact deliver_sending job e

end Deliveries

/-! ## Mails -/

section Mail

variable {rt : WorkerRuntime}

/-- Email jobs are not asked whether they are done. -/
theorem jobEnds_email {job : EmailJob} {tr : List (Exchange WorkerCalls)} (r : Except Thrown Unit) :
    jobEnds ⟨some (.email job), tr⟩ r := by
  intro job' hjob'
  cases hjob'

/-- A mail to the recipient of a job. -/
theorem send_sending {job : EmailJob} {tr : List (Exchange WorkerCalls)} {recipient : String}
    (haddressed : AddressOf tr job recipient) (hfirst : ∀ m' x, ⟨.sendMail m', x⟩ ∉ tr) :
    (if recipient = "" then return ()
      else MailService.send rt ⟨recipient, (renderEmail job).1, (renderEmail job).2⟩ :
        WorkerM Unit).Follows (sending rt) jobEnds ⟨some (.email job), tr⟩ := by
  -- no recipient, no mail
  by_cases hempty : recipient = ""
  · rw [if_pos hempty]
    exact jobEnds_email _
  · rw [if_neg hempty]
    unfold MailService.send
    -- without a mail server the mail is written to the log
    by_cases hconfigured : rt.mailConfigured = true
    · rw [if_pos hconfigured]
      apply follows_external.2
      apply issues_history
      · exact ⟨job, rfl, haddressed, hempty, hfirst, rfl⟩
      · intro x _
        cases x with
        | ok v => exact jobEnds_email _
        | error message => exact jobEnds_email _
    · rw [if_neg hconfigured]
      exact jobEnds_email _

theorem emailWorker_sending (job : EmailJob) :
    (emailWorker rt job).Follows (sending rt) jobEnds (.start (.email job)) := by
  cases job with
  | welcome userId email => exact send_sending rfl fun _ _ => List.not_mem_nil
  | invite email tenantName role acceptUrl => exact send_sending rfl fun _ _ => List.not_mem_nil
  | booking data =>
    apply Prog.follows_bind.2
    -- a customer who is not found is caught, and the recipient is empty then
    apply Prog.follows_tryCatch.2
    apply Prog.follows_bind.2
    apply follows_execSql_bind.2
    apply issues_history trivial
    intro x _
    cases x with
    | error code => exact jobEnds_email _
    | ok found =>
      cases found with
      | none => exact jobEnds_email _
      | some c =>
        apply send_sending
        · exact ⟨c, List.mem_singleton_self _, rfl⟩
        · intro m' x
          simp

/-- Every job keeps to the discipline. -/
theorem follows_sending (rt : WorkerRuntime) (q : WorkerJob) :
    (runJob rt q).Follows (sending rt) jobEnds (.start q) := by
  cases q with
  | webhook job => exact webhookWorker_sending job
  | email job => exact emailWorker_sending job

end Mail

/-! ## Runs -/

/-- The receiver of a request can check with the secret that it has been signed. -/
def Signed (rt : SignatureRuntime) (secret : String) (r : HttpRequest) : Prop :=
  ∃ timestamp signature, r.header "x-webhook-timestamp" = some timestamp ∧
    r.header "x-webhook-signature" = some signature ∧
    WebhookSignature.verifyWebhook rt secret (timestamp ++ "." ++ r.body) signature = .ok true

/-- A signature verifies. -/
theorem verifyWebhook_sign (rt : SignatureRuntime) (secret content : String) :
    WebhookSignature.verifyWebhook rt secret content
      ("sha256=" ++ WebhookSignature.signWebhook rt secret content) =
      .ok true := by
  let d := rt.hmac secret content
  have hsignature : IsSignature d.text ("sha256=" ++ d.text) := .inr rfl
  have hreadable : ¬Overlong (stripPrefix "sha256=" ("sha256=" ++ d.text)) := by
    rw [(stripPrefix_eq_iff d _).2 hsignature]
    exact d.not_overlong
  obtain ⟨b, hb, htrue⟩ := (verifyDigest_decides_iff d).2 hreadable
  rw [htrue.2 hsignature] at hb
  exact hb

theorem deliveryRequest_signed (rt : WorkerRuntime) (url secret : String) (payload : WebhookPayload)
    (now : Instant) :
    Signed rt.signatures secret (WebhookService.deliveryRequest rt url secret payload now) :=
  ⟨toString (now / 1000), _, rfl, rfl, verifyWebhook_sign _ _ _⟩

/-- A URL that is found safe has been parsed. -/
theorem parseUrl_of_assertSafe {urls : UrlRuntime} {lookup : String → Except Thrown (List String)}
    {raw : String} {url : Url} (h : WebhookUrl.assertSafeWebhookUrl urls lookup raw = .ok url) :
    urls.parseUrl raw = some url := by
  unfold WebhookUrl.assertSafeWebhookUrl at h
  cases hvalid : WebhookUrl.validateWebhookUrl urls raw with
  | error e =>
    rw [hvalid] at h
    cases h
  | ok valid =>
    have hparse := (WebhookUrl.validateWebhookUrl_ok hvalid).1
    rw [hvalid] at h
    change (if urls.isIP valid.host ≠ 0 then _ else _) = _ at h
    -- a literal address, or a name that has been looked up: either way it is the parsed URL
    split at h
    · obtain rfl := Except.ok.inj h
      exact hparse
    · cases hlookup : lookup valid.host with
      | error e =>
        rw [hlookup] at h
        cases h
      | ok addresses =>
        rw [hlookup] at h
        change (if addresses.length = 0 ||
          addresses.any (WebhookUrl.isBlockedIp urls) then _ else _) = _ at h
        split at h
        · cases h
        · obtain rfl := Except.ok.inj h
          exact hparse

section Runs

variable {T : Type} [DecidableEq T] (rt : WorkerRuntime)

/-- A request of a job that is about to be sent, after the exchanges `tr`: it goes to an endpoint
that was the tenant's while the job was under way, it can be verified, and its target is safe with
the addresses that the resolver has answered to this job. Nothing else has been sent in this attempt
of the job. -/
structure PostConfined (db : Store platformSchema) (w : WorkerWorld T) (t : T) (job : WebhookJob)
    (e : WebhookEndpoint) (tr : List (Exchange WorkerCalls)) (r : HttpRequest) : Prop where
  owned : Meanwhile (workerServer rt) anyStep (World.fresh db) w t fun db =>
    e ∈ db .webhookEndpoints ∧ e.tenantId = job.tenantId ∧ e.active = true ∧ e.deletedAt = none
  url : r.url = e.url
  post : r.method = "POST" ∧ r.redirect = "error" ∧ r.body = rt.stringify job.payload
  signed : Signed rt.signatures e.secret r
  safe : ∃ lookup url, rt.urls.parseUrl e.url = some url ∧ WebhookUrl.Safe rt.urls lookup url ∧
    ∀ host addresses, lookup host = .ok addresses → ⟨.lookup host, .ok addresses⟩ ∈ tr
  first : ∀ r' x, ⟨.fetch r', x⟩ ∉ tr

variable {rt} {db : Store platformSchema} {w : WorkerWorld T} {t : T}
  {tr : List (Exchange WorkerCalls)}

/-- **Webhooks stay within their tenant.** Whatever is written to the tables in the meantime and
whatever the network answers, a request that a worker is about to send is confined. -/
theorem posts_confined (hrun : Runs (World.Step (workerServer rt)) anyStep (World.fresh db) w)
    {q : WorkerJob} {r : HttpRequest} {k : WorkerCalls.Ans (.fetch r) → WorkerM Unit}
    (hat : w.session t = some ⟨q, .call (.fetch r) k, tr⟩) :
    ∃ job e, q = .webhook job ∧ PostConfined rt db w t job e tr r := by
  obtain ⟨job, e, hq, hposts⟩ : MaySend rt q tr (.fetch r) :=
    allows_of_history (fun _ _ _ _ _ => trivial) (follows_sending rt) hrun hat
  obtain ⟨lookup, url, hsafe, hlookup⟩ := hposts.checked
  obtain ⟨now, -, hrequest⟩ := hposts.request
  -- what the worker has read was in the table at some moment of the job
  have hread := meanwhile_of_mem_trace rfl hrun hat hposts.read
  refine ⟨job, e, hq, ?_, ?_, ?_, ?_, ?_, hposts.first⟩
  · exact hread.mono fun db hpossible => mem_of_endpointOf (Eq.symm hpossible)
  · rw [hrequest]
    rfl
  · rw [hrequest]
    exact ⟨rfl, rfl, rfl⟩
  · rw [hrequest]
    exact deliveryRequest_signed rt e.url e.secret job.payload now
  · exact ⟨lookup, url, parseUrl_of_assertSafe hsafe,
      WebhookUrl.assertSafeWebhookUrl_ok hsafe, hlookup⟩

/-- **A job is done once somebody has its event.** A webhook job comes to its end without an error
exactly if its event has been accepted by a response or no endpoint was found. In the second case
its tenant had none, at some moment while the job was under way. -/
theorem webhook_done_iff (hrun : Runs (World.Step (workerServer rt)) anyStep (World.fresh db) w)
    {job : WebhookJob} {p : WorkerM Unit} {r : Except Thrown Unit}
    (hat : w.session t = some ⟨.webhook job, p, tr⟩) (hp : p.outcome = some r) :
    (r = .ok () ↔ Handed job tr) ∧
      (⟨.activeEndpoint job.tenantId, .ok none⟩ ∈ tr →
        Meanwhile (workerServer rt) anyStep (World.fresh db) w t fun db =>
          ∀ e ∈ db .webhookEndpoints, e.tenantId = job.tenantId → e.active = true →
            e.deletedAt ≠ none) := by
  constructor
  · exact ends_of_history (fun _ _ _ _ _ => trivial) (follows_sending rt) hrun hat hp job rfl
  · intro hread
    exact (meanwhile_of_mem_trace rfl hrun hat hread).mono fun db hpossible =>
      endpointOf_eq_none (Eq.symm hpossible)

/-- To whom the mail of a job may go. -/
def MailTo (rt : WorkerRuntime) (db : Store platformSchema) (w : WorkerWorld T) (t : T)
    (recipient : String) :
    EmailJob → Prop
  | .welcome _ email => recipient = email
  | .invite email .. => recipient = email
  | .booking data => Meanwhile (workerServer rt) anyStep (World.fresh db) w t fun db =>
      ∃ c ∈ db .customers, c.id = data.customerId ∧ c.tenantId = data.tenantId ∧
        c.deletedAt = none ∧
        c.email = recipient

/-- **Mails stay within their tenant.** The mail of a booking goes to the address that its customer,
of the tenant of the job, had while the job was under way; an attempt of a job sends one mail at
most. -/
theorem mails_confined (hrun : Runs (World.Step (workerServer rt)) anyStep (World.fresh db) w)
    {q : WorkerJob} {m : MailMessage} {k : WorkerCalls.Ans (.sendMail m) → WorkerM Unit}
    (hat : w.session t = some ⟨q, .call (.sendMail m) k, tr⟩) :
    ∃ job, q = .email job ∧ MailTo rt db w t m.recipient job ∧ m.recipient ≠ "" ∧
      (m.subject, m.html) = renderEmail job ∧ ∀ m' x, ⟨.sendMail m', x⟩ ∉ tr := by
  obtain ⟨job, hq, hmails⟩ : MaySend rt q tr (.sendMail m) :=
    allows_of_history (fun _ _ _ _ _ => trivial) (follows_sending rt) hrun hat
  refine ⟨job, hq, ?_, hmails.nonempty, hmails.content, hmails.first⟩
  have haddressed := hmails.addressed
  cases job with
  | welcome userId email => exact haddressed
  | invite email tenantName role acceptUrl => exact haddressed
  | booking data =>
    obtain ⟨c, hread, hrecipient⟩ := haddressed
    rw [MailTo]
    refine (meanwhile_of_mem_trace rfl hrun hat hread).mono fun db hpossible => ?_
    obtain ⟨hmem, hid, htenant, hlive⟩ := mem_of_customerOf (Eq.symm hpossible)
    exact ⟨c, hmem, hid, htenant, hlive, hrecipient.symm⟩

end Runs

/-! ## Computed runs -/

section Samples

/-- What is drawn for a call: the time, the addresses of a host, the status of a response. -/
structure Outside where
  time : Instant
  addresses : List String
  status : ℕ

/-- Jobs with computed answers. -/
def workerResponder {T : Type} (rt : WorkerRuntime) :
    Responder (workerServer (T := T) rt) Outside where
  answer c _ db
    | .activeEndpoint tenantId => some (.ok (endpointOf db tenantId))
    | .findCustomer tenantId id => some (.ok (customerOf db tenantId id))
    | .now => some (.ok c.time)
    | .lookup _ => some (.ok c.addresses)
    | .fetch _ => some (.ok c.status)
    | .sendMail _ => some (.ok ())
  sound c t db s x h := by
    cases s with
    | activeEndpoint tenantId =>
      cases h
      exact rfl
    | findCustomer tenantId id =>
      cases h
      exact rfl
    | _ =>
      cases h
      exact trivial

/-- Tenant 1 has an endpoint and a customer. -/
def hookedDb : Store platformSchema
  | .webhookEndpoints => [⟨1, 1, "https://example.com/hook", "secret", true, 0, none⟩]
  | .customers => [⟨⟨1⟩, 1, "Ann", "ann@example.com", none, none⟩]
  | _ => []

def sampleWorkers : WorkerRuntime :=
  ⟨sampleUrls, zeroRuntime, fun payload => payload.eventType, true⟩

def sampleWebhookJob : WebhookJob :=
  ⟨1, "booking.confirmed", "booking", 1, ⟨1, 1, 1, 1, 0, .confirmed⟩⟩

def sampleEmailJob : EmailJob := .booking ⟨"booking.confirmed", 1, 1, 1⟩

def publicHost : Outside := ⟨0, ["93.184.215.14"], 200⟩

/-- The call that a session is about to make. -/
def nextCall {T : Type} (w : WorkerWorld T) (t : T) : Option WorkerCall :=
  (w.session t).bind fun σ => match σ.prog with
    | .call s _ => some s
    | _ => none

theorem at_of_nextCall {T : Type} {w : WorkerWorld T} {t : T} {q : WorkerJob} {s : WorkerCall}
    (hrequest : (w.session t).map (·.request) = some q) (h : nextCall w t = some s) :
    ∃ k tr, w.session t = some ⟨q, .call s k, tr⟩ := by
  obtain ⟨⟨q', p, tr⟩, hat, hp⟩ := Option.bind_eq_some_iff.1 h
  rw [hat] at hrequest
  obtain rfl : q' = q := Option.some.inj hrequest
  cases p with
  | call s' k =>
    obtain rfl : s' = s := Option.some.inj hp
    exact ⟨k, tr, hat⟩
  | ret a => cases hp
  | raise e => cases hp

theorem posts_confined_sample :
    ∃ (w : WorkerWorld (Fin 2)) (r : HttpRequest) (e : WebhookEndpoint)
      (tr : List (Exchange WorkerCalls)),
      r.url = "https://example.com/hook" ∧
      PostConfined sampleWorkers hookedDb w 0 sampleWebhookJob e tr r := by
  let r :=
    WebhookService.deliveryRequest sampleWorkers "https://example.com/hook" "secret"
      sampleWebhookJob.payload 0
  obtain ⟨w, hrun, hw⟩ := (workerResponder sampleWorkers).exists_anyRun (World.fresh hookedDb)
    [.start (0 : Fin 2) (.webhook sampleWebhookJob), .go 0 publicHost, .go 0 publicHost,
      .go 0 publicHost] (fun w => (w.session 0).map (·.request) = some (.webhook sampleWebhookJob) ∧
      nextCall w 0 = some (.fetch r)) (by decide +kernel)
  obtain ⟨hrequest, hnext⟩ := of_decide_eq_true hw
  obtain ⟨k, tr, hat⟩ := at_of_nextCall hrequest hnext
  obtain ⟨job, e, hjob, hconfined⟩ := posts_confined hrun hat
  cases hjob
  exact ⟨w, r, e, tr, rfl, hconfined⟩

theorem mails_confined_sample :
    ∃ w : WorkerWorld (Fin 2),
      MailTo sampleWorkers hookedDb w 0 "ann@example.com" sampleEmailJob := by
  let m : MailMessage := ⟨"ann@example.com", (renderEmail sampleEmailJob).1,
    (renderEmail sampleEmailJob).2⟩
  obtain ⟨w, hrun, hw⟩ := (workerResponder sampleWorkers).exists_anyRun (World.fresh hookedDb)
    [.start (0 : Fin 2) (.email sampleEmailJob), .go 0 publicHost]
    (fun w => (w.session 0).map (·.request) = some (.email sampleEmailJob) ∧
      nextCall w 0 = some (.sendMail m)) (by decide +kernel)
  obtain ⟨hrequest, hnext⟩ := of_decide_eq_true hw
  obtain ⟨k, tr, hat⟩ := at_of_nextCall hrequest hnext
  obtain ⟨job, hjob, hmail, -⟩ := mails_confined hrun hat
  cases hjob
  exact ⟨w, hmail⟩

/-- A session that has come to its end. -/
theorem at_of_outcome {T : Type} {w : WorkerWorld T} {t : T} {q : WorkerJob}
    {r : Except Thrown Unit} (hrequest : (w.session t).map (·.request) = some q)
    (h : (w.session t).bind (fun σ => σ.prog.outcome) = some r) :
    ∃ p tr, w.session t = some ⟨q, p, tr⟩ ∧ p.outcome = some r := by
  obtain ⟨⟨q', p, tr⟩, hat, hp⟩ := Option.bind_eq_some_iff.1 h
  rw [hat] at hrequest
  cases hrequest
  exact ⟨p, tr, hat, hp⟩

/-- A response of a server in trouble makes a job fail. -/
theorem webhook_done_iff_unavailable :
    ∃ (w : WorkerWorld (Fin 2)) (tr : List (Exchange WorkerCalls)),
      (w.session 0).map (·.trace) = some tr ∧ ¬Handed sampleWebhookJob tr := by
  obtain ⟨w, hrun, hw⟩ := (workerResponder sampleWorkers).exists_anyRun (World.fresh hookedDb)
    [.start (0 : Fin 2) (.webhook sampleWebhookJob), .go 0 publicHost, .go 0 publicHost,
      .go 0 publicHost, .go 0 { publicHost with status := 503 }]
    (fun w => (w.session 0).map (·.request) = some (.webhook sampleWebhookJob) ∧
      (w.session 0).bind (fun σ => σ.prog.outcome) = some (.error (.error "Webhook returned 503")))
    (by decide +kernel)
  obtain ⟨hrequest, houtcome⟩ := of_decide_eq_true hw
  obtain ⟨p, tr, hat, hp⟩ := at_of_outcome hrequest houtcome
  have hiff := (webhook_done_iff hrun hat hp).1
  refine ⟨w, tr, by rw [hat]; rfl, fun hhanded => ?_⟩
  cases hiff.2 hhanded

end Samples

end BookingPlatform
