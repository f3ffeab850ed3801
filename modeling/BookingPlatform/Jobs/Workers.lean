import BookingPlatform.Library.Observation
import BookingPlatform.Outbox.Service
import BookingPlatform.Payment.Signatures
import BookingPlatform.Platform.Billing
import BookingPlatform.Webhook.Url

/-!
# Workers

What the workers of the two queues do with a job. One posts the event of the job to the webhook
endpoint of its tenant, the other mails it to the customer. A worker reads the tables in a
transaction of the tenant, which is over before it calls anything outside.

## Main definitions

- `WebhookService.deliver`: the signed delivery of an event.
- `webhookWorker`, `emailWorker`: the workers.
- `workerServer`: any number of jobs over the tables of the platform and the network.
-/

namespace BookingPlatform

open Library BaseTenantRepository

/-! ## Messages -/

structure WebhookPayload where
  eventType : String
  aggregateType : String
  aggregateId : Uuid
  data : BookingPayload
  deriving DecidableEq, Repr

/-- What `fetch` sends. -/
structure HttpRequest where
  url : String
  method : String
  redirect : String
  headers : List (String × String)
  body : String
  deriving DecidableEq, Repr

def HttpRequest.header (r : HttpRequest) (name : String) : Option String :=
  (r.headers.find? (·.1 = name)).map (·.2)

inductive EmailJob where
  | welcome (userId : Uuid) (email : String)
  | invite (email tenantName role acceptUrl : String)
  | booking (data : BookingEmailJob)
  deriving DecidableEq, Repr

structure MailMessage where
  recipient : String
  subject : String
  html : String
  deriving DecidableEq, Repr

/-! ## Calls -/

/-- A transaction that reads a table, or a call of something outside: the clock, the resolver of
names, an HTTP server, the provider that sends mails. -/
inductive WorkerCall where
  | activeEndpoint (tenantId : Uuid)
  | findCustomer (tenantId id : Uuid)
  | now
  | lookup (host : String)
  | fetch (request : HttpRequest)
  | sendMail (message : MailMessage)
  deriving DecidableEq

/-- The result of a call that succeeds; that of `fetch` is the status of the response. -/
abbrev WorkerCall.Result : WorkerCall → Type
  | activeEndpoint _ => Option WebhookEndpoint
  | findCustomer .. => Option CustomerRow
  | now => Instant
  | lookup _ => List String
  | fetch _ => ℕ
  | sendMail _ => Unit

abbrev WorkerCalls : Signature := sqlSignature WorkerCall WorkerCall.Result

/-- Code of the workers. -/
abbrev WorkerM : Type → Type := SqlM WorkerCall WorkerCall.Result

namespace WorkerM

/-- A transaction on the tables. -/
abbrev exec (s : WorkerCall) : WorkerM s.Result := execSql s

/-- A call of something outside; a failure is thrown with its message. -/
def external (s : WorkerCall) : WorkerM s.Result :=
  .call s fun
    | .ok v => .ret v
    | .error message => .raise (.error message)

def ofExcept {α : Type} : Except Thrown α → WorkerM α
  | .ok a => .ret a
  | .error e => .raise e

end WorkerM

open WorkerM

/-- The pure functions behind the workers, and whether a provider for mails is configured. -/
structure WorkerRuntime where
  urls : UrlRuntime
  signatures : SignatureRuntime
  stringify : WebhookPayload → String
  mailConfigured : Bool

/-! ## Deliveries -/

namespace WebhookService

variable (rt : WorkerRuntime)

/-- `WebhookUrl.assertSafeWebhookUrl`, with the resolver called. -/
def assertSafe (raw : String) : WorkerM Url := do
  let url ← ofExcept (WebhookUrl.validateWebhookUrl rt.urls raw)
  if rt.urls.isIP url.host ≠ 0 then return url
  else
    let addresses ← external (.lookup url.host)
    if addresses.length = 0 || addresses.any (WebhookUrl.isBlockedIp rt.urls) then
      throwSql (.badRequest "Webhook URL must not resolve to a private or loopback address")
    else return url

/-- The request of a delivery at this time. The signature covers the timestamp and the body. -/
def deliveryRequest (url secret : String) (payload : WebhookPayload) (now : Instant) :
    HttpRequest :=
  let body := rt.stringify payload
  let timestamp := toString (now / 1000)
  let signature := WebhookSignature.signWebhook rt.signatures secret (timestamp ++ "." ++ body)
  { url, method := "POST", redirect := "error", body,
    headers := [("content-type", "application/json"), ("x-webhook-event", payload.eventType),
      ("x-webhook-timestamp", timestamp), ("x-webhook-signature", "sha256=" ++ signature)] }

/-- Posts a signed event. A timeout, a redirect and a response that is not a success are errors. -/
def deliver (url secret : String) (payload : WebhookPayload) : WorkerM Unit := do
  let _ ← assertSafe rt url
  let now ← exec .now
  let status ← external (.fetch (deliveryRequest rt url secret payload now))
  if 200 ≤ status ∧ status ≤ 299 then return ()
  else .raise (.error ("Webhook returned " ++ toString status))

end WebhookService

def WebhookJob.payload (job : WebhookJob) : WebhookPayload :=
  ⟨job.eventType, job.aggregateType, job.aggregateId, job.data⟩

/-- Posts the event to the endpoint that its tenant has now. -/
def webhookWorker (rt : WorkerRuntime) (job : WebhookJob) : WorkerM Unit := do
  match ← exec (.activeEndpoint job.tenantId) with
  | none => return ()
  | some endpoint => WebhookService.deliver rt endpoint.url endpoint.secret job.payload

/-! ## Mails -/

/-- `CustomerService.getById`, with its query as a transaction of its own. -/
def getCustomer (tenantId id : Uuid) : WorkerM CustomerRow := do
  match ← exec (.findCustomer tenantId id) with
  | some customer => return customer
  | none => throwSql (.notFound "Customer not found")

/-- `error instanceof NotFoundException`. -/
def isNotFound : Thrown → Bool
  | .app e => e = .notFound e.message
  | _ => false

/-- The address of a job; the customer of a booking is looked up, and may have gone. -/
def resolveRecipient : EmailJob → WorkerM (Option String)
  | .welcome _ email => return some email
  | .invite email .. => return some email
  | .booking data =>
    Prog.tryCatch
      (do
        let customer ← getCustomer data.tenantId data.customerId
        return some customer.email)
      fun error => if isNotFound error then return none else .raise error

/-- The subject and the text of a job's mail. -/
def renderEmail : EmailJob → String × String
  | .welcome .. => ("Welcome to the booking platform", "<p>Welcome! Your account is ready.</p>")
  | .invite _ tenantName role acceptUrl =>
    ("You're invited to " ++ tenantName,
      "<p>You've been invited to join <strong>" ++ tenantName ++ "</strong> as " ++ role ++
        ".</p>\n<p><a href=\"" ++ acceptUrl ++ "\">Accept the invitation</a></p>")
  | .booking data =>
    ("Booking update: " ++ data.eventType,
      "<p>Your booking <strong>" ++ toString data.bookingId ++ "</strong> was updated — " ++
        data.eventType ++
        ".</p>")

/-- Without a provider nothing is sent. -/
def MailService.send (rt : WorkerRuntime) (message : MailMessage) : WorkerM Unit :=
  if rt.mailConfigured then external (.sendMail message) else return ()

def emailWorker (rt : WorkerRuntime) (job : EmailJob) : WorkerM Unit := do
  match ← resolveRecipient job with
  | none => return ()
  | some recipient =>
    if recipient = "" then return ()
    else MailService.send rt ⟨recipient, (renderEmail job).1, (renderEmail job).2⟩

/-! ## Jobs over the tables of the platform -/

inductive WorkerJob where
  | webhook (job : WebhookJob)
  | email (job : EmailJob)
  deriving DecidableEq, Repr

def runJob (rt : WorkerRuntime) : WorkerJob → WorkerM Unit
  | .webhook job => webhookWorker rt job
  | .email job => emailWorker rt job

/-- The endpoint that a tenant has. -/
def endpointOf (db : Store platformSchema) (tenantId : Uuid) : Option WebhookEndpoint :=
  (rowsOf db .webhookEndpoints tenantId fun r => r.active).head?

def customerOf (db : Store platformSchema) (tenantId id : Uuid) : Option CustomerRow :=
  (rowsOf db .customers tenantId fun r => r.id = id).head?

/-- The answers of a call: everything can fail but the clock, and what is outside can answer
anything. -/
def WorkerCall.possible (db : Store platformSchema) :
    (s : WorkerCall) → Except SqlState s.Result → Prop
  | .activeEndpoint tenantId, .ok v => v = endpointOf db tenantId
  | .findCustomer tenantId id, .ok v => v = customerOf db tenantId id
  | .now, .error _ => False
  | _, _ => True

/-- Any number of jobs. Workers do not write, and everything else may change the tables at any
time. -/
def workerServer {T : Type} (rt : WorkerRuntime) :
    Server WorkerCalls T (Store platformSchema) WorkerJob Thrown Unit where
  program := runJob rt
  possible _ db s x := s.possible db x
  effect _ db _ _ := db
  crash _ db := db
  env _ _ := True

abbrev WorkerWorld (T : Type) : Type :=
  World WorkerCalls T (Store platformSchema) WorkerJob Thrown Unit

/-! ## The reads of the services -/

section Reads

variable {supply : ℕ → Uuid × ℤ} {db : Store platformSchema}

/-- The transaction of a webhook job reads the endpoint of the tenant. -/
theorem activeEndpoint_reads (tenantId : Uuid) :
    (WebhookService.activeEndpoint tenantId).Reads supply db (.ok (endpointOf db tenantId)) :=
  reads_findOne

/-- The transaction of an email job reads the customer, or fails as there is none. -/
theorem getCustomer_reads (tenantId id : Uuid) :
    (CustomerService.getById tenantId id).Reads supply db
      (match customerOf db tenantId id with
        | some customer => .ok customer
        | none => .error (.app (.notFound "Customer not found"))) := by
  apply reads_findOne.bind
  show Prog.Reads supply db
    (match customerOf db tenantId id with | some customer => _ | none => _) _
  cases customerOf db tenantId id with
  | none => exact Prog.reads_raise _
  | some customer => exact Prog.reads_ret customer

theorem mem_of_endpointOf {tenantId : Uuid} {e : WebhookEndpoint}
    (h : endpointOf db tenantId = some e) :
    e ∈ db .webhookEndpoints ∧ e.tenantId = tenantId ∧ e.active = true ∧ e.deletedAt = none := by
  have hmem : e ∈ rowsOf db .webhookEndpoints tenantId fun r => r.active := List.mem_of_head? h
  obtain ⟨hrow, hactive, htenant, hlive⟩ := mem_rowsOf.1 hmem
  exact ⟨hrow, Option.some.inj htenant, hactive, Option.isNone_iff_eq_none.1 hlive⟩

theorem endpointOf_eq_none {tenantId : Uuid} (h : endpointOf db tenantId = none) :
    ∀ e ∈ db .webhookEndpoints, e.tenantId = tenantId → e.active = true → e.deletedAt ≠ none := by
  intro e hrow htenant hactive hlive
  have hnil : (rowsOf db .webhookEndpoints tenantId fun r => r.active) = [] :=
    List.head?_eq_none_iff.1 h
  have hmem : e ∈ rowsOf db .webhookEndpoints tenantId fun r => r.active :=
    mem_rowsOf.2 ⟨hrow, hactive, congrArg some htenant, Option.isNone_iff_eq_none.2 hlive⟩
  rw [hnil] at hmem
  exact List.not_mem_nil hmem

theorem mem_of_customerOf {tenantId id : Uuid} {c : CustomerRow}
    (h : customerOf db tenantId id = some c) :
    c ∈ db .customers ∧ c.id = id ∧ c.tenantId = tenantId ∧ c.deletedAt = none := by
  have hmem : c ∈ rowsOf db .customers tenantId fun r => r.id = id := List.mem_of_head? h
  obtain ⟨hrow, hid, htenant, hlive⟩ := mem_rowsOf.1 hmem
  exact ⟨hrow, of_decide_eq_true hid, Option.some.inj htenant, Option.isNone_iff_eq_none.1 hlive⟩

end Reads

end BookingPlatform
