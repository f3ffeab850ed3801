import BookingPlatform.Payment.Signatures
import BookingPlatform.Library.Store
import BookingPlatform.Subscription.Store

/-!
# Webhook Bodies

The body of a webhook is parsed JSON. The parsers annotate it with types that nothing checks, so a
field can hold any value, and the code after them works with whatever they return.

## Main definitions

- `JsonValue`: a parsed value.
- `SepayProvider.parseEvent`, `StripeProvider.parseEvent`: the parsers.
- `Untyped.handleWebhook`: a webhook request with the values that its body really has.

## Main results

- `handleWebhook_answers_iff`: a verified request is answered, and hands the database texts only,
  exactly if the fields of a recognised event are texts where they are used as such.
-/

namespace BookingPlatform

open Library

/-! ## JSON values -/

/-- A number of a parsed text; one that is out of range is infinite. -/
inductive JsonNumber where
  | finite (q : ℚ)
  | infinite (negative : Bool)

/-- A value of `JSON.parse`. The fields of an object are in the order of the text. -/
inductive JsonValue where
  | null
  | bool (b : Bool)
  | number (n : JsonNumber)
  | string (s : String)
  | array (elements : List JsonValue)
  | object (fields : List (String × JsonValue))

/-- A parsed value, or `undefined`. -/
abbrev JsValue : Type := Option JsonValue

namespace JsonValue

/-- The field of an object; of fields with one name the last one counts. Nothing else has a field
with a name that the parsers read. -/
def field (name : String) : JsonValue → JsValue
  | object fields => (fields.reverse.find? (·.1 = name)).map (·.2)
  | _ => none

/-- `value.name`. -/
def access (name : String) : JsonValue → Except Thrown JsValue
  | null => .error (.error ("Cannot read properties of null (reading '" ++ name ++ "')"))
  | value => .ok (value.field name)

/-- An object or an array. -/
def IsStructured : JsonValue → Prop
  | array _ | object _ => True
  | _ => False

theorem IsStructured.access {value : JsonValue} (h : value.IsStructured) (name : String) :
    value.access name = .ok (value.field name) := by
  cases value with
  | null => exact h.elim
  | _ => rfl

end JsonValue

namespace JsValue

/-- `value?.name`. -/
def optional (name : String) : JsValue → JsValue
  | some value => value.field name
  | none => none

/-- Whether a condition takes the value for true. -/
def truthy : JsValue → Bool
  | none | some .null | some (.bool false) | some (.string "") => false
  | some (.number (.finite q)) => q ≠ 0
  | _ => true

/-- `value === text`. -/
def isText (text : String) : JsValue → Bool
  | some (.string s) => s = text
  | _ => false

/-- The value is a text. -/
def IsString (value : JsValue) : Prop := ∃ s, value = some (.string s)

theorem isText_iff {text : String} {value : JsValue} :
    isText text value = true ↔ value = some (.string text) := by
  unfold isText
  split
  · simp
  · rename_i hnot
    exact iff_of_false nofun fun heq => hnot _ heq

end JsValue

/-! ## Parsers -/

/-- An event with the values that its body has. -/
structure ParsedEvent where
  id : JsValue
  type : PaymentEventType
  subscriptionReference : JsValue

section Parsers

-- `JSON.parse`; `none` is a `SyntaxError`
variable (parse : String → Option JsonValue) (rawBody : String)

/-- The body is `{ id, status: 'success'|'failed', content: '<reference>' }`. -/
def SepayProvider.parseEvent : Except Thrown (Option ParsedEvent) :=
  match parse rawBody with
  | none => return none
  | some body => do
    let id ← body.access "id"
    let content ← body.access "content"
    if !id.truthy || !content.truthy then return none
    let status ← body.access "status"
    if status.isText "success" then return some ⟨id, .succeeded, content⟩
    if status.isText "failed" then return some ⟨id, .failed, content⟩
    return none

/-- The body is `{ id, type, data: { object: { metadata: { reference } } } }`. -/
def StripeProvider.parseEvent : Except Thrown (Option ParsedEvent) :=
  match parse rawBody with
  | none => return none
  | some body => do
    let data ← body.access "data"
    let reference := ((data.optional "object").optional "metadata").optional "reference"
    let id ← body.access "id"
    if !id.truthy || !reference.truthy then return none
    let type ← body.access "type"
    if type.isText "checkout.session.completed" || type.isText "invoice.paid" then
      return some ⟨id, .succeeded, reference⟩
    if type.isText "invoice.payment_failed" then return some ⟨id, .failed, reference⟩
    return none

end Parsers

/-! ## Statements -/

/-- The statements of a request; the id and the reference of an event are what its body has. -/
inductive EventStatement where
  | setTenant (tenantId : String)
  | claimReceipt (provider : PaymentProviderName) (eventId : JsValue)
  | findByReference (providerReference : JsValue)
  | updateStatus (id : Uuid) (status : SubscriptionStatus)
  | commit
  | rollback

abbrev EventStatement.Result : EventStatement → Type
  | claimReceipt .. => Bool
  | findByReference _ => Option Subscription
  | _ => Unit

/-- What the statement says of an event is text. -/
def EventStatement.IsTyped : EventStatement → Prop
  | claimReceipt _ eventId => eventId.IsString
  | findByReference reference => reference.IsString
  | _ => True

abbrev EventM : Type → Type := SqlM EventStatement EventStatement.Result

abbrev EventM.exec (s : EventStatement) : EventM s.Result := execSql s

/-- A value, or an exception that is thrown. -/
def EventM.ofExcept {α : Type} : Except Thrown α → EventM α
  | .ok a => .ret a
  | .error e => .raise e

open EventM

/-! ## Requests -/

/-- The providers that a request can name: how they verify it, and how they parse it. -/
structure WebhookRuntime where
  signatures : SignatureRuntime
  env : SignatureEnv
  parse : String → Option JsonValue

namespace PaymentService

variable (rt : WebhookRuntime)

def verifyWebhook (req : WebhookRequest) : PaymentProviderName → Except Thrown Bool
  | .sepay => SepayProvider.verifyWebhook rt.signatures rt.env req.rawBody req.signature
  | .stripe => StripeProvider.verifyWebhook rt.signatures rt.env req.now req.rawBody req.signature

def parseEvent (rawBody : String) : PaymentProviderName → Except Thrown (Option ParsedEvent)
  | .sepay => SepayProvider.parseEvent rt.parse rawBody
  | .stripe => StripeProvider.parseEvent rt.parse rawBody

end PaymentService

namespace Untyped

variable (rt : WebhookRuntime) (uuid : UuidText)

/-- `reference.split` is a function of texts only. -/
def tenantFromReference : JsValue → Except Thrown (Option String)
  | some (.string reference) => .ok (BookingPlatform.tenantFromReference uuid reference)
  | _ => .error (.error "reference.split is not a function")

/-- `dataSource.transaction` pinned to a tenant. -/
def runInTenantContext {α : Type} (tenantId : String) (work : EventM α) : EventM α :=
  Prog.tryCatch
    (do
      exec (.setTenant tenantId)
      let value ← work
      exec .commit
      return value)
    fun error => do
      Prog.tryCatch (exec .rollback) fun _ => return ()
      .raise error

/-- The callback that `consumeWebhook` runs in its transaction. -/
def claimAndApply (provider : PaymentProviderName) (event : ParsedEvent) : EventM Unit := do
  if !(← exec (.claimReceipt provider event.id)) then
    return ()
  else
    match ← exec (.findByReference event.subscriptionReference) with
    | none => return ()
    | some subscription =>
      if !SubscriptionStateMachine.canTransition subscription.status event.type.next then return ()
      else exec (.updateStatus subscription.id event.type.next)

def consumeWebhook (provider : PaymentProviderName) (event : ParsedEvent) : EventM Unit := do
  match ← ofExcept (tenantFromReference uuid event.subscriptionReference) with
  | none => return ()
  | some tenantId => runInTenantContext tenantId (claimAndApply provider event)

def handleWebhook (req : WebhookRequest) : EventM Unit := do
  let provider ← ofExcept (PaymentProviderRegistry.get req.provider)
  if !(← ofExcept (PaymentService.verifyWebhook rt req provider)) then
    throwSql (.unauthorized "Invalid webhook signature")
  else
    match ← ofExcept (PaymentService.parseEvent rt req.rawBody provider) with
    | none => throwSql (.badRequest "Unrecognised webhook payload")
    | some event => consumeWebhook uuid provider event

end Untyped

/-! ## What a verified request comes to -/

/-- Every statement succeeds, and what one says of an event has to be text. -/
def typedStatements : Protocol (sqlSignature EventStatement EventStatement.Result) Unit where
  allows _ s := s.IsTyped
  answers _ _ r := ∃ v, r = .ok v
  next _ _ _ := ()

/-- The request is answered, or refused with 400. -/
def Answered : Except Thrown Unit → Prop
  | .ok () => True
  | .error (.app e) => e.status = 400
  | .error _ => False

/-- Whatever the statements return, the request is answered, and it hands the database texts
only. -/
def AnswersTyped (p : EventM Unit) : Prop := p.Follows typedStatements (fun _ r => Answered r) ()

/-- The fields of a body that make its event, and the kinds of events that are known. -/
structure EventFields where
  id : JsValue
  reference : JsValue
  kind : JsValue
  kinds : List (String × PaymentEventType)

/-- Where a provider puts the fields. -/
def eventFields (body : JsonValue) : PaymentProviderName → EventFields
  | .sepay => ⟨body.field "id", body.field "content", body.field "status",
      [("success", .succeeded), ("failed", .failed)]⟩
  | .stripe => ⟨body.field "id",
      (((body.field "data").optional "object").optional "metadata").optional "reference",
      body.field "type", [("checkout.session.completed", .succeeded), ("invoice.paid", .succeeded),
        ("invoice.payment_failed", .failed)]⟩

/-- The body has an event. -/
structure EventFields.Recognised (fields : EventFields) : Prop where
  id : fields.id.truthy = true
  reference : fields.reference.truthy = true
  kind : ∃ kind ∈ fields.kinds, fields.kind = some (.string kind.1)

/-- The reference of an event is a text, and if it encodes a tenant, so is the id. -/
def EventFields.WellTyped (uuid : UuidText) (fields : EventFields) : Prop :=
  fields.Recognised → ∃ reference, fields.reference = some (.string reference) ∧
    ∀ tenantId, tenantFromReference uuid reference = some tenantId → fields.id.IsString

section Requests

variable {rt : WebhookRuntime} {uuid : UuidText} {req : WebhookRequest}
  {provider : PaymentProviderName} {body : JsonValue}

/-- The event of the fields. -/
def EventFields.event (fields : EventFields) : Option ParsedEvent :=
  if fields.id.truthy = true ∧ fields.reference.truthy = true then
    (fields.kinds.find? fun kind => fields.kind.isText kind.1).map fun kind =>
      ⟨fields.id, kind.2, fields.reference⟩
  else none

/-- A structured body is parsed to the event of its fields. -/
theorem parseEvent_eq (hparse : rt.parse req.rawBody = some body) (hbody : body.IsStructured) :
    PaymentService.parseEvent rt req.rawBody provider = .ok (eventFields body provider).event := by
  cases provider with
  -- each field is checked in the order in which the code checks it
  | sepay =>
    simp only [PaymentService.parseEvent, SepayProvider.parseEvent, hparse,
      hbody.access, eventFields, EventFields.event]
    by_cases hid : (body.field "id").truthy = true
    · by_cases hcontent : (body.field "content").truthy = true
      · by_cases hsuccess : (body.field "status").isText "success" = true
        · simp [bind, Except.bind, pure, Except.pure, hid, hcontent, hsuccess]
        · by_cases hfailed : (body.field "status").isText "failed" = true <;>
            simp [bind, Except.bind, pure, Except.pure, hid, hcontent, hsuccess, hfailed]
      · simp [bind, Except.bind, pure, Except.pure, hcontent]
    · simp [bind, Except.bind, pure, Except.pure, hid]
  | stripe =>
    simp only [PaymentService.parseEvent, StripeProvider.parseEvent, hparse,
      hbody.access, eventFields, EventFields.event]
    by_cases hid : (body.field "id").truthy = true
    · by_cases hreference :
          ((((body.field "data").optional "object").optional "metadata").optional
            "reference").truthy = true
      · by_cases hcompleted : (body.field "type").isText "checkout.session.completed" = true
        · simp [bind, Except.bind, pure, Except.pure, hid, hreference, hcompleted]
        · by_cases hpaid : (body.field "type").isText "invoice.paid" = true
          · simp [bind, Except.bind, pure, Except.pure, hid, hreference, hcompleted, hpaid]
          · by_cases hfailed : (body.field "type").isText "invoice.payment_failed" = true <;>
              simp [bind, Except.bind, pure, Except.pure, hid, hreference, hcompleted,
                hpaid, hfailed]
      · simp [bind, Except.bind, pure, Except.pure, hreference]
    · simp [bind, Except.bind, pure, Except.pure, hid]

theorem EventFields.event_eq_none {fields : EventFields} (h : ¬fields.Recognised) :
    fields.event = none := by
  unfold event
  by_cases htruthy : fields.id.truthy = true ∧ fields.reference.truthy = true
  · rw [if_pos htruthy, Option.map_eq_none_iff, List.find?_eq_none]
    intro kind hkind htext
    exact h ⟨htruthy.1, htruthy.2, kind, hkind, JsValue.isText_iff.1 htext⟩
  · exact if_neg htruthy

theorem EventFields.Recognised.event {fields : EventFields} (h : fields.Recognised) :
    ∃ type, fields.event = some ⟨fields.id, type, fields.reference⟩ := by
  obtain ⟨kind, hkind, htext⟩ := h.kind
  unfold EventFields.event
  rw [if_pos ⟨h.id, h.reference⟩]
  cases hfind : fields.kinds.find? fun kind => fields.kind.isText kind.1 with
  | none => exact absurd (JsValue.isText_iff.2 htext) (List.find?_eq_none.1 hfind kind hkind)
  | some found => exact ⟨found.2, rfl⟩

/-- The work of a transaction succeeds if what it hands the database is text. -/
theorem follows_claimAndApply {event : ParsedEvent} (hid : event.id.IsString)
    (hreference : event.subscriptionReference.IsString) :
    (Untyped.claimAndApply provider event).Follows typedStatements (fun _ r => r = .ok ()) () := by
  unfold Untyped.claimAndApply
  refine follows_execSql_bind.2 ⟨hid, ?_⟩
  rintro _ ⟨claimed, rfl⟩
  cases claimed with
  -- the receipt is there already: nothing more is asked
  | false => exact rfl
  | true =>
    refine follows_execSql_bind.2 ⟨hreference, ?_⟩
    rintro _ ⟨found, rfl⟩
    cases found with
    | none => exact rfl
    | some subscription =>
      dsimp only
      split
      · exact rfl
      · refine follows_execSql.2 ⟨trivial, ?_⟩
        rintro _ ⟨-, rfl⟩
        exact rfl

/-- A transaction whose work succeeds is answered. -/
theorem follows_runInTenantContext {tenantId : String} {work : EventM Unit}
    (h : work.Follows typedStatements (fun _ r => r = .ok ()) ()) :
    AnswersTyped (Untyped.runInTenantContext tenantId work) := by
  unfold AnswersTyped Untyped.runInTenantContext
  refine Prog.follows_tryCatch.2 (follows_execSql_bind.2 ⟨trivial, ?_⟩)
  rintro _ ⟨-, rfl⟩
  refine Prog.follows_bind.2 (h.mono ?_)
  rintro ⟨⟩ r rfl
  refine follows_execSql_bind.2 ⟨trivial, ?_⟩
  rintro _ ⟨-, rfl⟩
  exact trivial

/-- A transaction claims the event before anything else. -/
theorem isString_of_answersTyped {tenantId : String} {event : ParsedEvent}
    (h : AnswersTyped (Untyped.runInTenantContext tenantId
      (Untyped.claimAndApply provider event))) :
    event.id.IsString := by
  have hset := Prog.follows_tryCatch.1 h
  have hclaim := (follows_execSql_bind.1 hset).2 (.ok ()) ⟨(), rfl⟩
  exact (follows_execSql_bind.1 (Prog.follows_bind.1 hclaim)).1

/-- An event is consumed exactly if its fields are well typed. -/
theorem answersTyped_consumeWebhook_iff {event : ParsedEvent} :
    AnswersTyped (Untyped.consumeWebhook uuid provider event) ↔
      ∃ reference, event.subscriptionReference = some (.string reference) ∧
        ∀ tenantId, tenantFromReference uuid reference = some tenantId → event.id.IsString := by
  unfold Untyped.consumeWebhook Untyped.tenantFromReference
  split
  · rename_i reference hreference
    cases htenant : tenantFromReference uuid reference with
    -- the reference encodes no tenant: no statement is issued
    | none =>
      exact iff_of_true trivial ⟨reference, hreference, fun _ h => by rw [htenant] at h; cases h⟩
    | some tenantId =>
      change AnswersTyped (Untyped.runInTenantContext tenantId _) ↔ _
      -- it encodes one: the id of the event goes to the database
      constructor
      · intro h
        exact ⟨reference, hreference, fun _ _ => isString_of_answersTyped h⟩
      · rintro ⟨reference', hreference', hid⟩
        obtain rfl : reference = reference' := by
          have heq := hreference.symm.trans hreference'
          cases heq
          rfl
        exact follows_runInTenantContext
          (follows_claimAndApply (hid tenantId htenant) ⟨reference, hreference⟩)
  · rename_i hnot
    refine iff_of_false (fun h => h) ?_
    rintro ⟨reference, hreference, -⟩
    exact hnot reference hreference

/-- A verified request with a structured body consumes the event of the body, if it has one. -/
theorem handleWebhook_eq (hprovider : req.provider = provider.value)
    (hsigned : PaymentService.verifyWebhook rt req provider = .ok true)
    (hparse : rt.parse req.rawBody = some body) (hbody : body.IsStructured) :
    Untyped.handleWebhook rt uuid req = match (eventFields body provider).event with
      | none => throwSql (.badRequest "Unrecognised webhook payload")
      | some event => Untyped.consumeWebhook uuid provider event := by
  have hget : PaymentProviderRegistry.get req.provider = .ok provider := by
    rw [hprovider]
    cases provider <;> rfl
  unfold Untyped.handleWebhook
  rw [hget]
  simp only [EventM.ofExcept, Prog.ret_bind, hsigned, parseEvent_eq hparse hbody]
  cases (eventFields body provider).event <;> rfl

/-- A verified request with a structured body is answered, or refused with 400, and hands the
database texts only, exactly if the fields of its event are well typed. -/
theorem handleWebhook_answers_iff (hprovider : req.provider = provider.value)
    (hsigned : PaymentService.verifyWebhook rt req provider = .ok true)
    (hparse : rt.parse req.rawBody = some body) (hbody : body.IsStructured) :
    AnswersTyped (Untyped.handleWebhook rt uuid req) ↔
    (eventFields body provider).WellTyped uuid := by
  rw [handleWebhook_eq hprovider hsigned hparse hbody]
  by_cases hevent : (eventFields body provider).Recognised
  · obtain ⟨type, htype⟩ := hevent.event
    rw [htype]
    exact answersTyped_consumeWebhook_iff.trans ⟨fun h _ => h, fun h => h hevent⟩
  · rw [EventFields.event_eq_none hevent]
    exact iff_of_true rfl fun h => absurd h hevent

end Requests

/-! ## Bodies of SePay -/

/-- A body with this content. -/
def sampleBody (content : JsonValue) : JsonValue :=
  .object [("id", .string "e1"), ("status", .string "success"), ("content", content)]

theorem eventFields_sampleBody (content : JsonValue) : eventFields (sampleBody content) .sepay =
    ⟨some (.string "e1"), some content, some (.string "success"),
      [("success", .succeeded), ("failed", .failed)]⟩ := by
  simp [eventFields, sampleBody, JsonValue.field]

/-- The text of such a body. -/
def sampleText (content : String) : String :=
  "\x7b\"id\":\"e1\",\"status\":\"success\",\"content\":" ++ content ++ "\x7d"

/-- A reference that was built for tenant 1. -/
def tenantReference : String := buildReference sampleUuid 1 2

/-- The text of the body with this reference. -/
def referenceText : String := sampleText ("\"" ++ tenantReference ++ "\"")

def sampleWebhooks : WebhookRuntime where
  signatures := zeroRuntime
  env := zeroEnv
  parse text :=
    if text = sampleText "7" then some (sampleBody (.number (.finite 7)))
    else if text = referenceText then some (sampleBody (.string tenantReference))
    else none

/-- A request that is signed for SePay. -/
def sampleSepayRequest (rawBody : String) : WebhookRequest := ⟨0, "sepay", rawBody, zeroDigest.text⟩

theorem sampleSepayRequest_signed (rawBody : String) :
    PaymentService.verifyWebhook sampleWebhooks (sampleSepayRequest rawBody) .sepay = .ok true := by
  change SepayProvider.verifyWebhook zeroRuntime zeroEnv "" zeroDigest.text = .ok true
  decide +kernel

theorem referenceText_ne : referenceText ≠ sampleText "7" := by
  decide +kernel

/-- A content that encodes a tenant is answered. -/
theorem handleWebhook_answers_text :
    tenantFromReference sampleUuid tenantReference = some (sampleUuid.text 1) ∧
      AnswersTyped (Untyped.handleWebhook sampleWebhooks sampleUuid
        (sampleSepayRequest referenceText)) := by
  have hparse : sampleWebhooks.parse (sampleSepayRequest referenceText).rawBody =
      some (sampleBody (.string tenantReference)) := by
    simp [sampleWebhooks, sampleSepayRequest, referenceText_ne]
  have hbody : (sampleBody (.string tenantReference)).IsStructured := trivial
  have hname : (sampleSepayRequest referenceText).provider = PaymentProviderName.sepay.value := rfl
  have hsigned := sampleSepayRequest_signed referenceText
  have htyped : (eventFields (sampleBody (.string tenantReference)) .sepay).WellTyped
      sampleUuid := by
    rw [eventFields_sampleBody]
    exact fun _ => ⟨tenantReference, rfl, fun _ _ => ⟨"e1", rfl⟩⟩
  have hiff := @handleWebhook_answers_iff sampleWebhooks sampleUuid
    (sampleSepayRequest referenceText) .sepay
    (sampleBody (.string tenantReference)) hname hsigned hparse hbody
  exact ⟨tenantFromReference_buildReference sampleUuid 1 2, hiff.2 htyped⟩

/-- A content that is a number has no parts to split. -/
theorem numericContent_throws :
    ¬∀ (rt : WebhookRuntime) (uuid : UuidText) (req : WebhookRequest)
      (provider : PaymentProviderName) (body : JsonValue), req.provider = provider.value →
      PaymentService.verifyWebhook rt req provider = .ok true → rt.parse req.rawBody = some body →
      body.IsStructured → AnswersTyped (Untyped.handleWebhook rt uuid req) := by
  intro hall
  have hparse : sampleWebhooks.parse (sampleSepayRequest (sampleText "7")).rawBody =
      some (sampleBody (.number (.finite 7))) := by
    simp [sampleWebhooks, sampleSepayRequest]
  have hbody : (sampleBody (.number (.finite 7))).IsStructured := trivial
  have hsigned := sampleSepayRequest_signed (sampleText "7")
  have hname : (sampleSepayRequest (sampleText "7")).provider = PaymentProviderName.sepay.value :=
    rfl
  have hanswers := hall sampleWebhooks sampleUuid (sampleSepayRequest (sampleText "7")) .sepay
    (sampleBody (.number (.finite 7))) hname hsigned hparse hbody
  have hrun := @handleWebhook_eq sampleWebhooks sampleUuid
    (sampleSepayRequest (sampleText "7")) .sepay
    (sampleBody (.number (.finite 7))) hname hsigned hparse hbody
  have hfields := eventFields_sampleBody (.number (.finite 7))
  -- the event is recognised, for no check looks at the type of the content
  have hevent : (eventFields (sampleBody (.number (.finite 7))) .sepay).Recognised := by
    rw [hfields]
    exact ⟨rfl, by decide +kernel, ("success", .succeeded), List.mem_cons_self .., rfl⟩
  obtain ⟨type, htype⟩ := hevent.event
  rw [hrun, htype, hfields] at hanswers
  obtain ⟨reference, hreference, -⟩ := answersTyped_consumeWebhook_iff.1 hanswers
  cases hreference

/-! ## Typed events -/

/-- The statements of typed code, as statements with values. -/
def withValues : Translation (sqlSignature WebhookStatement WebhookStatement.Result)
    (sqlSignature EventStatement EventStatement.Result) where
  stmt
    | .setTenant tenantId => .setTenant tenantId
    | .claimReceipt provider eventId => .claimReceipt provider (some (.string eventId))
    | .findByReference reference => .findByReference (some (.string reference))
    | .updateStatus id status => .updateStatus id status
    | .commit => .commit
    | .rollback => .rollback
  ans
    | .setTenant _, r => r
    | .claimReceipt .., r => r
    | .findByReference _, r => r
    | .updateStatus .., r => r
    | .commit, r => r
    | .rollback, r => r

/-- The event with its fields as values. -/
def PaymentEvent.parsed (event : PaymentEvent) : ParsedEvent :=
  ⟨some (.string event.id), event.type, some (.string event.subscriptionReference)⟩

/-- A typed event, if both fields are texts. -/
def ParsedEvent.typed : ParsedEvent → Option PaymentEvent
  | ⟨some (.string id), type, some (.string reference)⟩ => some ⟨id, type, reference⟩
  | _ => none

theorem ParsedEvent.typed_eq_some {parsed : ParsedEvent} {event : PaymentEvent}
    (h : parsed.typed = some event) :
    parsed = event.parsed := by
  unfold typed at h
  split at h
  · cases h
    rfl
  · cases h

/-- The adapters as the typed code knows them. -/
def WebhookRuntime.registry (rt : WebhookRuntime) : PaymentProviderRegistry where
  provider p :=
    { verifyWebhook := fun now rawBody signature =>
        PaymentService.verifyWebhook rt ⟨now, p.value, rawBody, signature⟩ p
      parseEvent := fun rawBody =>
        (PaymentService.parseEvent rt rawBody p).map (·.bind ParsedEvent.typed) }

section Typed

variable {α : Type} {uuid : UuidText} {provider : PaymentProviderName}

@[simp] theorem translate_throwSql (e : AppException) :
    (throwSql e : WebhookM α).translate withValues = throwSql e := rfl

@[simp] theorem translate_ofExcept (r : Except Thrown α) :
    (WebhookM.ofExcept r).translate withValues = EventM.ofExcept r := by cases r <;> rfl

theorem translate_setTenant (tenantId : String) :
    (WebhookM.exec (.setTenant tenantId)).translate withValues =
    EventM.exec (.setTenant tenantId) :=
  congrArg (Prog.call _) (funext fun r => by cases r <;> rfl)

theorem translate_claimReceipt (eventId : String) :
    (WebhookM.exec (.claimReceipt provider eventId)).translate withValues =
      EventM.exec (.claimReceipt provider (some (.string eventId))) :=
  congrArg (Prog.call _) (funext fun r => by cases r <;> rfl)

theorem translate_findByReference (reference : String) :
    (WebhookM.exec (.findByReference reference)).translate withValues =
      EventM.exec (.findByReference (some (.string reference))) :=
  congrArg (Prog.call _) (funext fun r => by cases r <;> rfl)

theorem translate_updateStatus (id : Uuid) (status : SubscriptionStatus) :
    (WebhookM.exec (.updateStatus id status)).translate withValues =
      EventM.exec (.updateStatus id status) :=
  congrArg (Prog.call _) (funext fun r => by cases r <;> rfl)

theorem translate_commit : (WebhookM.exec .commit).translate withValues = EventM.exec .commit :=
  congrArg (Prog.call _) (funext fun r => by cases r <;> rfl)

theorem translate_rollback :
    (WebhookM.exec .rollback).translate withValues = EventM.exec .rollback :=
  congrArg (Prog.call _) (funext fun r => by cases r <;> rfl)

theorem translate_runInTenantContext (tenantId : String) (work : WebhookM α) :
    (runInTenantContext tenantId work).translate withValues =
      Untyped.runInTenantContext tenantId (work.translate withValues) := by
  unfold runInTenantContext Untyped.runInTenantContext
  -- statement by statement, the two transactions are the same
  have hbody : (do
      WebhookM.exec (.setTenant tenantId)
      let value ← work
      WebhookM.exec .commit
      return value : WebhookM α).translate withValues = (do
      EventM.exec (.setTenant tenantId)
      let value ← work.translate withValues
      EventM.exec .commit
      return value) := by
    rw [Prog.translate_bind, translate_setTenant]
    congr 1
    funext _
    rw [Prog.translate_bind]
    congr 1
    funext value
    rw [Prog.translate_bind, translate_commit]
    rfl
  -- and so are their handlers
  have hhandler : ∀ error : Thrown, (do
      Prog.tryCatch (WebhookM.exec .rollback) fun _ => return ()
      .raise error : WebhookM α).translate withValues = (do
      Prog.tryCatch (EventM.exec .rollback) fun _ => return ()
      .raise error) := by
    intro error
    rw [Prog.translate_bind, Prog.translate_tryCatch, translate_rollback]
    rfl
  rw [Prog.translate_tryCatch, hbody]
  congr 1
  funext error
  exact hhandler error

theorem translate_claimAndApply (event : PaymentEvent) :
    (SubscriptionService.claimAndApply provider event).translate withValues =
      Untyped.claimAndApply provider event.parsed := by
  unfold SubscriptionService.claimAndApply Untyped.claimAndApply
  rw [Prog.translate_bind, translate_claimReceipt]
  congr 1
  funext claimed
  cases claimed with
  | false => rfl
  -- the branches are the same, and so is the update
  | true =>
    simp only [Bool.not_true, Bool.false_eq_true, if_false]
    rw [Prog.translate_bind, translate_findByReference]
    congr 1
    funext found
    cases found with
    | none => rfl
    | some subscription =>
      dsimp only
      split
      · rw [if_pos ‹_›]
        rfl
      · rw [if_neg ‹_›]
        exact translate_updateStatus _ _

/-- An event whose fields are texts is consumed as the typed code consumes it. -/
theorem translate_consumeWebhook (event : PaymentEvent) :
    (SubscriptionService.consumeWebhook uuid provider event).translate withValues =
      Untyped.consumeWebhook uuid provider event.parsed := by
  unfold SubscriptionService.consumeWebhook Untyped.consumeWebhook Untyped.tenantFromReference
  simp only [PaymentEvent.parsed]
  cases tenantFromReference uuid event.subscriptionReference with
  | none => rfl
  | some tenantId =>
    change (runInTenantContext tenantId _).translate withValues =
      Untyped.runInTenantContext tenantId _
    rw [translate_runInTenantContext, translate_claimAndApply]
    rfl

/-- A request whose event, if it has one, has texts as its fields runs as the typed code runs it. -/
theorem translate_handleWebhook (rt : WebhookRuntime) (req : WebhookRequest)
    (htyped : ∀ p parsed, PaymentService.parseEvent rt req.rawBody p = .ok (some parsed) →
      parsed.typed.isSome) :
    (PaymentController.handleWebhook uuid rt.registry req).translate withValues =
      Untyped.handleWebhook rt uuid req := by
  unfold PaymentController.handleWebhook Untyped.handleWebhook
  rw [Prog.translate_bind, translate_ofExcept]
  congr 1
  funext provider
  have hprovider : PaymentService.verifyWebhook rt req provider =
    (rt.registry.provider provider).verifyWebhook
      req.now req.rawBody req.signature := by cases provider <;> rfl
  rw [Prog.translate_bind, translate_ofExcept, hprovider]
  congr 1
  funext verified
  cases verified with
  | false => rfl
  | true =>
    simp only [Bool.not_true, Bool.false_eq_true, if_false]
    rw [Prog.translate_bind, translate_ofExcept]
    change EventM.ofExcept ((PaymentService.parseEvent rt req.rawBody provider).map _) >>= _ = _
    cases hparse : PaymentService.parseEvent rt req.rawBody provider with
    | error e => rfl
    | ok parsed =>
      cases parsed with
      | none => rfl
      | some parsed =>
        -- an event whose fields are texts is the event of the typed code
        obtain ⟨event, hevent⟩ := Option.isSome_iff_exists.1 (htyped provider parsed hparse)
        dsimp only [Except.map, EventM.ofExcept, Option.bind_some]
        rw [hevent, ParsedEvent.typed_eq_some hevent]
        exact translate_consumeWebhook event

end Typed

end BookingPlatform
