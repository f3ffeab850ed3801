import BookingPlatform.Common.Types

/-!
# Problem Documents

A request that fails is answered with a problem document. The handler reads what the thrown value
says of itself and reports the fields that have not passed their checks. In production it says
nothing of internal errors.

## Main definitions

- `FieldTree`: what is said of fields and of the fields below them.
- `formatValidationErrors`: the fields as they are reported.
- `ErrorHandler.error`: the problem document of a thrown value.

## Main results

- `validation_reported`: the constraints that have failed are reported, each under the path of its
  field.
- `failures_sealed`: in production internal errors cannot be told apart.
-/

namespace BookingPlatform

/-! ## Fields -/

/-- What is said of a field and of the fields below it; either can be missing. -/
inductive FieldTree (α : Type) where
  | node (field : String) (said : Option (List α)) (children : Option (List (FieldTree α)))

/-- A message about the field with this path. -/
structure Report where
  path : List String
  message : String
  deriving DecidableEq, Repr

namespace FieldTree

variable {α : Type}

mutual

/-- All that is said of the field and of those below it. -/
def reports (text : α → String) : FieldTree α → List String → List Report
  | .node field said children, path =>
    (said.getD []).map (fun a => ⟨path ++ [field], text a⟩) ++
      childReports text children (path ++ [field])

def childReports (text : α → String) : Option (List (FieldTree α)) → List String → List Report
  | none, _ => []
  | some trees, path => allReports text trees path

def allReports (text : α → String) : List (FieldTree α) → List String → List Report
  | [], _ => []
  | tree :: trees, path => reports text tree path ++ allReports text trees path

end

end FieldTree

open FieldTree

/-- What the checks of a DTO say of a field: the constraints that have failed, with their
messages. -/
abbrev ValidationErrorLike : Type := FieldTree (String × String)

/-- A field as it is reported, with messages only. -/
abbrev FieldErrors : Type := FieldTree String

mutual

def formatValidationError : ValidationErrorLike → FieldErrors
  | .node property constraints children =>
    .node property (constraints.map fun cs => cs.map (·.2)) (formatChildren children)

/-- No children and an empty list of children are reported alike. -/
def formatChildren : Option (List ValidationErrorLike) → Option (List FieldErrors)
  | some (e :: es) => some (formatValidationError e :: formatValidationErrors es)
  | _ => none

def formatValidationErrors : List ValidationErrorLike → List FieldErrors
  | [] => []
  | e :: es => formatValidationError e :: formatValidationErrors es

end

mutual

theorem reports_formatValidationError : ∀ (e : ValidationErrorLike) (path : List String),
    (formatValidationError e).reports id path = e.reports (·.2) path
  | .node property constraints children, path => by
    have hbelow := childReports_formatChildren children (path ++ [property])
    simp only [formatValidationError, reports]
    rw [hbelow]
    cases constraints with
    | none => rfl
    | some cs => simp

theorem childReports_formatChildren :
    ∀ (children : Option (List ValidationErrorLike)) (path : List String),
    childReports id (formatChildren children) path = childReports (·.2) children path
  | none, path => rfl
  | some [], path => rfl
  | some (e :: es), path => by
    have hfirst := reports_formatValidationError e path
    have hrest := allReports_formatValidationErrors es path
    simp only [formatChildren, childReports, allReports]
    rw [hfirst, hrest]

/-- The same is said of the same fields, in the same order. -/
theorem allReports_formatValidationErrors :
    ∀ (errors : List ValidationErrorLike) (path : List String),
    allReports id (formatValidationErrors errors) path = allReports (·.2) errors path
  | [], path => rfl
  | e :: es, path => by
    have hfirst := reports_formatValidationError e path
    have hrest := allReports_formatValidationErrors es path
    simp only [formatValidationErrors, allReports]
    rw [hfirst, hrest]

end

/-! ## Thrown values -/

/-- `error.errors`: a list of validation errors that is not empty, or anything else. -/
inductive ErrorsField where
  | validation (first : ValidationErrorLike) (rest : List ValidationErrorLike)
  | other (value : Json)

/-- What the handler reads of a thrown value; a field that is missing is `undefined`. -/
structure ThrownValue where
  httpCode : Option ℕ
  status : Option ℕ
  errorCode : Option String
  message : Option String
  details : Option Json
  errors : Option ErrorsField

/-- What the services throw. The text of a failed statement is the driver's. -/
def Thrown.value (driverText : SqlState → String) : Thrown → ThrownValue
  | .app e => ⟨some e.status, none, some e.errorCode, some e.message, none, none⟩
  | .query code => ⟨none, none, none, some (driverText code), none, none⟩
  | .error message => ⟨none, none, none, some message, none, none⟩

/-- Not one of the exceptions of the code. -/
def Thrown.IsInternal (t : Thrown) : Prop := ∀ e, t ≠ .app e

/-! ## Problem documents -/

inductive ProblemErrors where
  | fields (errors : List FieldErrors)
  | value (value : Json)

structure ProblemDetails where
  type : String
  title : String
  status : ℕ
  detail : String
  instanceUrl : String
  code : String
  errors : Option ProblemErrors
  traceId : Option String

/-- `STATUS_TITLES`. -/
def statusTitle : ℕ → String
  | 400 => "Bad Request"
  | 401 => "Unauthorized"
  | 403 => "Forbidden"
  | 404 => "Not Found"
  | 409 => "Conflict"
  | 410 => "Gone"
  | 412 => "Precondition Failed"
  | 422 => "Unprocessable Entity"
  | 429 => "Too Many Requests"
  | 500 => "Internal Server Error"
  | _ => "Error"

/-- `STATUS_CODE`. -/
def statusCode : ℕ → String
  | 400 => "BAD_REQUEST"
  | 401 => "UNAUTHORIZED"
  | 403 => "FORBIDDEN"
  | 404 => "NOT_FOUND"
  | 409 => "CONFLICT"
  | 422 => "VALIDATION_ERROR"
  | 500 => "INTERNAL_ERROR"
  | _ => "ERROR"

def buildProblem (status : ℕ) (code detail instanceUrl : String) (errors : Option ProblemErrors)
    (traceId : Option String) : ProblemDetails where
  type := "about:blank"
  title := statusTitle status
  status
  detail
  instanceUrl
  code
  errors
  traceId

namespace ErrorHandler

/-- `a || b`, for a number that can be missing. -/
def truthyOr (a : Option ℕ) (b : ℕ) : ℕ :=
  match a with
  | some n => if n = 0 then b else n
  | none => b

/-- The status, the errors and the detail that a thrown value asks for. -/
def outline (e : ThrownValue) : ℕ × Option ProblemErrors × String :=
  let status := truthyOr e.httpCode (truthyOr e.status 500)
  let errors := e.details.map ProblemErrors.value
  let detail := e.message.getD "Error"
  match e.errors with
  | some (.validation first rest) =>
    (422, some (.fields (formatValidationErrors (first :: rest))), "Validation failed")
  | some (.other value) => (status, some (errors.getD (.value value)), detail)
  | none => (status, errors, detail)

/-- The problem document of a thrown value, unless a response has been begun already. -/
def error (isProduction headersSent : Bool) (originalUrl : String) (traceId : Option String)
    (e : ThrownValue) :
    Option ProblemDetails :=
  if headersSent then none
  else
    let (status, errors, detail) := outline e
    let code := e.errorCode.getD (statusCode status)
    if status ≥ 500 && isProduction then
      some (buildProblem status code "Internal Server Error" originalUrl none traceId)
    else
      some (buildProblem status code detail originalUrl errors traceId)

end ErrorHandler

variable {url : String} {traceId : Option String}

/-- **Validation errors are reported.** The constraints that have failed are all reported and
nothing else is, each under the path of its field and in the same order. -/
theorem validation_reported (isProduction : Bool) {e : ThrownValue} {first : ValidationErrorLike}
    {rest : List ValidationErrorLike} (h : e.errors = some (.validation first rest)) :
    ∃ p fields, ErrorHandler.error isProduction false url traceId e = some p ∧ p.status = 422 ∧
      p.code = e.errorCode.getD "VALIDATION_ERROR" ∧ p.errors = some (.fields fields) ∧
      allReports id fields [] = allReports (·.2) (first :: rest) [] := by
  have houtline : ErrorHandler.outline e =
      (422, some (.fields (formatValidationErrors (first :: rest))), "Validation failed") := by
    unfold ErrorHandler.outline
    rw [h]
  have hproblem : ErrorHandler.error isProduction false url traceId e =
      some (buildProblem 422 (e.errorCode.getD "VALIDATION_ERROR") "Validation failed" url
        (some (.fields (formatValidationErrors (first :: rest)))) traceId) := by
    unfold ErrorHandler.error
    rw [houtline]
    rfl
  exact ⟨_, _, hproblem, rfl, rfl, rfl, allReports_formatValidationErrors _ []⟩

/-- The time zone of a tenant and the start of the second of its hours are refused. -/
def sampleRefusal : ThrownValue where
  httpCode := some 400
  status := none
  errorCode := none
  message := some "Invalid body, check 'errors' property for more info."
  details := none
  errors := some (.validation
    (.node "timezone" (some [("isTimeZone", "timezone must be a valid IANA time-zone")]) none)
    [.node "hours" none (some [.node "1" none
      (some [.node "start" (some [("min", "start must not be less than 0")]) (some [])])])])

theorem validation_reported_sample :
    ∃ p fields, ErrorHandler.error true false "/tenants" none sampleRefusal = some p ∧
      p.errors = some (.fields fields) ∧
      allReports id fields [] = [⟨["timezone"], "timezone must be a valid IANA time-zone"⟩,
        ⟨["hours", "1", "start"], "start must not be less than 0"⟩] := by
  have hrefused : sampleRefusal.errors = some (.validation _ _) := rfl
  obtain ⟨p, fields, hproblem, -, -, herrors, hreports⟩ := validation_reported true hrefused
  exact ⟨p, fields, hproblem, herrors, hreports⟩

/-- In production the document says no more of an error with a status of at least 500 than its
code. -/
theorem error_of_internal {e : ThrownValue} (h : 500 ≤ (ErrorHandler.outline e).1) :
    ErrorHandler.error true false url traceId e =
      some (buildProblem (ErrorHandler.outline e).1
        (e.errorCode.getD (statusCode (ErrorHandler.outline e).1))
        "Internal Server Error" url none traceId) := by
  show (if (decide ((ErrorHandler.outline e).1 ≥ 500) && true) = true then _ else _) = _
  exact if_pos (by simpa using h)

/-- Below that it says all that the error says. -/
theorem error_of_client {e : ThrownValue} (h : ¬500 ≤ (ErrorHandler.outline e).1) :
    ErrorHandler.error true false url traceId e =
      some (buildProblem (ErrorHandler.outline e).1
        (e.errorCode.getD (statusCode (ErrorHandler.outline e).1))
        (ErrorHandler.outline e).2.2 url (ErrorHandler.outline e).2.1 traceId) := by
  show (if (decide ((ErrorHandler.outline e).1 ≥ 500) && true) = true then _ else _) = _
  exact if_neg (by simpa using h)

/-- What production tells apart: errors with the same status and code are answered alike exactly if
the status is at least 500, or they ask for the same detail and errors anyway. -/
theorem internal_sealed {e e' : ThrownValue}
    (hstatus : (ErrorHandler.outline e').1 = (ErrorHandler.outline e).1)
    (hcode : e'.errorCode = e.errorCode) :
    ErrorHandler.error true false url traceId e' = ErrorHandler.error true false url traceId e ↔
      500 ≤ (ErrorHandler.outline e).1 ∨
      (ErrorHandler.outline e').2 = (ErrorHandler.outline e).2 := by
  by_cases hinternal : 500 ≤ (ErrorHandler.outline e).1
  · rw [error_of_internal hinternal, error_of_internal (hstatus ▸ hinternal), hstatus, hcode]
    exact iff_of_true rfl (.inl hinternal)
  · rw [error_of_client hinternal, error_of_client (hstatus ▸ hinternal), hstatus, hcode]
    constructor
    · intro hsame
      have hproblem := Option.some.inj hsame
      have hdetail := congrArg ProblemDetails.detail hproblem
      have herrors := congrArg ProblemDetails.errors hproblem
      exact .inr (Prod.ext herrors hdetail)
    · rintro (h | hsame)
      · exact absurd h hinternal
      · rw [hsame]

/-- **Internal errors are kept back.** In production a failed statement and an error of a library
are answered by one document, whatever their texts; and of two errors with the same status and code,
the client can tell apart those below 500 only. -/
theorem failures_sealed (url : String) (traceId : Option String) :
    (∀ driverText (t : Thrown), t.IsInternal →
      ErrorHandler.error true false url traceId (t.value driverText) =
      some { type := "about:blank", title := "Internal Server Error", status := 500,
             detail := "Internal Server Error",
             instanceUrl := url, code := "INTERNAL_ERROR", errors := none, traceId }) ∧
    ∀ e e' : ThrownValue, (ErrorHandler.outline e').1 = (ErrorHandler.outline e).1 →
      e'.errorCode = e.errorCode →
      (ErrorHandler.error true false url traceId e' = ErrorHandler.error true false url traceId e ↔
        500 ≤ (ErrorHandler.outline e).1 ∨
        (ErrorHandler.outline e').2 = (ErrorHandler.outline e).2) := by
  refine ⟨fun driverText t ht => ?_, fun e e' => internal_sealed⟩
  -- neither asks for a status, which is 500 then
  have houtline : (ErrorHandler.outline (t.value driverText)).1 = 500 := by
    cases t with
    | app e => exact absurd rfl (ht e)
    | query code => rfl
    | error message => rfl
  rw [error_of_internal (Nat.le_of_eq houtline.symm), houtline]
  cases t with
  | app e => exact absurd rfl (ht e)
  | query code => rfl
  | error message => rfl

/-- A violated constraint of the database and a queue that cannot be reached look the same; two
refusals do not. -/
theorem failures_sealed_sample :
    ErrorHandler.error true false "/bookings" none
      ((Thrown.error "Connection is closed.").value id) =
        ErrorHandler.error true false "/bookings" none ((Thrown.query uniqueViolation).value id) ∧
      ErrorHandler.error true false "/bookings" none
        ((Thrown.app (.notFound "Customer not found")).value id) ≠
        ErrorHandler.error true false "/bookings" none
          ((Thrown.app (.notFound "Service not found")).value id) := by
  obtain ⟨hinternal, htold⟩ := failures_sealed "/bookings" none
  constructor
  · rw [hinternal, hinternal]
    · intro e h
      cases h
    · intro e h
      cases h
  · -- equal documents would make the two refusals equal
    intro hsame
    let refusal (message : String) : ThrownValue := (Thrown.app (.notFound message)).value id
    rcases (htold (refusal "Service not found") (refusal "Customer not found") rfl rfl).1
      hsame with h | h
    · exact absurd h (by decide)
    · have htexts : "Customer not found" = "Service not found" := congrArg Prod.snd h
      exact absurd htexts (by decide)

end BookingPlatform
