import BookingPlatform.Reporting.Conservation
import BookingPlatform.Reporting.LocalDates

/-!
# Validation of Report Queries

The span of a query is validated with JavaScript's dates, and queried with the database's. Both
checks are comparisons, which a date that JavaScript cannot parse passes, so that the scan is
bounded exactly for the queries whose dates it can parse.

## Main definitions

- `ReportQueryDto.InRange`: the spans that are to be queried.
- `SpanChecked`: only these are queried, and the others are validation errors.

## Main results

- `spanChecked_iff`: the spans are checked exactly where both dates denote instants.
- `queried_of_not_dated`: every other query of a tenant gets to the repository.
-/

namespace BookingPlatform

open Library ReportingService

/-! ## Spans -/

/-- Both dates denote instants for JavaScript, of which the later one is at most a year after the
other one. -/
def ReportQueryDto.InRange (rt : ReportingRuntime) (query : ReportQueryDto) : Prop :=
  ∃ start stop, rt.parseDate query.fromDate = some start ∧ rt.parseDate query.toDate = some stop ∧
    start < stop ∧ stop - start ≤ reportMaxRangeMs

/-- Both dates denote instants for JavaScript. -/
def ReportQueryDto.Dated (rt : ReportingRuntime) (query : ReportQueryDto) : Prop :=
  (∃ start, rt.parseDate query.fromDate = some start) ∧
  ∃ stop, rt.parseDate query.toDate = some stop

/-- The query gets to the repository: its answer is that of the repository, whatever is queried
there. -/
def Queried (rt : ReportingRuntime) (tenant : Option Tenant) (query : ReportQueryDto) : Prop :=
  ∃ filters, ∀ (α : Type) (exec : ReportFilters → Except Thrown α),
    run rt tenant query exec = exec filters

/-- A validation error. -/
def Invalid {α : Type} (answer : Except Thrown α) : Prop :=
  ∃ message, answer = .error (.app (.validation message))

/-- The reports query the repository for spans in the range only, and refuse all others. -/
structure SpanChecked (rt : ReportingRuntime) (tenant : Option Tenant) (rows : List StoredBooking)
    (tenantId : Uuid) (query : ReportQueryDto) : Prop where
  queried : Queried rt tenant query → query.InRange rt
  bookings : ¬query.InRange rt → Invalid (ReportingService.bookings rt tenant rows tenantId query)
  revenue : ¬query.InRange rt → Invalid (ReportingService.revenue rt tenant rows tenantId query)

/-! ## The checks -/

section Checks

variable {rt : ReportingRuntime} {tenant : Option Tenant} {rows : List StoredBooking}
  {tenantId : Uuid} {query : ReportQueryDto} {α : Type} {exec : ReportFilters → Except Thrown α}

theorem ReportQueryDto.InRange.dated (h : query.InRange rt) : query.Dated rt := by
  obtain ⟨start, stop, hstart, hstop, -⟩ := h
  exact ⟨⟨start, hstart⟩, stop, hstop⟩

/-- Of dates that denote instants, the checks accept those in the range. -/
theorem accepted_iff_inRange (hdated : query.Dated rt) : Accepted rt query ↔ query.InRange rt := by
  obtain ⟨⟨start, hstart⟩, stop, hstop⟩ := hdated
  constructor
  · intro haccepted
    unfold Accepted inverted oversized at haccepted
    rw [hstart, hstop] at haccepted
    obtain ⟨hordered, hbounded⟩ := haccepted
    have horder : start < stop := Int.not_le.1 (of_decide_eq_false hordered)
    have hspan : stop - start ≤ reportMaxRangeMs := Int.not_lt.1 (of_decide_eq_false hbounded)
    exact ⟨start, stop, hstart, hstop, horder, hspan⟩
  · rintro ⟨start', stop', hstart', hstop', horder, hspan⟩
    exact accepted_of_dates hstart' hstop' horder hspan

/-- A comparison with an invalid date is false, and so neither check refuses it. -/
theorem accepted_of_not_dated (h : ¬query.Dated rt) : Accepted rt query := by
  unfold Accepted inverted oversized
  cases hstart : rt.parseDate query.fromDate with
  | none => exact ⟨rfl, rfl⟩
  | some start =>
    cases hstop : rt.parseDate query.toDate with
    | none => exact ⟨rfl, rfl⟩
    | some stop => exact absurd ⟨⟨start, hstart⟩, stop, hstop⟩ h

/-- What is refused is refused with a validation error, before the tenant is read. -/
theorem invalid_run (h : ¬Accepted rt query) : Invalid (run rt tenant query exec) := by
  unfold run
  cases hinverted : inverted rt query with
  | true => exact ⟨_, rfl⟩
  | false =>
    cases hoversized : oversized rt query with
    | true => exact ⟨_, rfl⟩
    | false => exact absurd ⟨hinverted, hoversized⟩ h

theorem run_of_accepted (h : Accepted rt query) : run rt tenant query exec =
    match tenant with
    | none => .error (.app (.notFound "Tenant not found"))
    | some tenant => exec (query.filters tenant.timezone) := by
  unfold run
  rw [h.1, h.2]
  cases tenant <;> rfl

/-- A query that is accepted throws no validation error of its own. -/
theorem invalid_of_accepted (h : Accepted rt query)
    (hinvalid : Invalid (run rt tenant query exec)) :
    ∃ filters, Invalid (exec filters) := by
  rw [run_of_accepted h] at hinvalid
  cases tenant with
  | none =>
    obtain ⟨message, hmessage⟩ := hinvalid
    cases hmessage
  | some tenant => exact ⟨_, hinvalid⟩

theorem not_queried_of_invalid (h : ¬Accepted rt query) : ¬Queried rt tenant query := by
  rintro ⟨filters, hexec⟩
  have hinvalid : Invalid (run rt tenant query
      (Except.ok : ReportFilters → Except Thrown ReportFilters)) :=
    invalid_run h
  rw [hexec] at hinvalid
  obtain ⟨message, hmessage⟩ := hinvalid
  cases hmessage

/-- A date that denotes no instant leaves the scan of the repository without a bound. -/
theorem queried_of_not_dated (tenant : Tenant) (h : ¬query.Dated rt) :
    Queried rt (some tenant) query := by
  have haccepted := accepted_of_not_dated h
  exact ⟨query.filters tenant.timezone, fun α exec => run_of_accepted haccepted⟩

/-- The repository throws errors of the database only. -/
theorem not_invalid_bookings {groupBy : ReportGroupBy} {filters : ReportFilters} :
    ¬Invalid (ReportingRepository.bookings rt rows tenantId groupBy filters) := by
  rintro ⟨message, hmessage⟩
  unfold ReportingRepository.bookings ReportingRepository.range at hmessage
  split at hmessage <;> cases hmessage

/-- The spans are checked exactly for the queries whose dates denote instants for JavaScript. -/
theorem spanChecked_iff (rt : ReportingRuntime) (tenant : Option Tenant) (rows : List StoredBooking)
    (tenantId : Uuid) (query : ReportQueryDto) :
    SpanChecked rt tenant rows tenantId query ↔ query.Dated rt := by
  constructor
  · intro hchecked
    by_contra hdated
    -- the query is out of range, but accepted
    have hinvalid := hchecked.bookings fun hrange => hdated hrange.dated
    obtain ⟨filters, hthrown⟩ := invalid_of_accepted (accepted_of_not_dated hdated) hinvalid
    exact not_invalid_bookings hthrown
  · intro hdated
    have haccepted := accepted_iff_inRange hdated
    have hrefused : ¬query.InRange rt → ¬Accepted rt query := fun hrange h => hrange (haccepted.1 h)
    constructor
    · intro hqueried
      by_contra hrange
      exact not_queried_of_invalid (hrefused hrange) hqueried
    · intro hrange
      exact invalid_run (hrefused hrange)
    · intro hrange
      exact invalid_run (hrefused hrange)

end Checks

/-! ## Dates in the basic form -/

/-- A date in the basic form, `YYYYMMDD`. -/
def readBasic (text : String) : Option CivilDate :=
  match text.toList with
  | [y₀, y₁, y₂, y₃, m₀, m₁, d₀, d₁] =>
    readDate (String.ofList [y₀, y₁, y₂, y₃, '-', m₀, m₁, '-', d₀, d₁])
  | _ => none

/-- The calendar dates of ISO 8601, in the extended or the basic form. -/
def isCalendarDate (text : String) : Bool := (readDate text).isSome || (readBasic text).isSome

/-- The extended form is a date for JavaScript and for the database, and the basic form for the
database only. -/
def utcReporting : ReportingRuntime where
  parseDate text := (isoDay text).map (· * dayMs)
  castTimestamp text :=
    ((readDate text).orElse fun _ => readBasic text).elim (.error "22007") fun c =>
      .ok (c.epochDay * dayMs)
  toInstant _ l := l
  toLocal _ t := t
  uuidText id := toString id
  collate s s' := s ≤ s'

def basicQuery : ReportQueryDto := ⟨"20260101", "20990101", .day, none, none⟩

/-- The query of a century is admitted and not refused. -/
theorem basicForm_not_checked :
    ¬∀ (rt : ReportingRuntime) (isISO8601 : String → Bool) (tenant : Option Tenant)
      (rows : List StoredBooking) (tenantId : Uuid) (query : ReportQueryDto),
      isISO8601 query.fromDate → isISO8601 query.toDate →
      SpanChecked rt tenant rows tenantId query := by
  intro hall
  have hfrom : isCalendarDate basicQuery.fromDate = true := by decide +kernel
  have hto : isCalendarDate basicQuery.toDate = true := by decide +kernel
  have hchecked := hall utcReporting isCalendarDate (some ⟨"UTC"⟩) [] 1 basicQuery hfrom hto
  obtain ⟨⟨start, hstart⟩, -⟩ :=
    (spanChecked_iff utcReporting (some ⟨"UTC"⟩) [] 1 basicQuery).1 hchecked
  have hunparsed : utcReporting.parseDate basicQuery.fromDate = none := by decide +kernel
  rw [hunparsed] at hstart
  cases hstart

end BookingPlatform
