import BookingPlatform.Reporting.Service

/-!
# Conservation of Reports

No booking and no amount is lost or counted twice: whatever a report is grouped by, its rows add up
to the bookings that the query selects, and two adjacent reports add up to the report of both
ranges.

## Main definitions

- `Selected`: the bookings that a query is about.
- `ReportsConserve`: the sums over the rows of a report, and over adjacent reports.

## Main results

- `reports_conserve`: the reports of every finite set of bookings conserve them.
-/

namespace BookingPlatform

open Library

/-! ## The bookings of a query -/

/-- A live booking of the tenant that starts in the range and passes the filters. -/
structure Selected (tenantId : Uuid) (staffId serviceId : Option Uuid) (start stop : Instant)
    (b : StoredBooking) : Prop where
  tenant : b.tenantId = tenantId
  live : b.deletedAt = none
  after : start ≤ b.startsAt
  before : b.startsAt < stop
  staff : ∀ id, staffId = some id → b.staffId = id
  service : ∀ id, serviceId = some id → b.serviceId = id

/-- The bookings of the query, if its dates are the instants `start` and `stop`. -/
abbrev ReportQueryDto.Selects (query : ReportQueryDto) (tenantId : Uuid) (start stop : Instant)
    (b : StoredBooking) : Prop :=
  Selected tenantId query.staffId query.serviceId start stop b

/-- The local dates of the query are the instants `start` and `stop`. -/
structure SpansFrom (rt : ReportingRuntime) (timezone : String) (query : ReportQueryDto)
    (start stop : Instant) : Prop where
  start : ∃ t, rt.castTimestamp query.fromDate = .ok t ∧ rt.toInstant timezone t = start
  stop : ∃ t, rt.castTimestamp query.toDate = .ok t ∧ rt.toInstant timezone t = stop

section Queries

variable {rt : ReportingRuntime} {tenant : Tenant} {rows : List StoredBooking} {tenantId : Uuid}
  {query : ReportQueryDto} {start stop : Instant}

def ReportQueryDto.filters (query : ReportQueryDto) (timezone : String) : ReportFilters :=
  ⟨query.fromDate, query.toDate, timezone, query.staffId, query.serviceId⟩

theorem selected_iff {staffId serviceId : Option Uuid} {b : StoredBooking} :
    Selected tenantId staffId serviceId start stop b ↔
      b.tenantId = tenantId ∧ b.deletedAt = none ∧ start ≤ b.startsAt ∧ b.startsAt < stop ∧
        (∀ id ∈ staffId, b.staffId = id) ∧ ∀ id ∈ serviceId, b.serviceId = id :=
  ⟨fun h => ⟨h.tenant, h.live, h.after, h.before, h.staff, h.service⟩,
    fun ⟨h₁, h₂, h₃, h₄, h₅, h₆⟩ => ⟨h₁, h₂, h₃, h₄, h₅, h₆⟩⟩

instance (staffId serviceId : Option Uuid) (b : StoredBooking) :
    Decidable (Selected tenantId staffId serviceId start stop b) :=
  decidable_of_iff' _ selected_iff

/-- The base query finds the bookings that the query is about. -/
theorem baseQuery_eq :
    ReportingRepository.baseQuery rows tenantId (query.filters tenant.timezone) start stop =
      rows.filter (query.Selects tenantId start stop) := by
  refine List.filter_congr fun b _ => ?_
  rw [decide_eq_decide]
  exact selected_iff.symm

/-- A query that is accepted runs with the timezone of the tenant. -/
theorem run_eq_ok {α : Type} {exec : ReportFilters → Except Thrown α} {report : α} :
    ReportingService.run rt (some tenant) query exec = .ok report ↔
      ReportingService.inverted rt query = false ∧ ReportingService.oversized rt query = false ∧
        exec (query.filters tenant.timezone) = .ok report := by
  unfold ReportingService.run
  cases ReportingService.inverted rt query with
  | true => exact ⟨nofun, nofun⟩
  | false =>
    cases ReportingService.oversized rt query with
    | true => exact ⟨nofun, nofun⟩
    | false => exact ⟨fun h => ⟨rfl, rfl, h⟩, fun h => h.2.2⟩

theorem range_eq_ok {timezone : String} :
    ReportingRepository.range rt (query.filters timezone) = .ok (start, stop) ↔
      SpansFrom rt timezone query start stop := by
  unfold ReportingRepository.range ReportQueryDto.filters
  constructor
  · intro h
    split at h
    · rename_i t t' hstart hstop
      cases h
      exact ⟨⟨t, hstart, rfl⟩, ⟨t', hstop, rfl⟩⟩
    · cases h
    · cases h
  · rintro ⟨⟨t, hstart, rfl⟩, ⟨t', hstop, rfl⟩⟩
    simp [hstart, hstop]

/-- A report is what its query makes of the range. -/
theorem bind_range_eq_ok {β : Type} (f : Instant × Instant → β) {report : β} {timezone : String} :
    (ReportingRepository.range rt (query.filters timezone) >>= fun span =>
      .ok (f span)) = .ok report ↔
      ∃ start stop, SpansFrom rt timezone query start stop ∧ report = f (start, stop) := by
  constructor
  · intro h
    cases hrange : ReportingRepository.range rt (query.filters timezone) with
    | error e =>
      rw [hrange] at h
      cases h
    | ok span =>
      rw [hrange] at h
      cases h
      exact ⟨span.1, span.2, range_eq_ok.1 hrange, rfl⟩
  · rintro ⟨start, stop, hspan, rfl⟩
    rw [range_eq_ok.2 hspan]
    rfl

/-- The query passes the checks of its span. -/
def Accepted (rt : ReportingRuntime) (query : ReportQueryDto) : Prop :=
  ReportingService.inverted rt query = false ∧ ReportingService.oversized rt query = false

/-- The rows of a bookings report. -/
theorem bookings_eq_ok {report : List BookingBucketRow} :
    ReportingService.bookings rt (some tenant) rows tenantId query = .ok report ↔
      Accepted rt query ∧ ∃ start stop, SpansFrom rt tenant.timezone query start stop ∧
        report = selectGroups rt.collate (fun b => bucketExpr rt tenant.timezone b query.groupBy)
          ReportingRepository.bookingBucket (rows.filter (query.Selects tenantId start stop)) := by
  refine run_eq_ok.trans (and_assoc.symm.trans (and_congr_right fun _ => ?_))
  refine (bind_range_eq_ok fun span => selectGroups rt.collate
    (fun b => bucketExpr rt tenant.timezone b query.groupBy) ReportingRepository.bookingBucket
    (ReportingRepository.baseQuery rows tenantId
      (query.filters tenant.timezone) span.1 span.2)).trans ?_
  simp only [baseQuery_eq]

/-- The rows of a revenue report. -/
theorem revenue_eq_ok {report : List RevenueBucketRow} :
    ReportingService.revenue rt (some tenant) rows tenantId query = .ok report ↔
      Accepted rt query ∧ ∃ start stop, SpansFrom rt tenant.timezone query start stop ∧
        report = selectGroups (ReportingRepository.collatePair rt)
          (fun b => (bucketExpr rt tenant.timezone b query.groupBy, b.priceCurrency))
          ReportingRepository.revenueBucket
          ((rows.filter (query.Selects tenantId start stop)).filter (·.status = .completed)) := by
  refine run_eq_ok.trans (and_assoc.symm.trans (and_congr_right fun _ => ?_))
  refine (bind_range_eq_ok fun span => selectGroups (ReportingRepository.collatePair rt)
    (fun b => (bucketExpr rt tenant.timezone b query.groupBy, b.priceCurrency))
    ReportingRepository.revenueBucket
    ((ReportingRepository.baseQuery rows tenantId
      (query.filters tenant.timezone) span.1 span.2).filter
      (·.status ∈ revenueStatuses))).trans ?_
  simp only [baseQuery_eq, revenueStatuses, List.mem_singleton]

/-! ## Sums over one report -/

/-- The five statuses are all there are. -/
theorem countP_status (group : List StoredBooking) :
    group.length = group.countP (·.status = .pending) + group.countP (·.status = .confirmed) +
      group.countP (·.status = .completed) + group.countP (·.status = .cancelled) +
      group.countP (·.status = .noShow) := by
  induction group with
  | nil => rfl
  | cons b group ih =>
    simp only [List.length_cons, List.countP_cons, ih]
    cases b.status <;> simp <;> omega

theorem bookings_total {report : List BookingBucketRow}
    (h : ReportingService.bookings rt (some tenant) rows tenantId query = .ok report) :
    ∃ start stop, SpansFrom rt tenant.timezone query start stop ∧
      (report.map (·.total)).sum = rows.countP (query.Selects tenantId start stop) := by
  obtain ⟨-, start, stop, hspan, rfl⟩ := bookings_eq_ok.1 h
  refine ⟨start, stop, hspan, ?_⟩
  rw [selectGroups, List.map_map, List.countP_eq_length_filter]
  have hsum := sum_fibers (fun _ => 1) rt.collate
    (fun b => bucketExpr rt tenant.timezone b query.groupBy)
    (rows.filter (query.Selects tenantId start stop))
  simpa [Function.comp_def, ReportingRepository.bookingBucket] using hsum

theorem bookings_status {report : List BookingBucketRow}
    (h : ReportingService.bookings rt (some tenant) rows tenantId query = .ok report) :
    ∀ row ∈ report,
      row.total = row.pending + row.confirmed + row.completed + row.cancelled + row.noShow := by
  obtain ⟨-, start, stop, -, rfl⟩ := bookings_eq_ok.1 h
  intro row hrow
  obtain ⟨bucket, -, rfl⟩ := List.mem_map.1 hrow
  exact countP_status _

/-- The amounts of some bookings, without their signs. -/
def totalAmount (rows : List StoredBooking) : ℕ := (rows.map (·.priceAmount.natAbs)).sum

theorem natAbs_sum_le (rows : List StoredBooking) :
    Int.natAbs (rows.map (·.priceAmount)).sum ≤ totalAmount rows := by
  induction rows with
  | nil => exact Nat.le_refl 0
  | cons b rows ih =>
    simp only [totalAmount, List.map_cons, List.sum_cons] at ih ⊢
    omega

theorem totalAmount_le_of_sublist {rows' : List StoredBooking} (h : rows'.Sublist rows) :
    totalAmount rows' ≤ totalAmount rows := by
  induction h with
  | slnil => exact Nat.le_refl 0
  | cons b _ ih =>
    simp only [totalAmount, List.map_cons, List.sum_cons] at ih ⊢
    omega
  | cons_cons b _ ih =>
    simp only [totalAmount, List.map_cons, List.sum_cons] at ih ⊢
    omega

/-- The sums of the amounts are exact numbers. -/
theorem toNumber_sum {rows' : List StoredBooking} (h : rows'.Sublist rows)
    (hexact : totalAmount rows < 2 ^ 53) :
    toNumber (rows'.map (·.priceAmount)).sum = (rows'.map (·.priceAmount)).sum := by
  have hsmall := Nat.le_trans (natAbs_sum_le rows') (totalAmount_le_of_sublist h)
  exact if_pos (Nat.le_trans hsmall (Nat.le_of_lt hexact))

theorem revenue_total {report : List RevenueBucketRow} (hexact : totalAmount rows < 2 ^ 53)
    (h : ReportingService.revenue rt (some tenant) rows tenantId query = .ok report) :
    ∃ start stop, SpansFrom rt tenant.timezone query start stop ∧ ∀ currency,
      ((report.filter (·.currency = some currency)).map (·.amount)).sum =
        ((rows.filter fun b => query.Selects tenantId start stop b ∧ b.status = .completed ∧
          b.priceCurrency = currency).map (·.priceAmount)).sum := by
  obtain ⟨-, start, stop, hspan, rfl⟩ := revenue_eq_ok.1 h
  refine ⟨start, stop, hspan, fun currency => ?_⟩
  -- the rows are grouped by label and currency: the groups of one currency are its keys
  let completed := (rows.filter (query.Selects tenantId start stop)).filter (·.status = .completed)
  let key := fun b : StoredBooking =>
    (bucketExpr rt tenant.timezone b query.groupBy, b.priceCurrency)
  let keys := (groupKeys (ReportingRepository.collatePair rt) key completed).filter (·.2 = currency)
  have hsublist : completed.Sublist rows := List.filter_sublist.trans List.filter_sublist
  calc (((selectGroups (ReportingRepository.collatePair rt) key ReportingRepository.revenueBucket
        completed).filter (·.currency = some currency)).map (·.amount)).sum
    _ = (keys.map fun k => toNumber ((fiber key completed k).map (·.priceAmount)).sum).sum := by
      simp [selectGroups, List.filter_map, Function.comp_def,
        ReportingRepository.revenueBucket, keys]
    _ = (keys.map fun k => ((fiber key completed k).map (·.priceAmount)).sum).sum := by
      -- each sum is small enough to be exact as a number
      congr 1
      refine List.map_congr_left fun k _ => toNumber_sum ?_ hexact
      exact List.filter_sublist.trans hsublist
    _ = ((completed.filter fun b => (key b).2 = currency).map (·.priceAmount)).sum :=
      sum_fibers_filter (·.priceAmount) _ key completed (·.2 = currency)
    _ = _ := by
      simp only [completed, key, List.filter_filter]
      congr 2
      refine List.filter_congr fun b _ => ?_
      simp only [Bool.decide_and]
      cases decide (query.Selects tenantId start stop b) <;> cases decide
        (b.status = .completed) <;>
        cases decide (b.priceCurrency = currency) <;> rfl

/-! ## Adjacent reports -/

/-- The bookings of a range are those of its two parts. -/
theorem selected_perm {staffId serviceId : Option Uuid} {mid : Instant} (hstart : start ≤ mid)
    (hstop : mid ≤ stop) (rows : List StoredBooking) :
    (rows.filter (Selected tenantId staffId serviceId start stop)).Perm
      (rows.filter (Selected tenantId staffId serviceId start mid) ++
        rows.filter (Selected tenantId staffId serviceId mid stop)) := by
  refine filter_perm_append (fun b _ => ?_) fun b _ hleft => ?_
  · rw [← Bool.decide_or, decide_eq_decide]
    constructor
    · intro h
      by_cases hmid : b.startsAt < mid
      · exact .inl { h with before := hmid }
      · exact .inr { h with after := Int.not_lt.1 hmid }
    · rintro (h | h)
      · exact { h with before := Int.lt_of_lt_of_le h.before hstop }
      · exact { h with after := Int.le_trans hstart h.after }
  · have hbefore : b.startsAt < mid := (of_decide_eq_true hleft).before
    exact decide_eq_false fun hright => Int.not_lt.2 hright.after hbefore

/-- The sum of two rows of a bucket. -/
def BookingBucketRow.add (row row' : BookingBucketRow) : BookingBucketRow where
  bucket := row.bucket
  total := row.total + row'.total
  pending := row.pending + row'.pending
  confirmed := row.confirmed + row'.confirmed
  completed := row.completed + row'.completed
  cancelled := row.cancelled + row'.cancelled
  noShow := row.noShow + row'.noShow

/-- The row of a bucket; a bucket without bookings has none and counts as zero. -/
def bucketRow (report : List BookingBucketRow) (bucket : String) : BookingBucketRow :=
  (report.find? (·.bucket = bucket)).getD ⟨bucket, 0, 0, 0, 0, 0, 0⟩

/-- The bucket and the currency of a row. -/
def RevenueBucketRow.key (row : RevenueBucketRow) : String × Option String :=
  (row.bucket, row.currency)

/-- The amount of a bucket in a currency. -/
def bucketAmount (report : List RevenueBucketRow) (bucket currency : String) : ℤ :=
  ((report.find? (·.key = (bucket, some currency))).map (·.amount)).getD 0

/-- The bookings report has the buckets and the sums of the two others. -/
structure BookingsAddUp (report left right : List BookingBucketRow) : Prop where
  buckets : ∀ bucket, (∃ row ∈ report, row.bucket = bucket) ↔
    (∃ row ∈ left, row.bucket = bucket) ∨ ∃ row ∈ right, row.bucket = bucket
  counts : ∀ bucket, bucketRow report bucket = (bucketRow left bucket).add (bucketRow right bucket)

/-- The revenue report has the buckets and the sums of the two others. -/
structure RevenueAddsUp (report left right : List RevenueBucketRow) : Prop where
  buckets : ∀ key, (∃ row ∈ report, row.key = key) ↔
    (∃ row ∈ left, row.key = key) ∨ ∃ row ∈ right, row.key = key
  amounts : ∀ bucket currency, bucketAmount report bucket currency =
    bucketAmount left bucket currency + bucketAmount right bucket currency

theorem bookingBucket_bucket (bucket : String) (group : List StoredBooking) :
    (ReportingRepository.bookingBucket bucket group).bucket = id bucket := rfl

theorem bookingBucket_add {bucket : String} {group left right : List StoredBooking}
    (h : group.Perm (left ++ right)) : ReportingRepository.bookingBucket bucket group =
      (ReportingRepository.bookingBucket bucket left).add
        (ReportingRepository.bookingBucket bucket right) := by
  simp [ReportingRepository.bookingBucket, BookingBucketRow.add, h.length_eq, h.countP_eq]

section Groups

variable {key : StoredBooking → String} {group left right : List StoredBooking}

theorem bucketRow_selectGroups (le : String → String → Bool) (group : List StoredBooking)
    (bucket : String) :
    bucketRow (selectGroups le key ReportingRepository.bookingBucket group) bucket =
      ReportingRepository.bookingBucket bucket (fiber key group bucket) := by
  change ((selectGroups le key ReportingRepository.bookingBucket group).find?
    (·.bucket = id bucket)).getD _ = _
  rw [find_selectGroups bookingBucket_bucket Function.injective_id]
  split
  · rfl
  · rename_i hnone
    rw [fiber_eq_nil hnone]
    rfl

theorem bookingsAddUp (le : String → String → Bool) (h : group.Perm (left ++ right)) :
    BookingsAddUp (selectGroups le key ReportingRepository.bookingBucket group)
      (selectGroups le key ReportingRepository.bookingBucket left)
      (selectGroups le key ReportingRepository.bookingBucket right) where
  buckets bucket := by
    have hbuckets : ∀ group : List StoredBooking,
        (∃ row ∈ selectGroups le key ReportingRepository.bookingBucket group, row.bucket = bucket) ↔
          ∃ b ∈ group, key b = bucket :=
      fun group => exists_selectGroups bookingBucket_bucket bucket
    simp only [hbuckets, h.mem_iff, List.mem_append, or_and_right, exists_or]
  counts bucket := by
    simp only [bucketRow_selectGroups]
    refine bookingBucket_add ?_
    rw [← fiber_append]
    exact h.filter _

end Groups

section Revenue

variable {key : StoredBooking → String × String} {group left right : List StoredBooking}

/-- The key of a row of the group `k`. -/
def currencyKey (k : String × String) : String × Option String := (k.1, some k.2)

theorem currencyKey_injective : Function.Injective currencyKey := by
  rintro ⟨bucket, currency⟩ ⟨bucket', currency'⟩ h
  simpa [currencyKey] using h

theorem revenueBucket_key (k : String × String) (group : List StoredBooking) :
    (ReportingRepository.revenueBucket k group).key = currencyKey k := rfl

theorem bucketAmount_selectGroups (le : String × String → String × String → Bool)
    (hexact : totalAmount group < 2 ^ 53) (bucket currency : String) :
    bucketAmount (selectGroups le key ReportingRepository.revenueBucket group) bucket currency =
      ((fiber key group (bucket, currency)).map (·.priceAmount)).sum := by
  change (((selectGroups le key ReportingRepository.revenueBucket group).find?
    (·.key = currencyKey (bucket, currency))).map (·.amount)).getD 0 = _
  rw [find_selectGroups revenueBucket_key currencyKey_injective]
  split
  · exact toNumber_sum List.filter_sublist hexact
  · rename_i hnone
    rw [fiber_eq_nil hnone]
    rfl

theorem revenueAddsUp (le : String × String → String × String → Bool)
    (h : group.Perm (left ++ right)) (hexact : totalAmount group < 2 ^ 53) :
    RevenueAddsUp (selectGroups le key ReportingRepository.revenueBucket group)
      (selectGroups le key ReportingRepository.revenueBucket left)
      (selectGroups le key ReportingRepository.revenueBucket right) where
  buckets name := by
    have hbuckets : ∀ group : List StoredBooking,
        (∃ row ∈ selectGroups le key ReportingRepository.revenueBucket group, row.key = name) ↔
          ∃ b ∈ group, currencyKey (key b) = name :=
      fun group => exists_selectGroups revenueBucket_key name
    simp only [hbuckets, h.mem_iff, List.mem_append, or_and_right, exists_or]
  amounts bucket currency := by
    have htotal : totalAmount group = totalAmount left + totalAmount right := by
      rw [totalAmount, (h.map _).sum_eq, List.map_append, List.sum_append]
      rfl
    rw [bucketAmount_selectGroups le hexact, bucketAmount_selectGroups le (by omega),
      bucketAmount_selectGroups le (by omega), ← List.sum_append, ← List.map_append, ← fiber_append]
    exact ((h.filter _).map _).sum_eq

end Revenue

end Queries

/-! ## Conservation -/

/-- Dates in order, at most one year apart, whose local midnights are increasing instants. -/
structure AdjacentDates (rt : ReportingRuntime) (timezone : String) (a b c : String) : Prop where
  dates : ∃ i j k, rt.parseDate a = some i ∧ rt.parseDate b = some j ∧ rt.parseDate c = some k ∧
    i < j ∧ j < k ∧ k - i ≤ reportMaxRangeMs
  midnights : ∃ i j k, rt.castTimestamp a = .ok i ∧ rt.castTimestamp b = .ok j ∧
    rt.castTimestamp c = .ok k ∧ rt.toInstant timezone i < rt.toInstant timezone j ∧
    rt.toInstant timezone j < rt.toInstant timezone k

/-- What the reports of a tenant add up to. -/
structure ReportsConserve (rt : ReportingRuntime) (tenant : Tenant) (rows : List StoredBooking)
    (tenantId : Uuid) : Prop where
  totals : ∀ query report,
    ReportingService.bookings rt (some tenant) rows tenantId query = .ok report →
    ∃ start stop, SpansFrom rt tenant.timezone query start stop ∧
      (report.map (·.total)).sum = rows.countP (query.Selects tenantId start stop)
  statuses : ∀ query report,
    ReportingService.bookings rt (some tenant) rows tenantId query = .ok report →
    ∀ row ∈ report, row.total =
      row.pending + row.confirmed + row.completed + row.cancelled + row.noShow
  revenue : ∀ query report,
    ReportingService.revenue rt (some tenant) rows tenantId query = .ok report →
    ∃ start stop, SpansFrom rt tenant.timezone query start stop ∧ ∀ currency,
      ((report.filter (·.currency = some currency)).map (·.amount)).sum =
        ((rows.filter fun b => query.Selects tenantId start stop b ∧ b.status = .completed ∧
          b.priceCurrency = currency).map (·.priceAmount)).sum
  adjacentBookings : ∀ query date,
    AdjacentDates rt tenant.timezone query.fromDate date query.toDate →
    ∃ report left right, ReportingService.bookings rt
      (some tenant) rows tenantId query = .ok report ∧
      ReportingService.bookings rt (some tenant) rows tenantId
        { query with toDate := date } = .ok left ∧
      ReportingService.bookings rt (some tenant) rows tenantId
        { query with fromDate := date } = .ok right ∧
      BookingsAddUp report left right
  adjacentRevenue : ∀ query date,
    AdjacentDates rt tenant.timezone query.fromDate date query.toDate →
    ∃ report left right, ReportingService.revenue rt
      (some tenant) rows tenantId query = .ok report ∧
      ReportingService.revenue rt (some tenant) rows tenantId
        { query with toDate := date } = .ok left ∧
      ReportingService.revenue rt (some tenant) rows tenantId
        { query with fromDate := date } = .ok right ∧
      RevenueAddsUp report left right

section Adjacent

variable {rt : ReportingRuntime} {tenant : Tenant} {rows : List StoredBooking} {tenantId : Uuid}
  {query : ReportQueryDto} {date : String}

/-- A query whose dates are in order and at most one year apart is accepted. -/
theorem accepted_of_dates {i j : Instant} (hfrom : rt.parseDate query.fromDate = some i)
    (hto : rt.parseDate query.toDate = some j) (horder : i < j) (hspan : j - i ≤ reportMaxRangeMs) :
    Accepted rt query := by
  unfold Accepted ReportingService.inverted ReportingService.oversized
  rw [hfrom, hto]
  exact ⟨decide_eq_false (Int.not_le.2 horder), decide_eq_false (Int.not_lt.2 hspan)⟩

/-- The three ranges of adjacent dates. -/
theorem AdjacentDates.spans
    (h : AdjacentDates rt tenant.timezone query.fromDate date query.toDate) :
    Accepted rt query ∧ Accepted rt { query with toDate := date } ∧
      Accepted rt { query with fromDate := date } ∧
      ∃ start mid stop, start ≤ mid ∧ mid ≤ stop ∧ SpansFrom rt tenant.timezone query start stop ∧
        SpansFrom rt tenant.timezone { query with toDate := date } start mid ∧
        SpansFrom rt tenant.timezone { query with fromDate := date } mid stop := by
  obtain ⟨⟨i, j, k, hi, hj, hk, hij, hjk, hik⟩, i', j', k', hi', hj', hk', hij', hjk'⟩ := h
  have hleft : j - i ≤ reportMaxRangeMs :=
    Int.le_trans (Int.sub_le_sub_right (Int.le_of_lt hjk) i) hik
  have hright : k - j ≤ reportMaxRangeMs :=
    Int.le_trans (Int.sub_le_sub_left (Int.le_of_lt hij) k) hik
  refine ⟨accepted_of_dates hi hk (Int.lt_trans hij hjk) hik, accepted_of_dates hi hj hij hleft,
    accepted_of_dates hj hk hjk hright, _, _, _, Int.le_of_lt hij', Int.le_of_lt hjk', ?_, ?_, ?_⟩
  · exact ⟨⟨i', hi', rfl⟩, ⟨k', hk', rfl⟩⟩
  · exact ⟨⟨i', hi', rfl⟩, ⟨j', hj', rfl⟩⟩
  · exact ⟨⟨j', hj', rfl⟩, ⟨k', hk', rfl⟩⟩

end Adjacent

/-- The reports conserve every finite set of bookings whose amounts sum below 2^53. -/
theorem reports_conserve (rt : ReportingRuntime) (tenant : Tenant) {rows : List StoredBooking}
    (tenantId : Uuid) (hexact : totalAmount rows < 2 ^ 53) :
    ReportsConserve rt tenant rows tenantId where
  totals _ _ h := bookings_total h
  statuses _ _ h := bookings_status h
  revenue _ _ h := revenue_total hexact h
  adjacentBookings query date h := by
    obtain ⟨haccepted, hleft, hright, start, mid, stop, hstart, hstop, hspan, hspanl, hspanr⟩ :=
      h.spans
    refine ⟨_, _, _, bookings_eq_ok.2 ⟨haccepted, start, stop, hspan, rfl⟩,
      bookings_eq_ok.2 ⟨hleft, start, mid, hspanl, rfl⟩,
      bookings_eq_ok.2 ⟨hright, mid, stop, hspanr, rfl⟩, ?_⟩
    exact bookingsAddUp rt.collate (selected_perm hstart hstop rows)
  adjacentRevenue query date h := by
    obtain ⟨haccepted, hleft, hright, start, mid, stop, hstart, hstop, hspan, hspanl, hspanr⟩ :=
      h.spans
    refine ⟨_, _, _, revenue_eq_ok.2 ⟨haccepted, start, stop, hspan, rfl⟩,
      revenue_eq_ok.2 ⟨hleft, start, mid, hspanl, rfl⟩,
      revenue_eq_ok.2 ⟨hright, mid, stop, hspanr, rfl⟩, ?_⟩
    -- the bookings of the whole range are those of its two parts
    have hperm : (rows.filter (query.Selects tenantId start stop)).Perm
        (rows.filter (query.Selects tenantId start mid) ++ rows.filter
          (query.Selects tenantId mid stop)) :=
      selected_perm hstart hstop rows
    have hcompleted := hperm.filter (·.status = .completed)
    rw [List.filter_append] at hcompleted
    refine revenueAddsUp (ReportingRepository.collatePair rt) hcompleted ?_
    exact Nat.lt_of_le_of_lt
      (totalAmount_le_of_sublist (List.filter_sublist.trans List.filter_sublist)) hexact

/-! ## Sample bookings -/

def sampleReporting : ReportingRuntime where
  parseDate s := s.toInt?.map (· * dayMs)
  castTimestamp s := s.toInt?.elim (.error "22007") fun n => .ok (n * dayMs)
  toInstant _ t := t
  toLocal _ t := t
  uuidText id := toString id
  collate s s' := s ≤ s'

def sampleBookings : List StoredBooking :=
  [⟨⟨1, 1, 1, 1, 1, 0, 1000, .completed, 100000, "VND", none, 3⟩, none⟩,
    ⟨⟨2, 1, 1, 1, 1, 2000, 3000, .pending, 100000, "VND", none, 1⟩, none⟩,
    ⟨⟨3, 2, 2, 2, 2, 0, 1000, .completed, 700, "EUR", none, 1⟩, none⟩]

theorem reports_conserve_sampleBookings :
    ReportsConserve sampleReporting ⟨"UTC"⟩ sampleBookings 1 :=
  reports_conserve sampleReporting ⟨"UTC"⟩ 1 (by decide)

end BookingPlatform
