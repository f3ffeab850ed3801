import BookingPlatform.Library.Runs
import BookingPlatform.Library.Program
import BookingPlatform.Library.Server
import BookingPlatform.Library.RowLog
import BookingPlatform.Common.Types
import BookingPlatform.Booking.StateMachine
import BookingPlatform.Booking.Statements
import BookingPlatform.Booking.Service
import BookingPlatform.Booking.Database
import BookingPlatform.Library.Schedule
import BookingPlatform.Booking.Writes
import BookingPlatform.Booking.Specs
import BookingPlatform.Booking.Footprints
import BookingPlatform.Booking.Replay
import BookingPlatform.Booking.Lifecycle
import BookingPlatform.Booking.Events
import BookingPlatform.Booking.Attempt
import BookingPlatform.Library.Solo
import BookingPlatform.Booking.Retry
import BookingPlatform.Booking.KeyInvariant
import BookingPlatform.Booking.Idempotency
import BookingPlatform.Common.Sql
import BookingPlatform.RefreshToken.Service
import BookingPlatform.RefreshToken.Rotation
import BookingPlatform.RefreshToken.TheftResponse
import BookingPlatform.Outbox.Service
import BookingPlatform.Outbox.Store
import BookingPlatform.Outbox.Batch
import BookingPlatform.Outbox.Relay
import BookingPlatform.Outbox.Safety
import BookingPlatform.Outbox.Dispatch
import BookingPlatform.Subscription.Domain
import BookingPlatform.Staff.Service
import BookingPlatform.Staff.Store
import BookingPlatform.Staff.Limit
import BookingPlatform.Library.Counting
import BookingPlatform.RefreshToken.Chain
import BookingPlatform.Subscription.Webhook
import BookingPlatform.Subscription.Store
import BookingPlatform.Subscription.Delivery
import BookingPlatform.Subscription.Atomicity
import BookingPlatform.Subscription.Safety
import BookingPlatform.Subscription.Providers
import BookingPlatform.Library.Interference
import BookingPlatform.Invite.Service
import BookingPlatform.Invite.SingleUse
import BookingPlatform.Auth.Service
import BookingPlatform.Auth.Google
import BookingPlatform.Auth.Continuity
import BookingPlatform.Library.Grouping
import BookingPlatform.Reporting.Service
import BookingPlatform.Reporting.Conservation
import BookingPlatform.Library.Store
import BookingPlatform.Platform.Tables
import BookingPlatform.Library.Zone
import BookingPlatform.Platform.Statements
import BookingPlatform.Platform.Repository
import BookingPlatform.Platform.Directory
import BookingPlatform.Platform.Schedule
import BookingPlatform.Availability.Service
import BookingPlatform.Availability.Bookable
import BookingPlatform.Availability.Placement
import BookingPlatform.Availability.Agreement
import BookingPlatform.Availability.Separation
import BookingPlatform.Library.Session
import BookingPlatform.Platform.Transaction
import BookingPlatform.Booking.Sessions
import BookingPlatform.Booking.Acceptance
import BookingPlatform.Library.Calendar
import BookingPlatform.Library.Scan
import BookingPlatform.Recurrence.Expander
import BookingPlatform.Recurrence.Dates
import BookingPlatform.Recurrence.Series
import BookingPlatform.Reporting.LocalDates
import BookingPlatform.Staff.Eligibility
import BookingPlatform.Library.JsString
import BookingPlatform.Payment.Signatures
import BookingPlatform.Payment.Events
import BookingPlatform.Library.Loop
import BookingPlatform.Availability.Slicing
import BookingPlatform.Library.IpAddress
import BookingPlatform.Reporting.Validation
import BookingPlatform.Webhook.Url
import BookingPlatform.Recurrence.Anchoring
import BookingPlatform.Tenant.Request
import BookingPlatform.Tenant.Release
import BookingPlatform.Tenant.Atomicity
import BookingPlatform.Library.StoreServer
import BookingPlatform.Library.References
import BookingPlatform.Library.Integrity
import BookingPlatform.Platform.Billing
import BookingPlatform.Platform.Calls
import BookingPlatform.Platform.References
import BookingPlatform.Platform.Scoping
import BookingPlatform.Platform.Integrity
import BookingPlatform.Library.Confinement
import BookingPlatform.Platform.Confinement
import BookingPlatform.Library.Owners
import BookingPlatform.Platform.Isolation
import BookingPlatform.Library.Inserts
import BookingPlatform.Library.Charter
import BookingPlatform.Admin.Console
import BookingPlatform.Admin.Audit
import BookingPlatform.Library.Observation
import BookingPlatform.Auth.Authority
import BookingPlatform.Jobs.Workers
import BookingPlatform.Jobs.Delivery
import BookingPlatform.Outbox.Progress
import BookingPlatform.Common.Problems
