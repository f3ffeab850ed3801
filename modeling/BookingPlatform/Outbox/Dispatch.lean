import BookingPlatform.Outbox.Safety
import Mathlib.Data.List.Count

/-!
# Jobs of an Event

The delivery function of the relay worker adds an email job and a webhook job under ids
derived from the event id. A queue ignores an id only while it stores a job under it, and
deletes a job when it completes, so that a redelivery is ignored if it comes before the
worker and not if it comes after.

## Main definitions

- `ProcessedOnce`: every event's jobs are processed at most once.

## Main results

- `processed_once`: they are, in every run in which no event is added to a queue again
  after its job there was processed.
- `redelivered_processedTwice`: a run in which they are not.
-/

namespace BookingPlatform

open Library

/-! ## What `dispatch` adds -/

/-- The email job of an event. -/
def emailJob (e : OutboxEvent) : QueuedJob where
  queue := .email
  data := .email
    { eventType := e.eventType, tenantId := e.tenantId,
      bookingId := e.payload.bookingId, customerId := e.payload.customerId }
  jobId := some (emailJobId e.id)
  removeOnComplete := true

/-- The webhook job of an event. -/
def webhookJob (e : OutboxEvent) : QueuedJob where
  queue := .webhook
  data := .webhook
    { tenantId := e.tenantId, eventType := e.eventType, aggregateType := e.aggregateType,
      aggregateId := e.aggregateId, data := e.payload }
  jobId := some (webhookJobId e.id)
  removeOnComplete := true

/-- The jobs of booking events. -/
def IsEventJob (job : QueuedJob) : Prop := ∃ e, job = emailJob e ∨ job = webhookJob e

/-- The only jobs that a statement adds are jobs of events. -/
def AddsEventJobs : RelayStatement → Prop
  | .add job => IsEventJob job
  | _ => True

theorem uses_dispatch (e : OutboxEvent) : (dispatch e).Uses AddsEventJobs := by
  have hadd : ∀ job, IsEventJob job → (Queue.add job).Uses AddsEventJobs := by
    intro job hjob
    refine Prog.Uses.bind (uses_execSql hjob) fun r => ?_
    cases r with
    | added => exact uses_pure _
    | failed stored => exact uses_throw _
  unfold dispatch
  split
  · exact uses_pure _
  · exact (hadd _ ⟨e, .inl rfl⟩).bind fun _ => hadd _ ⟨e, .inr rfl⟩

theorem uses_processEvents_dispatch (events : List OutboxEvent) (dispatched : ℕ) :
    (OutboxService.processEvents dispatch events dispatched).Uses AddsEventJobs := by
  induction events generalizing dispatched with
  | nil => exact uses_pure _
  | cons e events ih =>
    have hfailed : (OutboxRepository.markFailed e).Uses AddsEventJobs := by
      unfold OutboxRepository.markFailed
      dsimp only
      split
      · exact uses_execSql trivial
      · exact (uses_execSql trivial).bind fun _ => uses_execSql trivial
    -- an event adds its jobs, and a failure marks the event only
    have hevent : (OutboxService.processEvent dispatch e).Uses AddsEventJobs := by
      refine Prog.Uses.tryCatch ?_ fun _ => hfailed.bind fun _ => uses_pure _
      exact (uses_dispatch e).bind fun _ => (uses_execSql trivial).bind fun _ => uses_pure _
    refine hevent.bind fun ok => ?_
    cases ok
    · exact ih _
    · exact ih _

theorem uses_handleJob (q : RelayJob) : (handleJob dispatch q).Uses AddsEventJobs := by
  cases q with
  | work job => exact (uses_execSql trivial).bind fun _ => uses_pure _
  | batch batchSize =>
    have hbody : (do
        let events ← OutboxRepository.claimBatch batchSize
        OutboxService.processEvents dispatch events 0 : RelayM ℕ).Uses AddsEventJobs :=
      (uses_execSql trivial).bind fun events => uses_processEvents_dispatch events 0
    refine Prog.Uses.tryCatch ?_ fun error => ?_
    · exact hbody.bind fun _ => (uses_execSql trivial).bind fun _ => uses_pure _
    · refine Prog.Uses.bind ?_ fun _ => uses_throw _
      exact Prog.Uses.tryCatch (uses_execSql trivial) fun _ => uses_pure _

/-! ## Copies of a job -/

/-- The job is in this queue under this id. -/
def QueuedJob.isCopy (queue : QueueName) (jobId : String) (job : QueuedJob) : Bool :=
  job.queue = queue ∧ job.jobId = some jobId

theorem QueuedJob.isCopy_iff {queue : QueueName} {jobId : String} {job : QueuedJob} :
    job.isCopy queue jobId = true ↔ job.queue = queue ∧ job.jobId = some jobId :=
  decide_eq_true_iff

namespace Queues

variable (qs : Queues) (queue : QueueName) (jobId : String)

/-- How many jobs wait under an id. -/
def waitingCopies : ℕ := qs.waiting.countP (·.isCopy queue jobId)

/-- How many jobs have been processed under an id. -/
def processedCopies : ℕ := qs.processed.countP (·.isCopy queue jobId)

variable {qs queue jobId} {job : QueuedJob}

/-- No job waits under the id of a job that is not ignored. -/
theorem waitingCopies_eq_zero (h : ¬qs.Ignores job) (hcopy : job.isCopy queue jobId = true) :
    qs.waitingCopies queue jobId = 0 := by
  obtain ⟨hqueue, hid⟩ := QueuedJob.isCopy_iff.1 hcopy
  rw [waitingCopies, List.countP_eq_zero]
  intro job' hmem hcopy'
  obtain ⟨hqueue', hid'⟩ := QueuedJob.isCopy_iff.1 hcopy'
  refine h ⟨job', List.mem_append_left _ hmem, hqueue'.trans hqueue.symm, ?_, hid'.trans hid.symm⟩
  rw [hid]
  rfl

theorem processedCopies_eq_zero
    (hnew : ∀ job' ∈ qs.processed, job'.queue = job.queue → job'.jobId ≠ job.jobId)
    (hcopy : job.isCopy queue jobId = true) : qs.processedCopies queue jobId = 0 := by
  obtain ⟨hqueue, hid⟩ := QueuedJob.isCopy_iff.1 hcopy
  rw [processedCopies, List.countP_eq_zero]
  intro job' hmem hcopy'
  obtain ⟨hqueue', hid'⟩ := QueuedJob.isCopy_iff.1 hcopy'
  exact hnew job' hmem (hqueue'.trans hqueue.symm) (hid'.trans hid.symm)

/-- There is one copy of each job, waiting or processed, as long as none is added once it
has been processed. -/
theorem copies_add (hold : qs.waitingCopies queue jobId + qs.processedCopies queue jobId ≤ 1)
    (hnew : ∀ job' ∈ qs.processed, job'.queue = job.queue → job'.jobId ≠ job.jobId) :
    (qs.add job).waitingCopies queue jobId + (qs.add job).processedCopies queue jobId ≤ 1 := by
  unfold add
  split
  · exact hold
  · rename_i hstored
    -- no job with this id is stored, so that one more waits
    have hwaiting : ∀ qs' : Queues, qs'.waiting = qs.waiting ++ [job] →
        qs'.waitingCopies queue jobId =
          qs.waitingCopies queue jobId + if job.isCopy queue jobId then 1 else 0 := by
      intro qs' hqs
      rw [waitingCopies, hqs, List.countP_append, List.countP_singleton]
      rfl
    rw [hwaiting _ rfl]
    by_cases hcopy : job.isCopy queue jobId = true
    · -- a copy of the job: there is none yet, waiting or processed
      have hnone : qs.waitingCopies queue jobId = 0 := waitingCopies_eq_zero hstored hcopy
      have hunprocessed : qs.processedCopies queue jobId = 0 := processedCopies_eq_zero hnew hcopy
      rw [if_pos hcopy, hnone]
      exact Nat.add_le_add_left (Nat.le_of_eq hunprocessed) 1
    · rw [if_neg hcopy]
      exact hold

/-- Processing a job turns its waiting copy into a processed one. -/
theorem copies_complete (hmem : job ∈ qs.waiting) :
    (qs.complete job).waitingCopies queue jobId + (qs.complete job).processedCopies queue jobId =
      qs.waitingCopies queue jobId + qs.processedCopies queue jobId := by
  simp only [waitingCopies, processedCopies, complete, List.countP_erase, List.countP_cons, hmem,
    true_and]
  by_cases hcopy : job.isCopy queue jobId = true
  · have hpos : 0 < qs.waiting.countP (·.isCopy queue jobId) :=
      List.countP_pos_iff.2 ⟨job, hmem, hcopy⟩
    simp only [hcopy, if_true]
    omega
  · simp only [hcopy]
    rfl

end Queues

/-! ## Runs -/

variable {T : Type} [DecidableEq T]

/-- At most one email job and one webhook job of each event is processed, and no other jobs
are. -/
structure ProcessedOnce (w : RelayWorld T) : Prop where
  jobs : ∀ job ∈ w.shared.queues.processed, IsEventJob job
  email : ∀ id, w.shared.queues.processedCopies .email (emailJobId id) ≤ 1
  webhook : ∀ id, w.shared.queues.processedCopies .webhook (webhookJobId id) ≤ 1

/-- The queue stored the job, if it did not ignore it. -/
def AddResult.stored : AddResult → Bool
  | .added => true
  | .failed stored => stored

/-- No job is added to a queue again after it was processed there. -/
def AddsUnprocessed (w : RelayWorld T) : Label RelaySql T RelayJob → Prop
  | .call _ ⟨.add job, .ok result⟩ => result.stored = true →
    ∀ job' ∈ w.shared.queues.processed, job'.queue = job.queue → job'.jobId ≠ job.jobId
  | _ => True

/-- What a statement does to the queues: it adds a job, or processes one, or leaves them
alone. -/
theorem RelayDb.queues_step {g : RelayDb T} {t : T} {s : RelayStatement}
    {x : Except SqlState s.Result} (hx : g.possible t s x) :
    (g.effect t s x).queues = g.queues ∨
    (∃ job result, (⟨s, x⟩ : Exchange RelaySql) = ⟨.add job, .ok result⟩ ∧ result.stored = true ∧
      (g.effect t s x).queues = g.queues.add job) ∨
    ∃ job ∈ g.queues.waiting, (g.effect t s x).queues = g.queues.complete job := by
  rcases x with code | v
  · left
    cases s <;> rfl
  · cases s with
    -- a failure of `add` does not say whether the job is stored
    | add job =>
      rcases v with _ | stored
      · exact .inr (.inl ⟨job, .added, rfl, rfl, rfl⟩)
      · cases stored
        · exact .inl rfl
        · exact .inr (.inl ⟨job, .failed true, rfl, rfl, rfl⟩)
    | process job => exact .inr (.inr ⟨job, hx.2, rfl⟩)
    | commit =>
      left
      change (g.commit t).queues = g.queues
      unfold RelayDb.commit
      split <;> rfl
    | _ =>
      left
      rfl

/-- What each session still issues, by what it has done. -/
def addsTracker :
    Tracker (relayServer (T := T) dispatch) (Prog.onlyIn AddsEventJobs) () fun _ => () :=
  Server.traceTracker _ _ _ _ fun _ _ _ => trivial

/-- The sessions add jobs of events only, and there is one copy of each job. -/
structure QueuesInv (w : RelayWorld T) : Prop where
  conforms : addsTracker.Conforms (fun _ _ => True) w
  waiting : ∀ job ∈ w.shared.queues.waiting, IsEventJob job
  processed : ∀ job ∈ w.shared.queues.processed, IsEventJob job
  copies : ∀ queue jobId, w.shared.queues.waitingCopies queue jobId +
    w.shared.queues.processedCopies queue jobId ≤ 1

variable {w w' : RelayWorld T}

theorem QueuesInv.step (h : QueuesInv w) {l : Label RelaySql T RelayJob} (hg : AddsUnprocessed w l)
    (hs : World.Step (relayServer dispatch) w l w') : QueuesInv w' := by
  have hconforms := h.conforms.step (fun q => uses_handleJob q ()) hs
  -- a step that leaves the queues alone keeps all of it
  have hsame : w'.shared.queues = w.shared.queues → QueuesInv w' := by
    intro heq
    exact ⟨hconforms, heq ▸ h.waiting, heq ▸ h.processed, heq ▸ h.copies⟩
  cases hs with
  | start q hidle => exact hsame rfl
  | @call t q tr s k x hat hx =>
    rcases RelayDb.queues_step hx with heq | ⟨job, result, hadd, hstored, heq⟩ | ⟨job, hmem, heq⟩
    · exact hsame heq
    · -- a job is added, and none with its id has been processed
      cases hadd
      have hjob : IsEventJob job := h.conforms.allows hat
      refine ⟨hconforms, ?_, ?_, fun queue jobId => ?_⟩ <;> rw [World.answered_shared]
      · change ∀ job' ∈ (w.shared.effect t (.add job) (.ok result)).queues.waiting, IsEventJob job'
        rw [heq]
        unfold Queues.add
        split
        · exact h.waiting
        · intro job' hjob'
          rcases List.mem_append.1 hjob' with hold | hnew
          · exact h.waiting job' hold
          · exact List.mem_singleton.1 hnew ▸ hjob
      · change ∀ job' ∈ (w.shared.effect t (.add job) (.ok result)).queues.processed,
          IsEventJob job'
        rw [heq]
        unfold Queues.add
        split <;> exact h.processed
      · change (w.shared.effect t (.add job) (.ok result)).queues.waitingCopies queue jobId +
          (w.shared.effect t (.add job) (.ok result)).queues.processedCopies queue jobId ≤ 1
        rw [heq]
        exact Queues.copies_add (h.copies queue jobId) (hg hstored)
    · -- a job is processed: it moves from the waiting ones to the processed ones
      have hshared : (w.answered (relayServer dispatch) t q (k x) tr s x).shared.queues =
          w.shared.queues.complete job := heq
      refine ⟨hconforms, ?_, ?_, fun queue jobId => ?_⟩ <;> rw [hshared]
      · exact fun job' hjob' => h.waiting job' (List.mem_of_mem_erase hjob')
      · exact List.forall_mem_cons.2 ⟨h.waiting job hmem, h.processed⟩
      · rw [Queues.copies_complete hmem]
        exact h.copies queue jobId
  | crash hat hrun => exact hsame rfl
  | @env g henv =>
    have hqueues : g.queues = w.shared.queues := by
      rcases henv with ⟨e, -, -, -, rfl⟩ | ⟨clock, -, rfl⟩ <;> rfl
    exact hsame hqueues

/-- In every run in which no job is added to a queue again after it was processed there,
the jobs of each event are processed at most once. -/
theorem processed_once {g₀ : RelayDb T} (h₀ : g₀.Initial)
    (hrun : Runs (World.Step (relayServer dispatch)) AddsUnprocessed (World.fresh g₀) w) :
    ProcessedOnce w := by
  have hfresh : QueuesInv (World.fresh g₀ : RelayWorld T) := by
    refine ⟨fun t => ?_, ?_, ?_, fun queue jobId => ?_⟩
    · exact rfl
    all_goals rw [World.fresh_shared, h₀.queues]
    · exact fun _ hjob => nomatch hjob
    · exact fun _ hjob => nomatch hjob
    · exact Nat.zero_le 1
  have h : QueuesInv w :=
    hrun.invariant (I := QueuesInv) (fun _ _ _ h hg hs => h.step hg hs) hfresh
  have hcopies : ∀ queue jobId, w.shared.queues.processedCopies queue jobId ≤ 1 :=
    fun queue jobId => le_trans (Nat.le_add_left _ _) (h.copies queue jobId)
  exact ⟨h.processed, fun id => hcopies _ _, fun id => hcopies _ _⟩

/-- A relay adds the jobs of an event and dies before its commit; a worker has processed the
email job when the second relay delivers the event again. -/
def redelivered : List (Move (Fin 4) RelayJob RelayChoice) :=
  [.start 0 (.batch 1), .go 0 (.claims [sampleEvent 1]), .go 0 .good, .go 0 .good,
    .start 1 (.work (emailJob (sampleEvent 1))), .go 1 .good, .crash 0,
    .start 2 (.batch 1), .go 2 (.claims [sampleEvent 1]), .go 2 .good, .go 2 .good, .go 2 .good,
    .go 2 .good, .start 3 (.work (emailJob (sampleEvent 1))), .go 3 .good]

/-- The email job of one event is processed twice. -/
theorem redelivered_processedTwice :
    ∃ w : RelayWorld (Fin 4),
      Runs (World.Step (relayServer dispatch)) anyStep
        (World.fresh (RelayDb.ofEvents (Fin 4) [sampleEvent 1])) w ∧
      w.shared.queues.processedCopies .email (emailJobId 1) = 2 ∧ ¬ProcessedOnce w := by
  obtain ⟨w, hrun, hw⟩ := (relayResponder dispatch).exists_anyRun
    (World.fresh (RelayDb.ofEvents (Fin 4) [sampleEvent 1])) redelivered
    (fun w => w.shared.queues.processedCopies .email (emailJobId 1) = 2) (by decide +kernel)
  have htwice := of_decide_eq_true hw
  refine ⟨w, hrun, htwice, fun h => ?_⟩
  have honce := h.email 1
  omega

instance (w : RelayWorld (Fin 4)) (l : Label RelaySql (Fin 4) RelayJob) :
    Decidable (AddsUnprocessed w l) := by
  unfold AddsUnprocessed
  split <;> infer_instance

/-- The worker comes after the redelivery. -/
def redeliveredInTime : List (Move (Fin 4) RelayJob RelayChoice) :=
  [.start 0 (.batch 1), .go 0 (.claims [sampleEvent 1]), .go 0 .good, .go 0 .good, .crash 0,
    .start 2 (.batch 1), .go 2 (.claims [sampleEvent 1]), .go 2 .good, .go 2 .good, .go 2 .good,
    .go 2 .good, .start 3 (.work (emailJob (sampleEvent 1))), .go 3 .good]

theorem processed_once_redeliveredInTime :
    ∃ w : RelayWorld (Fin 4), w.shared.queues.processedCopies .email (emailJobId 1) = 1 ∧
      (w.shared.event 1).map (·.status) = some .dispatched ∧ ProcessedOnce w := by
  obtain ⟨w, hrun, hw⟩ := (relayResponder dispatch).exists_run
    (fun w l hl => of_decide_eq_true (p := AddsUnprocessed w l) hl)
    (World.fresh (RelayDb.ofEvents (Fin 4) [sampleEvent 1])) redeliveredInTime
    (fun w => w.shared.queues.processedCopies .email (emailJobId 1) = 1 ∧
      (w.shared.event 1).map (·.status) = some .dispatched) (by decide +kernel)
  obtain ⟨honce, hdispatched⟩ := of_decide_eq_true hw
  exact ⟨w, honce, hdispatched,
    processed_once (RelayDb.initial_ofEvents (by decide) (by decide)) hrun⟩

end BookingPlatform
