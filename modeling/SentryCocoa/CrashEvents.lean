import Mathlib.Algebra.Order.Ring.Rat
import SentryCocoa.Client
import SentryCocoa.EnvelopeRoundTrip
import SentryCocoa.Library.Machine
import SentryCocoa.Session

/-! The crash events of a launch. The hub sends the session that crashed with the first of them
and deletes its file, whether the client sent the event or dropped it. The files work, and
attachments and trace contexts are left out. -/
namespace SentryCocoa.CrashEvents
open SentryCocoa.Foundation SentryCocoa.Session SentryCocoa.Serialization
open SentryCocoa.ClientReports SentryCocoa.Client SentryCocoa.DataCategory
open SentryCocoa.Library.Machine

variable {σ τ : Type}

structure ClientOptions (σ τ : Type) extends Client.SentryOptions σ τ where
  enabled : Bool
  parsedDsn : Option String
  sampleRate : Option ℚ
  /-- Whether there is a callback for the crash of the last run. -/
  onCrashedLastRun : Bool

structure SentryClient (σ τ : Type) where
  isEnabled : Bool
  options : ClientOptions σ τ

/-- What one event meets: the next random number, and what the client and the scope set in the
event before the callbacks. -/
structure Preparing (τ : Type) where
  nextNumber : ℚ
  applyToEvent : τ → τ

inductive Sent (σ τ : Type) where
  | event (event : Event σ τ)
  | eventWithSession (event : Event σ τ) (session : SentrySession)

structure SentryHub (σ τ : Type) where
  /-- The file of the crashed session. -/
  crashedSession : Option (NSDictionary Value)
  crashedLastRunCalled : Bool
  /-- The events that the callback for the crash of the last run was given. -/
  crashedLastRun : List (Event σ τ)
  lostEvents : List LostEvent
  sent : List (Sent σ τ)

namespace SentryClient

def isDisabled (client : SentryClient σ τ) : Bool :=
  !client.isEnabled || !client.options.enabled || client.options.parsedDsn.isNone

def isSampled (sampleRate : Option ℚ) (nextNumber : ℚ) : Bool :=
  match sampleRate with
  | none => false
  | some sampleRate => if nextNumber ≤ sampleRate then false else true

/-- Transactions and replays have their own sample rate. -/
def dropsSample (client : SentryClient σ τ) (preparing : Preparing τ) (event : Event σ τ) : Bool :=
  event.type ≠ some "transaction" && event.type ≠ some "replay_video" &&
    isSampled client.options.sampleRate preparing.nextNumber

end SentryClient

def applyToEvent (preparing : Preparing τ) : Event σ τ → Event σ τ
  | .event event => .event { event with content := preparing.applyToEvent event.content }
  | .transaction transaction =>
    .transaction { transaction with content := preparing.applyToEvent transaction.content }

namespace SentryHub
variable (dates : NSDateFormatter)

def readCrashedSession (hub : SentryHub σ τ) : Except Fault (Option SentrySession) :=
  match hub.crashedSession with
  | some data => SentrySession.sessionWithData dates data
  | none => pure none

def deleteCrashedSession (hub : SentryHub σ τ) : SentryHub σ τ := { hub with crashedSession := none }

/-- Multiple crash events may be about to be sent; the callback is called for one. -/
def callOnCrashedLastRun (client : SentryClient σ τ) (event : Event σ τ) (hub : SentryHub σ τ) :
    SentryHub σ τ :=
  if client.options.onCrashedLastRun && !hub.crashedLastRunCalled then
    { hub with
      crashedLastRunCalled := true
      crashedLastRun := hub.crashedLastRun ++ [event] }
  else hub

/-- The event that is left of a crash event, if any. -/
def prepareEvent (client : SentryClient σ τ) (preparing : Preparing τ) (event : Event σ τ)
    (hub : SentryHub σ τ) : Except Fault (Option (Event σ τ) × SentryHub σ τ) :=
  if client.isDisabled then pure (none, hub)
  else if client.dropsSample preparing event then
    pure (none, { hub with lostEvents := hub.lostEvents ++ [⟨.error, .sampleRate, 1⟩] })
  else do
    let preparation ← Client.prepareEvent client.options.toSentryOptions
      (CrashEvents.applyToEvent preparing event)
    let hub := { hub with lostEvents := hub.lostEvents ++ preparation.recorded }
    match preparation.event with
    | none => return (none, hub)
    | some event => return (some event, hub.callOnCrashedLastRun client event)

/-- A session without a release name is left out. -/
def sendEventWithSession (event : Option (Event σ τ)) (session : SentrySession)
    (hub : SentryHub σ τ) : SentryHub σ τ :=
  match event with
  | none => hub
  | some event =>
    if session.releaseName = none ∨ session.releaseName = some "" then
      { hub with sent := hub.sent ++ [.event event] }
    else { hub with sent := hub.sent ++ [.eventWithSession event session] }

def sendEvent (event : Option (Event σ τ)) (hub : SentryHub σ τ) : SentryHub σ τ :=
  match event with
  | none => hub
  | some event => { hub with sent := hub.sent ++ [.event event] }

/-- There may be no session, when users did not start one or tracking was just enabled. -/
def captureCrashEvent (client : Option (SentryClient σ τ)) (preparing : Preparing τ)
    (event : Event σ τ) (hub : SentryHub σ τ) : Except Fault (SentryHub σ τ) := do
  let some client := client | return hub
  match ← hub.readCrashedSession dates with
  | some crashedSession =>
    let (preparedEvent, hub) ← hub.prepareEvent client preparing event
    return (hub.sendEventWithSession preparedEvent crashedSession).deleteCrashedSession
  | none =>
    let (preparedEvent, hub) ← hub.prepareEvent client preparing event
    return hub.sendEvent preparedEvent

end SentryHub

/-! What one capture does. -/

def Sent.session : Sent σ τ → Option SentrySession
  | .event _ => none
  | .eventWithSession _ session => some session

def SentryHub.handed (hub : SentryHub σ τ) : List SentrySession := hub.sent.filterMap Sent.session

/-- The spans of a transaction pass their own callback first. -/
def applyBeforeSendSpan (options : Client.SentryOptions σ τ) (eventIsATransaction : Bool) :
    Event σ τ → Event σ τ
  | .transaction transaction =>
    .transaction (if eventIsATransaction then processSpans options transaction else transaction)
  | .event event => .event event

/-- The event is not sampled out, and no event processor and no callback drops it. -/
structure Survives (client : SentryClient σ τ) (preparing : Preparing τ) (event : Event σ τ) :
    Prop where
  sampled : client.dropsSample preparing event = false
  processed : ∃ processed, callEventProcessors client.options.processors
      (applyToEvent preparing event) = some processed ∧
    ∀ beforeSend, client.options.beforeSend = some beforeSend →
      (beforeSend.call (applyBeforeSendSpan client.options.toSentryOptions
        (event.type = some "transaction") processed)).isSome

theorem type_applyToEvent (preparing : Preparing τ) (event : Event σ τ) :
    (applyToEvent preparing event).type = event.type := by
  cases event <;> rfl

/-- A report on what was discarded leaves the rest of the preparation as it is. -/
theorem recordCallback_frame (reason : SentryDiscardReason) (result : Option (Event σ τ))
    (preparation : Preparation σ τ) :
    (recordCallback reason result preparation).event = result ∧
      (recordCallback reason result preparation).eventIsATransaction =
        preparation.eventIsATransaction := by
  unfold recordCallback recordPartiallyDroppedSpans
  cases result with
  | none => exact ⟨rfl, rfl⟩
  | some event =>
    cases event with
    | event event => exact ⟨rfl, rfl⟩
    | transaction transaction =>
      dsimp only
      split <;> exact ⟨rfl, rfl⟩

theorem recordCallback_event (reason : SentryDiscardReason) (result : Option (Event σ τ))
    (preparation : Preparation σ τ) :
    (recordCallback reason result preparation).event = result :=
  (recordCallback_frame reason result preparation).1

theorem recordCallback_eventIsATransaction (reason : SentryDiscardReason)
    (result : Option (Event σ τ)) (preparation : Preparation σ τ) :
    (recordCallback reason result preparation).eventIsATransaction =
      preparation.eventIsATransaction :=
  (recordCallback_frame reason result preparation).2

theorem event_of_runBeforeSendSpan {options : Client.SentryOptions σ τ}
    {before after : Preparation σ τ} (h : runBeforeSendSpan options before = .ok after) :
    after.event =
      before.event.map (applyBeforeSendSpan options before.eventIsATransaction) := by
  unfold runBeforeSendSpan at h
  split at h
  · rename_i transaction beforeSendSpan hevent htransaction hcallback
    cases h
    rw [hevent, htransaction]
    unfold recordPartiallyDroppedSpans applyBeforeSendSpan processSpans
    rw [Option.map_some, hcallback]
    rfl
  · cases h
  · rename_i hother _
    cases h
    cases hevent : before.event with
    | none => rfl
    | some event =>
      cases event with
      | event event => rfl
      | transaction transaction =>
        cases htransaction : before.eventIsATransaction with
        | false => rfl
        | true =>
          cases hcallback : options.beforeSendSpan with
          | none =>
            rw [Option.map_some, applyBeforeSendSpan, processSpans, hcallback]
            rfl
          | some beforeSendSpan =>
            exact absurd hcallback (hother transaction beforeSendSpan hevent htransaction)

theorem runBeforeSend_event (options : Client.SentryOptions σ τ) (preparation : Preparation σ τ) :
    (runBeforeSend options preparation).event.isSome ↔
      ∃ event, preparation.event = some event ∧
        ∀ beforeSend, options.beforeSend = some beforeSend → (beforeSend.call event).isSome := by
  unfold runBeforeSend
  split
  · rename_i event beforeSend hevent hcallback
    rw [recordCallback_event]
    simp only [hevent, Option.some.injEq, exists_eq_left', hcallback, forall_eq']
  · rename_i hother
    cases hevent : preparation.event with
    | none => simp
    | some event =>
      cases hcallback : options.beforeSend with
      | none => simp
      | some beforeSend => exact absurd hcallback (hother event beforeSend hevent)

/-- What the client keeps of an event is what its callbacks leave. -/
theorem isSome_of_prepareEvent {options : Client.SentryOptions σ τ} {event : Event σ τ}
    {preparation : Preparation σ τ} (h : Client.prepareEvent options event = .ok preparation) :
    preparation.event.isSome ↔
      ∃ processed, callEventProcessors options.processors event = some processed ∧
        ∀ beforeSend, options.beforeSend = some beforeSend →
          (beforeSend.call (applyBeforeSendSpan options (event.type = some "transaction")
            processed)).isSome := by
  unfold Client.prepareEvent at h
  simp only [bind, Except.bind] at h
  split at h
  · cases h
  · rename_i after hspans
    cases h
    have hafter := event_of_runBeforeSendSpan hspans
    unfold runEventProcessors at hafter
    dsimp only [Preparation.start] at hafter
    rw [recordCallback_event, recordCallback_eventIsATransaction] at hafter
    rw [runBeforeSend_event, hafter]
    simp only [Option.map_eq_some_iff, exists_exists_and_eq_and]

/-- Preparing an event touches neither the file nor what was sent. -/
theorem prepareEvent_cases {client : SentryClient σ τ} (henabled : client.isDisabled = false)
    {preparing : Preparing τ} {event : Event σ τ} {prepared : Option (Event σ τ)}
    {hub hub' : SentryHub σ τ}
    (h : hub.prepareEvent client preparing event = .ok (prepared, hub')) :
    hub'.crashedSession = hub.crashedSession ∧ hub'.sent = hub.sent ∧
      (prepared.isSome ↔ Survives client preparing event) := by
  unfold SentryHub.prepareEvent at h
  rw [henabled] at h
  simp only [Bool.false_eq_true, if_false] at h
  split at h
  · rename_i hdrops
    cases h
    refine ⟨rfl, rfl, fun hsome => absurd hsome (by simp), fun survives => ?_⟩
    exact absurd (hdrops.symm.trans survives.sampled) (by simp)
  · rename_i hkeeps
    simp only [bind, Except.bind] at h
    split at h
    · cases h
    · rename_i preparation hprepare
      have hprocessed := isSome_of_prepareEvent hprepare
      rw [type_applyToEvent] at hprocessed
      have hiff : preparation.event.isSome ↔ Survives client preparing event := by
        rw [hprocessed]
        exact ⟨fun h => ⟨Bool.eq_false_iff.mpr hkeeps, h⟩, fun survives => survives.processed⟩
      split at h
      · rename_i hnone
        cases h
        rw [← hiff, hnone]
        exact ⟨rfl, rfl, Iff.rfl⟩
      · rename_i event' hsome
        cases h
        rw [← hiff, hsome]
        unfold SentryHub.callOnCrashedLastRun
        split <;> exact ⟨rfl, rfl, Iff.rfl⟩

/-! The crash events of a launch. -/

/-- A session that crashed and was stored. Only one with a release name can be sent. -/
structure CrashedSession where
  session : SentrySession
  date : NSDate
  released : ¬ (session.releaseName = none ∨ session.releaseName = some "")

def CrashedSession.stored (crashed : CrashedSession) : SentrySession :=
  crashed.session.stored crashed.date

/-- An event with all that decides about it; the client is enabled. -/
structure Capture (σ τ : Type) where
  client : SentryClient σ τ
  enabled : client.isDisabled = false
  preparing : Preparing τ
  event : Event σ τ

structure Launch (σ τ : Type) where
  hub : SentryHub σ τ
  captured : Nat

namespace Launch
variable (dates : NSDateFormatter)

def start (crashed : CrashedSession) (crashedLastRunCalled : Bool) : Launch σ τ where
  hub := {
    crashedSession := some (crashed.session.serialize dates crashed.date)
    crashedLastRunCalled := crashedLastRunCalled
    crashedLastRun := []
    lostEvents := []
    sent := [] }
  captured := 0

/-- An exception in a capture ends the launch. -/
def step (launch : Launch σ τ) (capture : Capture σ τ) : Option (Launch σ τ) :=
  match launch.hub.captureCrashEvent dates (some capture.client) capture.preparing
    capture.event with
  | .ok hub => some ⟨hub, launch.captured + 1⟩
  | .error _ => none

/-- The session is handed over with the first event, and stays on disk until then. -/
structure Correct (crashed : CrashedSession) (launch : Launch σ τ) : Prop where
  handed : launch.captured ≠ 0 → launch.hub.handed = [crashed.stored]
  deleted : launch.hub.crashedSession = none → launch.hub.handed = [crashed.stored]

/-- An event that finds a crashed session is not dropped. -/
def Kept (launch : Launch σ τ) (capture : Capture σ τ) : Prop :=
  launch.hub.crashedSession ≠ none →
    Survives capture.client capture.preparing capture.event

/-- Either no event was captured yet, or the session was sent and deleted. -/
inductive Inv (crashed : CrashedSession) (launch : Launch σ τ) : Prop
  | pending (captured : launch.captured = 0) (handed : launch.hub.handed = [])
      (stored : launch.hub.crashedSession =
        some (crashed.session.serialize dates crashed.date))
  | sent (handed : launch.hub.handed = [crashed.stored])
      (deleted : launch.hub.crashedSession = none)

variable {dates} {crashed : CrashedSession}

theorem handed_eq_of_sent {hub hub' : SentryHub σ τ} (h : hub'.sent = hub.sent) :
    hub'.handed = hub.handed := by
  unfold SentryHub.handed
  rw [h]

theorem handed_sendEvent (event : Option (Event σ τ)) (hub : SentryHub σ τ) :
    (hub.sendEvent event).handed = hub.handed := by
  cases event with
  | none => rfl
  | some event => simp [SentryHub.handed, SentryHub.sendEvent, Sent.session]

theorem handed_sendEventWithSession (event : Option (Event σ τ)) {session : SentrySession}
    (released : ¬ (session.releaseName = none ∨ session.releaseName = some ""))
    (hub : SentryHub σ τ) :
    (hub.sendEventWithSession event session).handed =
      hub.handed ++ if event.isSome then [session] else [] := by
  cases event with
  | none => exact (List.append_nil _).symm
  | some event =>
    unfold SentryHub.sendEventWithSession
    dsimp only
    rw [if_neg released]
    simp [SentryHub.handed, Sent.session]

/-- Everything that a capture can do, with the session that it finds. -/
theorem step_cases {launch launch' : Launch σ τ} {capture : Capture σ τ}
    {crashedSession : Option SentrySession}
    (hread : launch.hub.readCrashedSession dates = .ok crashedSession)
    (hstep : step dates launch capture = some launch') :
    ∃ prepared, launch.hub.prepareEvent capture.client capture.preparing capture.event =
        .ok prepared ∧
      launch' = ⟨crashedSession.elim (prepared.2.sendEvent prepared.1) fun crashedSession =>
        (prepared.2.sendEventWithSession prepared.1 crashedSession).deleteCrashedSession,
        launch.captured + 1⟩ := by
  unfold step SentryHub.captureCrashEvent at hstep
  simp only [hread, bind, Except.bind] at hstep
  cases hprepare : launch.hub.prepareEvent capture.client capture.preparing capture.event with
  | error fault =>
    rw [hprepare] at hstep
    cases crashedSession <;> cases hstep
  | ok prepared =>
    rw [hprepare] at hstep
    cases crashedSession <;> exact ⟨prepared, rfl, (Option.some.inj hstep).symm⟩

/-- The first capture hands the session over if its event survives, and deletes the file in
any case. -/
theorem step_pending {launch launch' : Launch σ τ} {capture : Capture σ τ}
    (hstored : launch.hub.crashedSession = some (crashed.session.serialize dates crashed.date))
    (hstep : step dates launch capture = some launch') :
    launch'.captured = launch.captured + 1 ∧ launch'.hub.crashedSession = none ∧
      ∃ prepared : Option (Event σ τ),
        (prepared.isSome ↔ Survives capture.client capture.preparing capture.event) ∧
        launch'.hub.handed =
          launch.hub.handed ++ if prepared.isSome then [crashed.stored] else [] := by
  have hread : launch.hub.readCrashedSession dates = .ok (some crashed.stored) := by
    unfold SentryHub.readCrashedSession
    rw [hstored]
    dsimp only
    rw [SentrySession.sessionWithData_serialize, if_neg crashed.released]
    rfl
  obtain ⟨prepared, hprepare, rfl⟩ := step_cases hread hstep
  have hreleased : ¬ (crashed.stored.releaseName = none ∨
    crashed.stored.releaseName = some "") := crashed.released
  have hcases := prepareEvent_cases capture.enabled hprepare
  refine ⟨rfl, rfl, prepared.1, hcases.2.2, ?_⟩
  have hhanded := handed_sendEventWithSession prepared.1 hreleased prepared.2
  rw [handed_eq_of_sent hcases.2.1] at hhanded
  exact hhanded

/-- A later capture sends its event alone. -/
theorem step_sent {launch launch' : Launch σ τ} {capture : Capture σ τ}
    (hdeleted : launch.hub.crashedSession = none)
    (hstep : step dates launch capture = some launch') :
    launch'.hub.crashedSession = none ∧ launch'.hub.handed = launch.hub.handed := by
  have hread : launch.hub.readCrashedSession dates = .ok none := by
    unfold SentryHub.readCrashedSession
    rw [hdeleted]
    rfl
  obtain ⟨prepared, hprepare, rfl⟩ := step_cases hread hstep
  have hcases := prepareEvent_cases capture.enabled hprepare
  constructor
  · cases hevent : prepared.1 with
    | none => exact hcases.1.trans hdeleted
    | some event => exact hcases.1.trans hdeleted
  · exact (handed_sendEvent _ _).trans (handed_eq_of_sent hcases.2.1)

theorem Inv.start (crashedLastRunCalled : Bool) :
    Inv dates crashed (start dates crashed crashedLastRunCalled : Launch σ τ) :=
  .pending rfl rfl rfl

theorem Inv.correct {launch : Launch σ τ} (inv : Inv dates crashed launch) :
    Correct crashed launch := by
  cases inv with
  | pending captured handed stored =>
    refine ⟨fun h => absurd captured h, fun hnone => ?_⟩
    rw [stored] at hnone
    cases hnone
  | sent handed deleted => exact ⟨fun _ => handed, fun _ => handed⟩

theorem Inv.step {launch launch' : Launch σ τ} {capture : Capture σ τ}
    (inv : Inv dates crashed launch) (kept : Kept launch capture)
    (hstep : step dates launch capture = some launch') : Inv dates crashed launch' := by
  cases inv with
  | pending captured handed stored =>
    obtain ⟨_, hdeleted, prepared, hsurvives, hhanded⟩ := step_pending stored hstep
    have hkept := hsurvives.mpr (kept (by rw [stored]; exact Option.some_ne_none _))
    rw [if_pos hkept, handed] at hhanded
    exact .sent hhanded hdeleted
  | sent handed deleted =>
    obtain ⟨hdeleted, hhanded⟩ := step_sent deleted hstep
    exact .sent (hhanded.trans handed) hdeleted

/-- The session of a dropped event is deleted and was not sent. -/
theorem Inv.not_correct_step {launch launch' : Launch σ τ} {capture : Capture σ τ}
    (inv : Inv dates crashed launch) (dropped : ¬ Kept launch capture)
    (hstep : Launch.step dates launch capture = some launch') : ¬ Correct crashed launch' := by
  intro correct
  unfold Kept at dropped
  push Not at dropped
  obtain ⟨hstored, hdropped⟩ := dropped
  cases inv with
  | pending captured handed stored =>
    obtain ⟨_, hdeleted, prepared, hsurvives, hhanded⟩ := step_pending stored hstep
    rw [← hsurvives] at hdropped
    rw [if_neg hdropped, handed] at hhanded
    have hsession := correct.deleted hdeleted
    rw [hhanded] at hsession
    cases hsession
  | sent handed deleted => exact hstored deleted

variable (dates crashed) in
/-- The crashed session reaches the transport in exactly the launches in which the client does
not drop the event that finds it. -/
theorem always_handed_iff_kept (crashedLastRunCalled : Bool) (captures : List (Capture σ τ)) :
    Always (step dates) (Correct crashed) (start dates crashed crashedLastRunCalled) captures ↔
      Allowed (step dates) Kept (start dates crashed crashedLastRunCalled) captures :=
  always_iff_allowed (fun _ inv => inv.correct) (fun _ _ _ inv hkept hstep => inv.step hkept hstep)
    (fun _ _ _ inv hdropped hstep => inv.not_correct_step hdropped hstep)
    (Inv.start crashedLastRunCalled) captures

/-- A crashed session of the release 1.0. -/
def exampleCrashed : CrashedSession where
  session := (SentrySession.initWithReleaseName
    ⟨(List.range 36).map fun position => if position ∈ [8, 13, 18, 23] then '-' else '1',
      by decide, by decide⟩ ⟨0⟩ "1.0" "user").endSessionCrashedWithTimestamp ⟨1000⟩
  date := ⟨2000⟩
  released := by decide

/-- An event that the callback drops. -/
def exampleCapture : Capture Unit Unit where
  client := {
    isEnabled := true
    options := {
      processors := []
      beforeSendSpan := none
      beforeSend := some ⟨fun _ => none, fun _ => none⟩
      enabled := true
      parsedDsn := some "https://key@host/1"
      sampleRate := none
      onCrashedLastRun := false } }
  enabled := rfl
  preparing := ⟨0, id⟩
  event := .event ⟨none, ()⟩

/-- The session of a dropped crash event is gone. -/
theorem dropped_event_loses_session :
    (exec (step exampleDates) (start exampleDates exampleCrashed false) [exampleCapture]).map
      (fun launch => (launch.captured, launch.hub.crashedSession.isNone,
        launch.hub.handed.isEmpty)) = some (1, true, true) := by
  decide +kernel

end Launch
end SentryCocoa.CrashEvents
