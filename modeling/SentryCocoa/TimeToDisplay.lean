import SentryCocoa.TracerRuns

/-! The tracer of a view controller with its time to display tracker, which ends two of the
children with the frames and rewrites them when the tracer finishes. The functions of the
tracer that meet the finish callback are given once more, with the callback. -/
namespace SentryCocoa.Tracer
open SentryCocoa.Foundation SentryCocoa.Session SentryCocoa.Library.Machine

/-- The spans are children of the tracer, by their positions. -/
structure SentryTimeToDisplayTracker where
  waitForFullDisplay : Bool
  initialDisplayReported : Bool
  fullyDisplayedReported : Bool
  initialDisplaySpan : Nat
  fullDisplaySpan : Option Nat
  isListener : Bool
  deriving DecidableEq

/-- A transaction at the call with the measurements it takes along. -/
structure CapturedDisplay where
  transaction : CapturedTransaction
  measurements : NSDictionary ℤ

/-- Measurements count milliseconds. The blocks of `reportFullyDisplayed` wait on the main
queue, and the frames tracker has handed out the last frame date. -/
structure DisplayTracer where
  tracer : SentryTracer
  timeToDisplay : Option SentryTimeToDisplayTracker
  measurements : NSDictionary ℤ
  captured : List CapturedDisplay
  queuedReports : Nat
  lastFrameDate : NSDate

namespace DisplayTracer

variable (moment : Moment)

def child (tracer : DisplayTracer) (position : Nat) : Option SentrySpan :=
  tracer.tracer.children[position]?

def modifyChild (position : Nat) (change : SentrySpan → SentrySpan) (tracer : DisplayTracer) :
    DisplayTracer :=
  { tracer with tracer.children := tracer.tracer.children.modify position change }

def setMeasurement (name : String) (value : ℤ) (tracer : DisplayTracer) : DisplayTracer :=
  { tracer with measurements := tracer.measurements.insert name value }

/-- A missing end counts as no time. -/
def durationMilliseconds (span : SentrySpan) : ℤ :=
  match span.timestamp with
  | some timestamp => timestamp.milliseconds - span.startTimestamp.milliseconds
  | none => 0

def addTimeToDisplayMeasurement (position : Nat) (name : String) (tracer : DisplayTracer) :
    DisplayTracer :=
  match tracer.child position with
  | some span => tracer.setMeasurement name (durationMilliseconds span)
  | none => tracer

def startWithTracer (position : Nat) (tracer : DisplayTracer) : DisplayTracer :=
  tracer.modifyChild position fun span =>
    { span with startTimestamp := tracer.tracer.span.startTimestamp }

/-- A display that was not complete in time ends with the initial display. -/
def exceedDeadline (initialDisplaySpan fullDisplaySpan : Nat) (tracer : DisplayTracer) :
    DisplayTracer :=
  let timestamp := (tracer.child initialDisplaySpan).bind SentrySpan.timestamp
  (tracer.modifyChild fullDisplaySpan fun span =>
    { span with
      timestamp := timestamp
      spanDescription := some (span.spanDescription.getD "(null)" ++ " - Deadline Exceeded") })
    |>.addTimeToDisplayMeasurement fullDisplaySpan "time_to_full_display"

/-- The full display, if the tracker waits for one. -/
def measureFullDisplay (timeToDisplay : SentryTimeToDisplayTracker) (tracer : DisplayTracer) :
    DisplayTracer :=
  match timeToDisplay.fullDisplaySpan with
  | none => tracer
  | some fullDisplaySpan =>
    let tracer := (tracer.startWithTracer fullDisplaySpan).addTimeToDisplayMeasurement
      fullDisplaySpan "time_to_full_display"
    if (tracer.child fullDisplaySpan).any fun span => span.status = .deadlineExceeded then
      tracer.exceedDeadline timeToDisplay.initialDisplaySpan fullDisplaySpan
    else tracer

/-- The tracer is finished when it calls back. -/
def finishCallback (timeToDisplay : SentryTimeToDisplayTracker) (tracer : DisplayTracer) :
    DisplayTracer :=
  let initialDisplaySpan := timeToDisplay.initialDisplaySpan
  let tracer := { tracer with timeToDisplay := some { timeToDisplay with isListener := false } }
  let tracer :=
    if tracer.tracer.childIsFinished initialDisplaySpan then tracer
    else
      { tracer with
        tracer := tracer.tracer.finishChildWithStatus moment (SentryTracer.canBeFinished moment)
          initialDisplaySpan .ok }
  let tracer := (tracer.startWithTracer initialDisplaySpan).addTimeToDisplayMeasurement
    initialDisplaySpan "time_to_initial_display"
  tracer.measureFullDisplay timeToDisplay

/-- A callback of something else leaves the spans alone. -/
def callBack (called : Bool) (tracer : DisplayTracer) : DisplayTracer :=
  match tracer.timeToDisplay with
  | some timeToDisplay => if called then tracer.finishCallback moment timeToDisplay else tracer
  | none => tracer

/-- The tracer finishes as a span, takes over the start of the app and calls back. -/
def finishSelf (shouldCleanUp : Bool) (tracer : DisplayTracer) : DisplayTracer :=
  ({ tracer with
      tracer := tracer.tracer.finishSelf moment (SentryTracer.canBeFinished moment)
        shouldCleanUp } : DisplayTracer).callBack moment
    (shouldCleanUp && tracer.tracer.finishCallback)

def finishTracer (unfinishedSpansFinishStatus : SentrySpanStatus) (shouldCleanUp : Bool)
    (tracer : DisplayTracer) : DisplayTracer × Bool :=
  if tracer.tracer.isFinished then (tracer, true)
  else
    let self := tracer.finishSelf moment shouldCleanUp
    let transactionDuration := SentrySession.timeIntervalSinceDate self.tracer.span.timestamp
      self.tracer.span.startTimestamp
    if self.tracer.isAutoGeneratedTransaction ∧ 500 ≤ transactionDuration then (self, true)
    else if ¬self.tracer.hasHub then (self, true)
    else
      let self := if shouldCleanUp then { self with tracer.isSpanOfScope := false } else self
      if self.tracer.configuration.finishMustBeCalled ∧ ¬self.tracer.wasFinishCalled then
        (self, true)
      else if self.tracer.hasIdleTimeout ∧ self.tracer.children.length = 0 then (self, true)
      else
        let tracer := self.tracer.finishChildren moment (SentryTracer.canBeFinished moment)
          unfinishedSpansFinishStatus
        ({ self with tracer := tracer }, false)

/-- Without a time to display tracker it is the function of the tracer. -/
theorem finishTracer_of_none {tracer : DisplayTracer} (none : tracer.timeToDisplay = none)
    (status : SentrySpanStatus) (shouldCleanUp : Bool) :
    ((tracer.finishTracer moment status shouldCleanUp).1.tracer,
        (tracer.finishTracer moment status shouldCleanUp).2) =
      tracer.tracer.finishTracer moment (SentryTracer.canBeFinished moment) status
        shouldCleanUp := by
  have hself : (tracer.finishSelf moment shouldCleanUp).tracer =
      tracer.tracer.finishSelf moment (SentryTracer.canBeFinished moment) shouldCleanUp := by
    unfold finishSelf callBack
    dsimp only
    rw [none]
  unfold finishTracer SentryTracer.finishTracer
  dsimp only
  rw [← hself]
  cases shouldCleanUp <;> split_ifs <;> rfl

def captureWith (capture : Capture) (tracer : DisplayTracer) : DisplayTracer :=
  { tracer with
    tracer := tracer.tracer.captureWith moment capture
    captured := tracer.captured ++
      [⟨⟨capture, tracer.tracer.toTransaction moment, tracer.tracer.children⟩,
        tracer.measurements⟩] }

def finishInternal (tracer : DisplayTracer) : DisplayTracer :=
  let (tracer, discardTransaction) := tracer.finishTracer moment .deadlineExceeded true
  if discardTransaction then tracer
  else if tracer.tracer.isProfiling then
    tracer.captureWith moment .captureTransactionWithProfile
  else tracer.captureWith moment .captureTransaction

/-- The callback names the span of the initial display. -/
def shouldIgnoreWaitForChildren (tracer : DisplayTracer) (position : Nat) : Bool :=
  tracer.timeToDisplay.any fun timeToDisplay => timeToDisplay.initialDisplaySpan = position

def hasUnfinishedChildSpansToWaitFor (tracer : DisplayTracer) : Bool :=
  tracer.tracer.configuration.waitForChildren &&
    (List.range tracer.tracer.children.length).any fun position =>
      !tracer.shouldIgnoreWaitForChildren position && !tracer.tracer.childIsFinished position

def dispatchIdleTimeout (tracer : DisplayTracer) : DisplayTracer :=
  if moment.createDispatchBlock then tracer else tracer.finishInternal moment

def canBeFinished (tracer : DisplayTracer) : DisplayTracer :=
  if tracer.tracer.isFinished then tracer
  else
    let hasUnfinished := tracer.hasUnfinishedChildSpansToWaitFor
    if ¬tracer.tracer.wasFinishCalled ∧ ¬hasUnfinished ∧ tracer.tracer.hasIdleTimeout then
      tracer.dispatchIdleTimeout moment
    else if ¬tracer.tracer.wasFinishCalled ∨ hasUnfinished then tracer
    else tracer.finishInternal moment

def finishChildWithStatus (position : Nat) (status : SentrySpanStatus) (tracer : DisplayTracer) :
    DisplayTracer :=
  (tracer.modifyChild position fun span =>
    span.finishWithStatus status (moment.dates position)).canBeFinished moment

def finishWithStatus (status : SentrySpanStatus) (tracer : DisplayTracer) : DisplayTracer :=
  { tracer with tracer.wasFinishCalled := true, tracer.finishStatus := status }.canBeFinished
    moment

def finishUnlessFinished (status : SentrySpanStatus) (tracer : DisplayTracer) (position : Nat) :
    DisplayTracer :=
  if tracer.tracer.childIsFinished position then tracer
  else tracer.finishChildWithStatus moment position status

def deadlineTimerFired (tracer : DisplayTracer) : DisplayTracer :=
  if tracer.tracer.isFinished then tracer
  else
    let tracer := (List.range tracer.tracer.children.length).foldl
      (finishUnlessFinished moment .deadlineExceeded) tracer
    { tracer with tracer.finishStatus := .deadlineExceeded }.finishInternal moment

/-- Where the span is active its children are started, at the end of the children. -/
def startChildWithOperation (activeSpan : Option Nat) (operation : String)
    (description : Option String) (tracer : DisplayTracer) : DisplayTracer :=
  { tracer with
    tracer := (tracer.tracer.startChildWithOperation moment activeSpan operation description).1 }

/-- The frames tracker runs. Both spans start with the tracer. -/
def startForTracer (controllerName : String) (waitForFullDisplay : Bool)
    (activeSpan : Option Nat) (tracer : DisplayTracer) : DisplayTracer :=
  let initialDisplaySpan := tracer.tracer.children.length
  let tracer := tracer.startChildWithOperation moment activeSpan "ui.load.initial_display"
    (some (controllerName ++ " initial display"))
  let fullDisplaySpan := tracer.tracer.children.length
  let tracer :=
    if waitForFullDisplay then
      (tracer.startChildWithOperation moment activeSpan "ui.load.full_display"
        (some (controllerName ++ " full display"))).startWithTracer fullDisplaySpan
    else tracer
  let tracer := tracer.startWithTracer initialDisplaySpan
  { tracer with
    tracer.finishCallback := true
    timeToDisplay := some {
      waitForFullDisplay := waitForFullDisplay
      initialDisplayReported := false
      fullyDisplayedReported := false
      initialDisplaySpan := initialDisplaySpan
      fullDisplaySpan := if waitForFullDisplay then some fullDisplaySpan else none
      isListener := true } }

def changeTimeToDisplay (change : SentryTimeToDisplayTracker → SentryTimeToDisplayTracker)
    (tracer : DisplayTracer) : DisplayTracer :=
  { tracer with timeToDisplay := tracer.timeToDisplay.map change }

def reportInitialDisplay (tracer : DisplayTracer) : DisplayTracer :=
  tracer.changeTimeToDisplay fun timeToDisplay =>
    { timeToDisplay with initialDisplayReported := true }

/-- The flag is set on the main queue, where the other accesses are. -/
def reportFullyDisplayed (tracer : DisplayTracer) : DisplayTracer :=
  { tracer with queuedReports := tracer.queuedReports + 1 }

def fullyDisplayedBlock (tracer : DisplayTracer) : DisplayTracer :=
  tracer.changeTimeToDisplay fun timeToDisplay =>
    { timeToDisplay with fullyDisplayedReported := true }

def removeListener (tracer : DisplayTracer) : DisplayTracer :=
  tracer.changeTimeToDisplay fun timeToDisplay => { timeToDisplay with isListener := false }

def fullDisplayIsFinished (timeToDisplay : SentryTimeToDisplayTracker) (tracer : DisplayTracer) :
    Bool :=
  timeToDisplay.fullDisplaySpan.any tracer.tracer.childIsFinished

def finishWithFrame (newFrameDate : NSDate) (position : Nat) (tracer : DisplayTracer) :
    DisplayTracer :=
  (tracer.modifyChild position fun span =>
    { span with timestamp := some newFrameDate }).finishChildWithStatus moment position .ok

def finishInitialDisplay (newFrameDate : NSDate) (timeToDisplay : SentryTimeToDisplayTracker)
    (tracer : DisplayTracer) : DisplayTracer :=
  if timeToDisplay.initialDisplayReported ∧
      ¬tracer.tracer.childIsFinished timeToDisplay.initialDisplaySpan then
    let tracer := tracer.finishWithFrame moment newFrameDate timeToDisplay.initialDisplaySpan
    if timeToDisplay.waitForFullDisplay then tracer else tracer.removeListener
  else tracer

def finishFullDisplay (newFrameDate : NSDate) (timeToDisplay : SentryTimeToDisplayTracker)
    (tracer : DisplayTracer) : DisplayTracer :=
  if timeToDisplay.waitForFullDisplay ∧ timeToDisplay.fullyDisplayedReported ∧
      ¬tracer.fullDisplayIsFinished timeToDisplay ∧
      tracer.tracer.childIsFinished timeToDisplay.initialDisplaySpan then
    match timeToDisplay.fullDisplaySpan with
    | some fullDisplaySpan => tracer.finishWithFrame moment newFrameDate fullDisplaySpan
    | none => tracer
  else tracer

def finishDisplays (newFrameDate : NSDate) (timeToDisplay : SentryTimeToDisplayTracker)
    (tracer : DisplayTracer) : DisplayTracer :=
  let tracer := (tracer.finishInitialDisplay moment newFrameDate timeToDisplay).finishFullDisplay
    moment newFrameDate timeToDisplay
  if tracer.tracer.childIsFinished timeToDisplay.initialDisplaySpan ∧
      tracer.fullDisplayIsFinished timeToDisplay then tracer.removeListener
  else tracer

/-- The frames tracker calls its listeners with the date of a new frame. -/
def framesTrackerHasNewFrame (newFrameDate : NSDate) (tracer : DisplayTracer) : DisplayTracer :=
  let next := { tracer with lastFrameDate := newFrameDate }
  match tracer.timeToDisplay with
  | none => next
  | some timeToDisplay =>
    if timeToDisplay.isListener then next.finishDisplays moment newFrameDate timeToDisplay
    else next

end DisplayTracer

end SentryCocoa.Tracer
