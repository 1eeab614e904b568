import SentryCocoa.Session
import SentryCocoa.Library.Machine

/-! A tracer and its children. When a child finishes it calls its tracer back, and
finishing the tracer finishes the children, so the functions call one another in a
circle; each takes the function that a finished child calls back as an argument.
What a span says about threads, frames and the profiler is left out. -/
namespace SentryCocoa.Tracer
open SentryCocoa.Foundation SentryCocoa.Session SentryCocoa.Library.Machine

inductive SentrySpanStatus where
  | undefined | ok | deadlineExceeded | unauthenticated | permissionDenied | notFound
  | resourceExhausted | invalidArgument | unimplemented | unavailable | internalError
  | unknownError | cancelled | alreadyExists | failedPrecondition | aborted | outOfRange | dataLoss
  deriving DecidableEq, Repr

structure SentrySpanId where
  value : Nat
  deriving DecidableEq, Repr

structure SentrySpan where
  spanId : SentrySpanId
  parentSpanId : Option SentrySpanId
  operation : String
  spanDescription : Option String
  status : SentrySpanStatus
  isFinished : Bool
  startTimestamp : NSDate
  timestamp : Option NSDate

namespace SentrySpan

def initWithContext (spanId : SentrySpanId) (parentSpanId : Option SentrySpanId)
    (operation : String) (spanDescription : Option String) (date : NSDate) : SentrySpan where
  spanId := spanId
  parentSpanId := parentSpanId
  operation := operation
  spanDescription := spanDescription
  status := .undefined
  isFinished := false
  startTimestamp := date
  timestamp := none

/-- The part of the span itself; the tracer hears of it next. -/
def finishWithStatus (span : SentrySpan) (status : SentrySpanStatus) (date : NSDate) :
    SentrySpan :=
  { span with
    status := status
    isFinished := true
    timestamp := some (span.timestamp.getD date) }

end SentrySpan

inductive SentryAppStartType where
  | warm | cold | unknown
  deriving DecidableEq, Repr

structure SentryAppStartMeasurement where
  type : SentryAppStartType
  isPreWarmed : Bool
  durationMilliseconds : Nat
  appStartTimestamp : NSDate
  runtimeInitTimestamp : NSDate
  moduleInitializationTimestamp : NSDate
  sdkStartTimestamp : NSDate
  didFinishLaunchingTimestamp : NSDate

structure SentryTracerConfiguration where
  waitForChildren : Bool
  finishMustBeCalled : Bool
  idleTimeout : ℚ

/-- What a step finds around it: the dates at which the tracer and the children finish,
fresh identifiers, whether the queue creates a block, the spans that the callback says
need no waiting, and the measurement of the app start if it goes into this tracer. -/
structure Moment where
  date : NSDate
  dates : Nat → NSDate
  spanIds : Nat → SentrySpanId
  createDispatchBlock : Bool
  shouldIgnoreWaitForChildrenCallback : SentrySpan → Bool
  appStartMeasurement : Option SentryAppStartMeasurement

/-- The span of a transaction: a child by its position, or a span of the app start. -/
inductive TransactionSpan where
  | child (position : Nat)
  | appStart (span : SentrySpan)

structure SentryTransaction where
  startTimestamp : NSDate
  timestamp : Option NSDate
  spans : List TransactionSpan

/-- The methods that take a transaction. -/
inductive Capture where
  | captureTransaction | captureTransactionWithProfile | saveCrashTransaction

/-- A call with a transaction, and the children as they are at the call. -/
structure CapturedTransaction where
  capture : Capture
  transaction : SentryTransaction
  children : List SentrySpan

/-- The tracer is a span itself. Of the hub it is kept whether there is one. -/
structure SentryTracer where
  span : SentrySpan
  configuration : SentryTracerConfiguration
  hasHub : Bool
  isProfiling : Bool
  children : List SentrySpan
  wasFinishCalled : Bool
  finishStatus : SentrySpanStatus
  finishCallback : Bool
  isSpanOfScope : Bool
  captured : List CapturedTransaction

/-- The date by which an app start span starts and ends. -/
def sentryBuildAppStartSpan (spanId parentId : SentrySpanId) (operation description : String)
    (startTimestamp timestamp : NSDate) : SentrySpan :=
  { SentrySpan.initWithContext spanId (some parentId) operation (some description)
      startTimestamp with timestamp := some timestamp }

def dateByAdding (date : NSDate) (milliseconds : Nat) : NSDate :=
  ⟨date.milliseconds + milliseconds⟩

def sentryBuildAppStartSpans (moment : Moment) (tracerSpanId : SentrySpanId)
    (appStartMeasurement : Option SentryAppStartMeasurement) : List SentrySpan :=
  let spansOf (m : SentryAppStartMeasurement) (operation type : String) :=
    let appStartEndTimestamp := dateByAdding m.appStartTimestamp m.durationMilliseconds
    let span := fun i => sentryBuildAppStartSpan (moment.spanIds i) (moment.spanIds 0) operation
    [sentryBuildAppStartSpan (moment.spanIds 0) tracerSpanId operation type m.appStartTimestamp
      appStartEndTimestamp] ++
    (if m.isPreWarmed then [] else
      [span 1 "Pre Runtime Init" m.appStartTimestamp m.runtimeInitTimestamp,
        span 2 "Runtime Init to Pre Main Initializers" m.runtimeInitTimestamp
          m.moduleInitializationTimestamp]) ++
    [span 3 "UIKit Init" m.moduleInitializationTimestamp m.sdkStartTimestamp,
      span 4 "Application Init" m.sdkStartTimestamp m.didFinishLaunchingTimestamp,
      span 5 "Initial Frame Render" m.didFinishLaunchingTimestamp appStartEndTimestamp]
  match appStartMeasurement with
  | none => []
  | some m => match m.type with
    | .cold => spansOf m "app.start.cold" "Cold Start"
    | .warm => spansOf m "app.start.warm" "Warm Start"
    | .unknown => []

namespace SentryTracer

def isFinished (tracer : SentryTracer) : Bool := tracer.span.isFinished

def hasIdleTimeout (tracer : SentryTracer) : Bool := 0 < tracer.configuration.idleTimeout

def isAutoGeneratedTransaction (tracer : SentryTracer) : Bool :=
  tracer.configuration.waitForChildren || tracer.hasIdleTimeout

variable (moment : Moment)

def hasUnfinishedChildSpansToWaitFor (tracer : SentryTracer) : Bool :=
  tracer.configuration.waitForChildren && tracer.children.any fun span =>
    !moment.shouldIgnoreWaitForChildrenCallback span && !span.isFinished

/-- The end of the last child, if one ends after the start. -/
def trimEndTimestamp (tracer : SentryTracer) : SentryTracer :=
  let later (oldest : NSDate) (childSpan : SentrySpan) :=
    match childSpan.timestamp with
    | some timestamp => if oldest.milliseconds < timestamp.milliseconds then timestamp else oldest
    | none => oldest
  { tracer with span := { tracer.span with
      timestamp := some (tracer.children.foldl later tracer.span.startTimestamp) } }

def toTransaction (tracer : SentryTracer) : SentryTransaction where
  startTimestamp := tracer.span.startTimestamp
  timestamp := tracer.span.timestamp
  spans := (List.range tracer.children.length).map .child ++
    (sentryBuildAppStartSpans moment tracer.span.spanId moment.appStartMeasurement).map .appStart

def captureWith (capture : Capture) (tracer : SentryTracer) : SentryTracer :=
  { tracer with captured := tracer.captured ++
      [⟨capture, tracer.toTransaction moment, tracer.children⟩] }

section Callback
variable (callback : SentryTracer → SentryTracer)

/-- The tracer itself is no position; when it finishes it does not call itself. -/
def spanFinished (finishedSpan : Option Nat) (tracer : SentryTracer) : SentryTracer :=
  match finishedSpan with
  | none => tracer
  | some _ => callback tracer

def finishChildWithStatus (child : Nat) (status : SentrySpanStatus) (tracer : SentryTracer) :
    SentryTracer :=
  spanFinished callback (some child) { tracer with
    children := tracer.children.modify child fun span =>
      span.finishWithStatus status (moment.dates child) }

def childIsFinished (tracer : SentryTracer) (child : Nat) : Bool :=
  tracer.children[child]?.any SentrySpan.isFinished

/-- An unfinished child gets the end timestamp of the tracer. -/
def finishUnfinishedChild (status : SentrySpanStatus) (tracer : SentryTracer) (child : Nat) :
    SentryTracer :=
  if tracer.childIsFinished child then tracer
  else
    let tracer := tracer.finishChildWithStatus moment callback child status
    { tracer with children := tracer.children.modify child fun span =>
        { span with timestamp := tracer.span.timestamp } }

/-- The tracer finishes as a span, and takes over the start of the app. -/
def finishSelf (shouldCleanUp : Bool) (tracer : SentryTracer) : SentryTracer :=
  let finishStatus :=
    if tracer.isAutoGeneratedTransaction ∧ ¬tracer.wasFinishCalled ∧
      tracer.span.status ≠ .undefined then tracer.span.status else tracer.finishStatus
  let tracer := spanFinished callback none { tracer with
    finishStatus := finishStatus
    span := tracer.span.finishWithStatus finishStatus moment.date }
  let tracer := match moment.appStartMeasurement with
    | some measurement => { tracer with span.startTimestamp := measurement.appStartTimestamp }
    | none => tracer
  if shouldCleanUp then { tracer with finishCallback := false } else tracer

def finishChildren (status : SentrySpanStatus) (tracer : SentryTracer) : SentryTracer :=
  let tracer := (List.range tracer.children.length).foldl
    (finishUnfinishedChild moment callback status) tracer
  if tracer.isAutoGeneratedTransaction then tracer.trimEndTimestamp else tracer

/-- The tracer, and whether the transaction is discarded. -/
def finishTracer (unfinishedSpansFinishStatus : SentrySpanStatus) (shouldCleanUp : Bool)
    (tracer : SentryTracer) : SentryTracer × Bool :=
  if tracer.isFinished then (tracer, true)
  else
    let tracer := tracer.finishSelf moment callback shouldCleanUp
    let transactionDuration :=
      SentrySession.timeIntervalSinceDate tracer.span.timestamp tracer.span.startTimestamp
    if tracer.isAutoGeneratedTransaction ∧ 500 ≤ transactionDuration then (tracer, true)
    else if ¬tracer.hasHub then (tracer, true)
    else
      let tracer := if shouldCleanUp then { tracer with isSpanOfScope := false } else tracer
      if tracer.configuration.finishMustBeCalled ∧ ¬tracer.wasFinishCalled then (tracer, true)
      else if tracer.hasIdleTimeout ∧ tracer.children.length = 0 then (tracer, true)
      else (tracer.finishChildren moment callback unfinishedSpansFinishStatus, false)

def finishInternal (tracer : SentryTracer) : SentryTracer :=
  let (tracer, discardTransaction) :=
    tracer.finishTracer moment callback .deadlineExceeded true
  if discardTransaction then tracer
  else if tracer.isProfiling then tracer.captureWith moment .captureTransactionWithProfile
  else tracer.captureWith moment .captureTransaction

/-- The block that is dispatched finishes the tracer later. Without a block it is now. -/
def dispatchIdleTimeout (tracer : SentryTracer) : SentryTracer :=
  if moment.createDispatchBlock then tracer else tracer.finishInternal moment callback

/-- One round of `canBeFinished`, which calls itself through the children. -/
def canBeFinishedWith (tracer : SentryTracer) : SentryTracer :=
  if tracer.isFinished then tracer
  else
    let hasUnfinished := tracer.hasUnfinishedChildSpansToWaitFor moment
    if ¬tracer.wasFinishCalled ∧ ¬hasUnfinished ∧ tracer.hasIdleTimeout then
      tracer.dispatchIdleTimeout moment callback
    else if ¬tracer.wasFinishCalled ∨ hasUnfinished then tracer
    else tracer.finishInternal moment callback

end Callback

/-- Children call back from within a round only when the tracer is finished already, and then
the inner call does nothing: the second round is the last. -/
def canBeFinished (tracer : SentryTracer) : SentryTracer :=
  tracer.canBeFinishedWith moment (canBeFinishedWith moment id)

def finishWithStatus (status : SentrySpanStatus) (tracer : SentryTracer) : SentryTracer :=
  { tracer with wasFinishCalled := true, finishStatus := status }.canBeFinished moment

def finish (tracer : SentryTracer) : SentryTracer := tracer.finishWithStatus moment .ok

def finishForCrash (tracer : SentryTracer) : SentryTracer :=
  let (tracer, discardTransaction) :=
    { tracer with wasFinishCalled := true, finishStatus := .internalError }.finishTracer moment
      (canBeFinished moment) .internalError false
  if discardTransaction then tracer else tracer.captureWith moment .saveCrashTransaction

/-- The timer finishes the children first, and each of them may finish the tracer. -/
def deadlineTimerFired (tracer : SentryTracer) : SentryTracer :=
  if tracer.isFinished then tracer
  else
    let tracer := (List.range tracer.children.length).foldl
      (fun tracer child =>
        if tracer.childIsFinished child then tracer
        else tracer.finishChildWithStatus moment (canBeFinished moment) child .deadlineExceeded)
      tracer
    { tracer with finishStatus := .deadlineExceeded }.finishInternal moment (canBeFinished moment)

/-- What `startChild` returns: the position of a new child, or the span that does nothing. -/
inductive StartedSpan where
  | child (position : Nat)
  | noOp
  deriving DecidableEq

def startChildWithParentId (parentId : SentrySpanId) (operation : String)
    (description : Option String) (tracer : SentryTracer) : SentryTracer × StartedSpan :=
  if tracer.isFinished then (tracer, .noOp)
  else
    let child := SentrySpan.initWithContext (moment.spanIds 0) (some parentId) operation
      description moment.date
    ({ tracer with children := tracer.children ++ [child] }, .child tracer.children.length)

/-- A child passes the call on to its tracer. -/
def startNestedChild (parent : Nat) (operation : String) (description : Option String)
    (tracer : SentryTracer) : Option (SentryTracer × StartedSpan) :=
  tracer.children[parent]?.map fun span =>
    tracer.startChildWithParentId moment span.spanId operation description

/-- The active span is what the delegate says, if that is a child. -/
def startChildWithOperation (activeSpan : Option Nat) (operation : String)
    (description : Option String) (tracer : SentryTracer) : SentryTracer × StartedSpan :=
  ((activeSpan.bind fun child =>
    tracer.startNestedChild moment child operation description)).getD
      (tracer.startChildWithParentId moment tracer.span.spanId operation description)

def initWithTransactionContext (spanId : SentrySpanId) (operation : String) (hasHub : Bool)
    (configuration : SentryTracerConfiguration) (isProfiling finishCallback : Bool) :
    SentryTracer :=
  let tracer : SentryTracer := {
    span := .initWithContext spanId none operation none moment.date
    configuration := configuration
    hasHub := hasHub
    isProfiling := isProfiling
    children := []
    wasFinishCalled := false
    finishStatus := .undefined
    finishCallback := finishCallback
    isSpanOfScope := false
    captured := [] }
  if tracer.hasIdleTimeout then tracer.dispatchIdleTimeout moment (canBeFinished moment)
  else tracer

/-- The calls and the timers. The platform decides when a block or a timer runs, and a
cancellation may come too late for it. -/
inductive Event where
  | startChild (activeSpan : Option Nat) (operation : String) (description : Option String)
  | startNestedChild (parent : Nat) (operation : String) (description : Option String)
  | finishChild (child : Nat) (status : SentrySpanStatus)
  | finish
  | finishWithStatus (status : SentrySpanStatus)
  | setStatus (status : SentrySpanStatus)
  | setSpanOfScope
  | idleTimeout
  | deadlineTimer
  | finishForCrash

def step (tracer : SentryTracer) (input : Event × Moment) : Option SentryTracer :=
  let (event, moment) := input
  match event with
  | .startChild activeSpan operation description =>
    some (tracer.startChildWithOperation moment activeSpan operation description).1
  | .startNestedChild parent operation description =>
    (tracer.startNestedChild moment parent operation description).map Prod.fst
  | .finishChild child status =>
    if child < tracer.children.length then
      some (tracer.finishChildWithStatus moment (canBeFinished moment) child status)
    else none
  | .finish => some (tracer.finish moment)
  | .finishWithStatus status => some (tracer.finishWithStatus moment status)
  | .setStatus status => some { tracer with span.status := status }
  | .setSpanOfScope => some { tracer with isSpanOfScope := true }
  | .idleTimeout =>
    if tracer.hasIdleTimeout then some (tracer.finishInternal moment (canBeFinished moment))
    else none
  | .deadlineTimer =>
    if tracer.isAutoGeneratedTransaction then some (tracer.deadlineTimerFired moment) else none
  | .finishForCrash => some (tracer.finishForCrash moment)

end SentryTracer

end SentryCocoa.Tracer
