import SentryCocoa.Tracer

/-! The performance tracker and the stack of its active spans, as the tracker of the view
controllers uses them. All of it runs on the main thread. A call goes up to the callback or block
that it is given; what it does after that waits until the callback returns. What the time to
display does to a tracer are events of that tracer. -/
namespace SentryCocoa.PerformanceTracker
open SentryCocoa.Tracer SentryCocoa.Library.Machine

/-- A tracer, a child of one, or the span that does nothing. Identifiers are random, so that a span
is known by its place; that of the last one is empty. -/
inductive SpanId where
  | empty
  | tracer (tracer : Nat)
  | child (tracer position : Nat)
  deriving DecidableEq

/-- A transaction has no parent here. -/
def SpanId.hasParent : SpanId → Bool
  | .child _ _ => true
  | _ => false

/-- The last fields are the objects that are associated with the controller. -/
structure UIViewController where
  className : String
  isClassInApp : Bool
  shouldExcludeClass : Bool
  spanId : Option SpanId
  layoutSubviewSpanId : Option SpanId
  spansInExecution : List String

/-- What is left to do when a callback or block returns. A block comes with the stack from before
it. -/
inductive Pending where
  | endMeasureSpan (spanId : SpanId) (before : List SpanId)
  | endActivateSpan (pushed : Bool) (before : List SpanId)
  | startLayoutSpan (controller : Nat)
  | endLayoutSpan (controller : Nat)
  | endTransaction (controller : Nat) (spanId : SpanId) (status : SentrySpanStatus)
  | removeDescription (controller : Nat) (description : String)

def Pending.isBlock : Pending → Bool
  | .endMeasureSpan _ _ | .endActivateSpan _ _ => true
  | _ => false

/-- The stack has the last object first. Of the span of the scope, when it is none of the tracers,
only the operation is kept. Nothing reads the stacks before and after the blocks that have ended. -/
structure State where
  tracers : List SentryTracer
  spans : List SpanId
  activeSpanStack : List SpanId
  otherScopeSpan : Option String
  isProfiling : Bool
  controllers : Nat → UIViewController
  running : List (List Pending)
  ended : List (List SpanId × List SpanId)

namespace State

/-- The span belongs to a tracer that is finished. -/
def isFinished (state : State) : SpanId → Bool
  | .empty => false
  | .tracer tracer | .child tracer _ => state.tracers[tracer]?.any SentryTracer.isFinished

def isSpanAlive (state : State) (spanId : SpanId) : Bool := state.spans.contains spanId

def removeSpan (spanId : SpanId) (state : State) : State :=
  { state with spans := state.spans.filter (· != spanId) }

/-- The tracer tells its delegate when it finishes. -/
def tracerDidFinish (tracer : Nat) (state : State) : State := state.removeSpan (.tracer tracer)

def withTracer (tracer : Nat) (f : SentryTracer → SentryTracer) (state : State) : State :=
  let finished := state.isFinished (.tracer tracer)
  let state := { state with tracers := state.tracers.modify tracer f }
  if !finished && state.isFinished (.tracer tracer) then state.tracerDidFinish tracer else state

/-- The scope has one span. -/
def bindToScope (tracer : Option Nat) (operation : Option String) (state : State) : State :=
  { state with
    tracers := state.tracers.mapIdx fun i t => { t with isSpanOfScope := some i == tracer }
    otherScopeSpan := operation }

def isUIEventOperation (operation : String) : Bool :=
  operation == "ui.action" || operation == "ui.action.click"

/-- A span of an UI event makes room in the scope. -/
def useSpan (moment : Moment) (state : State) : State × Bool :=
  match state.tracers.findIdx? SentryTracer.isSpanOfScope with
  | some tracer =>
    if state.tracers[tracer]?.any fun t => isUIEventOperation t.span.operation then
      (state.withTracer tracer fun t => t.finishWithStatus moment .cancelled, true)
    else (state, false)
  | none => (state, state.otherScopeSpan.all isUIEventOperation)

def configuration : SentryTracerConfiguration where
  waitForChildren := true
  finishMustBeCalled := true
  idleTimeout := 0

def startTransaction (moment : Moment) (operation : String) (state : State) : State × SpanId :=
  let (state, bindToScope) := state.useSpan moment
  let tracer := state.tracers.length
  let newSpan := SentryTracer.initWithTransactionContext moment (moment.spanIds 0) operation true
    configuration state.isProfiling false
  let state := { state with tracers := state.tracers ++ [newSpan] }
  (if bindToScope then state.bindToScope (some tracer) none else state, .tracer tracer)

def startedSpan (tracer : Nat) : SentryTracer.StartedSpan → SpanId
  | .child position => .child tracer position
  | .noOp => .empty

/-- The delegate of a tracer says that the tracer itself is active here. -/
def startChild (moment : Moment) (activeSpan : SpanId) (name operation : String) (state : State) :
    State × SpanId :=
  let started : Option (Nat × SentryTracer × SentryTracer.StartedSpan) :=
    match activeSpan with
    | .empty => none
    | .tracer tracer => state.tracers[tracer]?.map fun t =>
      (tracer, t.startChildWithOperation moment none operation (some name))
    | .child tracer position => state.tracers[tracer]?.bind fun t =>
      (t.startNestedChild moment position operation (some name)).map fun started =>
        (tracer, started)
  match started with
  | none => (state, .empty)
  | some (tracer, t, started) =>
    ({ state with tracers := state.tracers.set tracer t }, startedSpan tracer started)

def startSpanWithName (moment : Moment) (name operation : String) (state : State) :
    State × SpanId :=
  let (state, spanId) := match state.activeSpanStack with
    | activeSpan :: _ => state.startChild moment activeSpan name operation
    | [] => state.startTransaction moment operation
  ({ state with spans := state.spans.insert spanId }, spanId)

def pushActiveSpan (spanId : SpanId) (state : State) : State × Bool :=
  if state.isSpanAlive spanId then
    ({ state with activeSpanStack := spanId :: state.activeSpanStack }, true)
  else (state, false)

def popActiveSpan (state : State) : State :=
  { state with activeSpanStack := state.activeSpanStack.tail }

/-- A tracer stays in the table until it finishes. -/
def finishSpan (moment : Moment) (spanId : SpanId) (status : SentrySpanStatus) (state : State) :
    State :=
  if state.isSpanAlive spanId then
    match spanId with
    | .tracer tracer => state.withTracer tracer fun t => t.finishWithStatus moment status
    | .child tracer position => (state.removeSpan spanId).withTracer tracer fun t =>
      t.finishChildWithStatus moment (SentryTracer.canBeFinished moment) position status
    | .empty => state.removeSpan spanId
  else state

/-! Blocks. -/

def beginMeasureSpan (moment : Moment) (name operation : String) (state : State) :
    State × Pending :=
  let (started, spanId) := state.startSpanWithName moment name operation
  ((started.pushActiveSpan spanId).1, .endMeasureSpan spanId state.activeSpanStack)

def beginActivateSpan (spanId : SpanId) (state : State) : State × Pending :=
  let (activated, pushed) := state.pushActiveSpan spanId
  (activated, .endActivateSpan pushed state.activeSpanStack)

def beginMeasureSpanUnder (moment : Moment) (name operation : String) (parentSpanId : SpanId)
    (state : State) : State × List Pending :=
  let (state, activate) := state.beginActivateSpan parentSpanId
  let (state, measure) := state.beginMeasureSpan moment name operation
  (state, [measure, activate])

/-- The callback is called. -/
def call (pending : List Pending) (state : State) : State :=
  { state with running := pending :: state.running }

/-- The stack after a block is kept beside the one from before. -/
def endBlock (before : List SpanId) (state : State) : State :=
  { state with ended := (before, state.activeSpanStack) :: state.ended }

/-! View controllers. -/

def updateController (controller : Nat) (f : UIViewController → UIViewController)
    (state : State) : State :=
  let updated := f (state.controllers controller)
  { state with controllers := Function.update state.controllers controller updated }

def limitOverride (description : String) (controller : Nat)
    (block : State → State × List Pending) (state : State) : State :=
  if (state.controllers controller).spansInExecution.contains description then state.call []
  else
    let (state, pending) := block (state.updateController controller fun c =>
      { c with spansInExecution := description :: c.spansInExecution })
    state.call (pending ++ [.removeDescription controller description])

def createTransaction (moment : Moment) (controller : Nat) (state : State) : State :=
  match (state.controllers controller).spanId with
  | some _ => state
  | none =>
    let (state, spanId) := state.startSpanWithName moment (state.controllers controller).className
      "ui.load"
    let state := state.updateController controller fun c => { c with spanId := some spanId }
    if state.activeSpanStack = [] then (state.pushActiveSpan spanId).1 else state

def measurePerformance (moment : Moment) (description : String) (controller : Nat)
    (state : State) : State × List Pending :=
  match (state.controllers controller).spanId with
  | none => (state, [])
  | some spanId => state.beginMeasureSpanUnder moment description "ui.load" spanId

/-- The span of a controller that is still tracked. -/
def trackedSpan (controller : Nat) (state : State) : Option SpanId :=
  (state.controllers controller).spanId.filter state.isSpanAlive

variable (moments : Nat → Moment)

def viewControllerLoad (description : String) (controller : Nat) (state : State) : State :=
  state.limitOverride description controller fun state =>
    (state.createTransaction (moments 0) controller).measurePerformance (moments 1) description
      controller

def viewControllerLoadView (controller : Nat) (state : State) : State :=
  if !(state.controllers controller).isClassInApp then state.call []
  else if (state.controllers controller).shouldExcludeClass then state.call []
  else state.viewControllerLoad moments "loadView" controller

def viewControllerViewDidLoad (controller : Nat) (state : State) : State :=
  state.viewControllerLoad moments "viewDidLoad" controller

def viewControllerViewWillAppear (controller : Nat) (state : State) : State :=
  state.limitOverride "viewWillAppear" controller fun state =>
    match state.trackedSpan controller with
    | none => (state, [])
    | some spanId => state.beginMeasureSpanUnder (moments 0) "viewWillAppear" "ui.load" spanId

def finishTransaction (status : SentrySpanStatus) (lifecycleMethod : String) (controller : Nat)
    (state : State) : State :=
  state.limitOverride lifecycleMethod controller fun state =>
    match state.trackedSpan controller with
    | none => (state, [])
    | some spanId =>
      let (state, pending) :=
        state.beginMeasureSpanUnder (moments 0) lifecycleMethod "ui.load" spanId
      (state, pending ++ [.endTransaction controller spanId status])

def viewControllerViewDidAppear (controller : Nat) (state : State) : State :=
  state.finishTransaction moments .ok "viewDidAppear" controller

def viewControllerViewWillDisappear (controller : Nat) (state : State) : State :=
  state.finishTransaction moments .cancelled "viewWillDisappear" controller

/-- The span of the layout starts inside of the block, after the callback. -/
def viewControllerViewWillLayoutSubViews (controller : Nat) (state : State) : State :=
  state.limitOverride "viewWillLayoutSubviews" controller fun state =>
    match state.trackedSpan controller with
    | none => (state, [])
    | some spanId =>
      let (state, activate) := state.beginActivateSpan spanId
      let (state, measure) :=
        state.beginMeasureSpan (moments 0) "viewWillLayoutSubviews" "ui.load"
      (state, [measure, .startLayoutSpan controller, activate])

def viewControllerViewDidLayoutSubViews (controller : Nat) (state : State) : State :=
  state.limitOverride "viewDidLayoutSubviews" controller fun state =>
    match state.trackedSpan controller with
    | none => (state, [])
    | some spanId =>
      let (state, activate) := state.beginActivateSpan spanId
      let state := match (state.controllers controller).layoutSubviewSpanId with
        | some layoutSubViewId => state.finishSpan (moments 0) layoutSubViewId .ok
        | none => state
      let (state, measure) :=
        state.beginMeasureSpan (moments 1) "viewDidLayoutSubviews" "ui.load"
      (state, [measure, .endLayoutSpan controller, activate])

/-! Steps. -/

def runPending (moment : Moment) (pending : Pending) (state : State) : State :=
  match pending with
  | .endMeasureSpan spanId before =>
    (state.popActiveSpan.finishSpan moment spanId .ok).endBlock before
  | .endActivateSpan pushed before =>
    (if pushed then state.popActiveSpan else state).endBlock before
  | .startLayoutSpan controller =>
    let (state, layoutSubViewId) := state.startSpanWithName moment "layoutSubViews" "ui.load"
    state.updateController controller fun c =>
      { c with layoutSubviewSpanId := some layoutSubViewId }
  | .endLayoutSpan controller =>
    state.updateController controller fun c => { c with layoutSubviewSpanId := none }
  | .endTransaction controller spanId status =>
    -- A span that is no longer in the table has no parent either.
    let state :=
      if state.isSpanAlive spanId && spanId.hasParent then state else state.popActiveSpan
    (state.finishSpan moment spanId status).updateController controller fun c =>
      { c with spanId := none }
  | .removeDescription controller description =>
    state.updateController controller fun c =>
      { c with spansInExecution := c.spansInExecution.filter (· != description) }

def runAll : List Pending → State → State
  | [], state => state
  | pending :: rest, state => runAll rest (state.runPending (moments rest.length) pending)

inductive Event where
  | loadView (controller : Nat)
  | viewDidLoad (controller : Nat)
  | viewWillAppear (controller : Nat)
  | viewWillLayoutSubViews (controller : Nat)
  | viewDidLayoutSubViews (controller : Nat)
  | viewDidAppear (controller : Nat)
  | viewWillDisappear (controller : Nat)
  | measureSpan (name operation : String)
  | measureSpanUnder (name operation : String) (parentSpanId : SpanId)
  | activateSpan (spanId : SpanId)
  | startSpan (name operation : String)
  | finishSpan (spanId : SpanId) (status : SentrySpanStatus)
  /-- The app, the time to display or a timer does something with a tracer. -/
  | tracer (tracer : Nat) (event : SentryTracer.Event)
  /-- Another span, or none, becomes the span of the scope. -/
  | setScopeSpan (operation : Option String)
  /-- The callback or block that was called last returns. -/
  | callbackReturns

/-- The process does not go on after a crash. -/
def tracerEvent (tracer : Nat) (event : SentryTracer.Event) (moment : Moment) (state : State) :
    Option State :=
  match event with
  | .finishForCrash => none
  | .setSpanOfScope => state.tracers[tracer]?.map fun _ => state.bindToScope (some tracer) none
  | event => state.tracers[tracer]?.bind fun t =>
    (t.step (event, moment)).map fun t' => state.withTracer tracer fun _ => t'

def step (state : State) (input : Event × (Nat → Moment)) : Option State :=
  let (event, moments) := input
  match event with
  | .loadView controller => some (state.viewControllerLoadView moments controller)
  | .viewDidLoad controller => some (state.viewControllerViewDidLoad moments controller)
  | .viewWillAppear controller => some (state.viewControllerViewWillAppear moments controller)
  | .viewWillLayoutSubViews controller =>
    some (state.viewControllerViewWillLayoutSubViews moments controller)
  | .viewDidLayoutSubViews controller =>
    some (state.viewControllerViewDidLayoutSubViews moments controller)
  | .viewDidAppear controller => some (state.viewControllerViewDidAppear moments controller)
  | .viewWillDisappear controller =>
    some (state.viewControllerViewWillDisappear moments controller)
  | .measureSpan name operation =>
    let (state, pending) := state.beginMeasureSpan (moments 0) name operation
    some (state.call [pending])
  | .measureSpanUnder name operation parentSpanId =>
    let (state, pending) := state.beginMeasureSpanUnder (moments 0) name operation parentSpanId
    some (state.call pending)
  | .activateSpan spanId =>
    let (state, pending) := state.beginActivateSpan spanId
    some (state.call [pending])
  | .startSpan name operation => some (state.startSpanWithName (moments 0) name operation).1
  | .finishSpan spanId status => some (state.finishSpan (moments 0) spanId status)
  | .tracer tracer event => state.tracerEvent tracer event (moments 0)
  | .setScopeSpan operation => some (state.bindToScope none operation)
  | .callbackReturns =>
    match state.running with
    | [] => none
    | pending :: running => some (runAll moments pending { state with running := running })

/-- Nothing is tracked yet. -/
def launch (isProfiling : Bool) (otherScopeSpan : Option String)
    (controllers : Nat → UIViewController) : State where
  tracers := []
  spans := []
  activeSpanStack := []
  otherScopeSpan := otherScopeSpan
  isProfiling := isProfiling
  controllers := fun controller =>
    { controllers controller with
      spanId := none, layoutSubviewSpanId := none, spansInExecution := [] }
  running := []
  ended := []

end State

end SentryCocoa.PerformanceTracker
