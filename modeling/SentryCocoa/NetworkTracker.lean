import SentryCocoa.Library.Machine
import SentryCocoa.Tracer

/-! The tracker of network requests. It is called before a task is resumed and before the state of
a task is set, on any thread, and keeps the span of the request with the task. Only what stands in
a `@synchronized` block is done at once. -/
namespace SentryCocoa.NetworkTracker
open SentryCocoa.Tracer SentryCocoa.Library.Machine

/-- `NSURLSessionTaskState`. -/
inductive SessionTaskState where
  | running
  | suspended
  | canceling
  | completed
  deriving DecidableEq, Repr

structure URL where
  host : Option String
  path : String
  absoluteString : String
  deriving DecidableEq, Repr

/-- A regular expression is the texts in which it has a match. -/
inductive Target where
  | regularExpression (hasMatch : String → Bool)
  | text (string : String)

structure SentryHttpStatusCodeRange where
  min : Int
  max : Int
  deriving DecidableEq, Repr

structure SentryOptions where
  parsedDsnUrl : Option URL
  failedRequestStatusCodes : List SentryHttpStatusCodeRange
  failedRequestTargets : List Target

/-- A response that is not of HTTP has no status code. -/
inductive URLResponse where
  | http (statusCode : Int)
  | other
  deriving DecidableEq, Repr

/-- What a task says of its request when it is asked. -/
structure Request where
  isTaskSupported : Bool
  url : Option URL
  response : Option URLResponse
  hasError : Bool
  deriving DecidableEq, Repr

/-- The span of the scope, and whether its child is one that does nothing. -/
inductive ScopeSpan where
  | absent
  | startsNoOp
  | startsChild
  deriving DecidableEq, Repr

/-- A task with its state and the objects that the tracker associates with it. -/
structure SessionTask where
  state : SessionTaskState
  span : Option Nat
  requestStart : Option Nat
  hasBreadcrumb : Bool
  deriving DecidableEq, Repr

/-- The statements of `urlSessionTask:setState:` after its checks, with the original `setState:`. -/
inductive Statement where
  | takeSpan
  | checkState
  | captureFailedRequests
  | checkBreadcrumb
  | addBreadcrumb
  | markBreadcrumb
  | setStatusCode
  | finishSpan
  | callOriginal
  deriving DecidableEq, Repr

structure Call where
  task : Nat
  newState : SessionTaskState
  netSpan : Option Nat
  todo : List Statement
  deriving DecidableEq, Repr

structure SentryBreadcrumb where
  task : Nat
  requestStart : Option Nat
  statusCode : Option Int
  isError : Bool
  deriving DecidableEq, Repr

/-- The spans are numbered in the order in which they start. -/
structure State where
  isNetworkTrackingEnabled : Bool
  isNetworkBreadcrumbEnabled : Bool
  isCaptureFailedRequestsEnabled : Bool
  tasks : List SessionTask
  calls : List Call
  spans : Nat
  statusCodes : List (Nat × Int)
  finished : List (Nat × SentrySpanStatus)
  breadcrumbs : List SentryBreadcrumb
  failedRequests : List (Nat × Int)
  deriving DecidableEq, Repr

def State.init : State := ⟨false, false, false, [], [], 0, [], [], [], []⟩

inductive Input where
  | enableNetworkTracking
  | enableNetworkBreadcrumbs
  | enableCaptureFailedRequests
  | disable
  | create
  | resume (task : Nat) (request : Request) (options : Option SentryOptions)
      (scopeSpan : ScopeSpan) (date : Nat)
  | setState (task : Nat) (newState : SessionTaskState) (request : Request)
      (options : Option SentryOptions)
  | proceed (call : Nat) (request : Request) (options : Option SentryOptions)

/-- No text contains the empty one. -/
def containsString (text string : String) : Bool :=
  string != "" && text.toList.tails.any string.toList.isPrefixOf

def isTargetMatch (url : URL) (targets : List Target) : Bool :=
  targets.any fun
    | .regularExpression hasMatch => hasMatch url.absoluteString
    | .text string => containsString url.absoluteString string

/-- Requests to the own backend are not measured. -/
def isSentryRequest (options : Option SentryOptions) (url : URL) : Bool :=
  match options.bind SentryOptions.parsedDsnUrl with
  | none => false
  | some apiUrl => url.host.isSome && url.host == apiUrl.host &&
      containsString url.path apiUrl.path

def urlResponseStatusCode : Option URLResponse → Int
  | some (.http statusCode) => statusCode
  | _ => -1

def spanStatusForHttpResponseStatusCode (statusCode : Int) : SentrySpanStatus :=
  if 200 ≤ statusCode ∧ statusCode < 300 then .ok
  else if statusCode = 400 then .invalidArgument
  else if statusCode = 401 then .unauthenticated
  else if statusCode = 403 then .permissionDenied
  else if statusCode = 404 then .notFound
  else if statusCode = 409 then .aborted
  else if statusCode = 429 then .resourceExhausted
  else if statusCode = 500 then .internalError
  else if statusCode = 501 then .unimplemented
  else if statusCode = 503 then .unavailable
  else if statusCode = 504 then .deadlineExceeded
  else .undefined

def statusForSessionTask (request : Request) : SessionTaskState → SentrySpanStatus
  | .suspended => .aborted
  | .canceling => .cancelled
  | .completed =>
    if request.hasError then .unknownError
    else spanStatusForHttpResponseStatusCode (urlResponseStatusCode request.response)
  | .running => .undefined

namespace State

variable (s : State)

def withTask (task : Nat) (sessionTask : SessionTask) : State :=
  { s with tasks := s.tasks.set task sessionTask }

/-- What `urlSessionTaskResume:` does with the span of a task, after the start of the request is
registered. A task that has a span keeps it. -/
def startSpan (task : Nat) (sessionTask : SessionTask) (scopeSpan : ScopeSpan) : State :=
  if ¬s.isNetworkTrackingEnabled then s.withTask task sessionTask
  else if sessionTask.span ≠ none then s.withTask task sessionTask
  else
    match scopeSpan with
    | .startsChild =>
      { s.withTask task { sessionTask with span := some s.spans } with spans := s.spans + 1 }
    | _ => s.withTask task sessionTask

def urlSessionTaskResume (task : Nat) (sessionTask : SessionTask) (request : Request)
    (options : Option SentryOptions) (scopeSpan : ScopeSpan) (date : Nat) : State :=
  if sessionTask.state = .completed ∨ sessionTask.state = .canceling then s
  else if ¬request.isTaskSupported ∨ options.isNone then s
  else
    match request.url with
    | none => s
    | some url =>
      if isSentryRequest options url then s
      else
        s.startSpan task { sessionTask with
          requestStart := if s.isNetworkBreadcrumbEnabled then some date
            else sessionTask.requestStart } scopeSpan

/-- The original `setState:` is called in any case. -/
def urlSessionTaskSetState (task : Nat) (newState : SessionTaskState) (request : Request)
    (options : Option SentryOptions) : State :=
  let isTracked := (s.isNetworkTrackingEnabled || s.isNetworkBreadcrumbEnabled ||
      s.isCaptureFailedRequestsEnabled) && request.isTaskSupported &&
    newState != .running && request.url.any fun url => !isSentryRequest options url
  { s with
    calls := s.calls ++ [⟨task, newState, none,
      if isTracked then [.takeSpan, .checkState, .finishSpan, .callOriginal]
      else [.callOriginal]⟩] }

/-- The status code of a response that counts as failed. -/
def failedStatusCode (request : Request) (options : Option SentryOptions) : Option Int :=
  match s.isCaptureFailedRequestsEnabled, request.url, request.response, options with
  | true, some url, some (.http statusCode), some options =>
    if options.failedRequestStatusCodes.any
          (fun range => range.min ≤ statusCode && statusCode ≤ range.max) &&
        isTargetMatch url options.failedRequestTargets then some statusCode
    else none
  | _, _, _, _ => none

/-- The call at the index goes on as the given one. -/
def withCall (index : Nat) (call : Call) : State := { s with calls := s.calls.set index call }

def execute (index : Nat) (call : Call) (sessionTask : SessionTask) (request : Request)
    (options : Option SentryOptions) : Statement → State
  | .takeSpan =>
    (s.withTask call.task { sessionTask with span := none }).withCall index
      { call with netSpan := sessionTask.span }
  | .checkState =>
    if sessionTask.state = .running then
      s.withCall index { call with
        todo := [.captureFailedRequests, .checkBreadcrumb, .setStatusCode] ++ call.todo }
    else s.withCall index call
  | .captureFailedRequests =>
    match s.failedStatusCode request options with
    | none => s.withCall index call
    | some statusCode =>
      { s.withCall index call with
        failedRequests := s.failedRequests ++ [(call.task, statusCode)] }
  | .checkBreadcrumb =>
    if s.isNetworkBreadcrumbEnabled ∧ ¬sessionTask.hasBreadcrumb then
      s.withCall index { call with todo := [.addBreadcrumb, .markBreadcrumb] ++ call.todo }
    else s.withCall index call
  | .addBreadcrumb =>
    let statusCode := urlResponseStatusCode request.response
    { s.withCall index call with
      breadcrumbs := s.breadcrumbs ++ [{
        task := call.task
        requestStart := sessionTask.requestStart
        statusCode := if statusCode ≠ -1 then some statusCode else none
        isError := request.hasError }] }
  | .markBreadcrumb =>
    (s.withTask call.task { sessionTask with hasBreadcrumb := true }).withCall index call
  | .setStatusCode =>
    let statusCode := urlResponseStatusCode request.response
    match call.netSpan with
    | none => s.withCall index call
    | some netSpan =>
      if statusCode ≠ -1 then
        { s.withCall index call with statusCodes := s.statusCodes ++ [(netSpan, statusCode)] }
      else s.withCall index call
  | .finishSpan =>
    match call.netSpan with
    | none => s.withCall index call
    | some netSpan =>
      { s.withCall index { call with netSpan := none } with
        finished := s.finished ++ [(netSpan, statusForSessionTask request call.newState)] }
  | .callOriginal =>
    (s.withTask call.task { sessionTask with state := call.newState }).withCall index call

def proceed (index : Nat) (request : Request) (options : Option SentryOptions) : Option State := do
  let call ← s.calls[index]?
  let sessionTask ← s.tasks[call.task]?
  match call.todo with
  | [] => none
  | statement :: todo =>
    some (s.execute index { call with todo := todo } sessionTask request options statement)

def step : Input → Option State
  | .enableNetworkTracking => some { s with isNetworkTrackingEnabled := true }
  | .enableNetworkBreadcrumbs => some { s with isNetworkBreadcrumbEnabled := true }
  | .enableCaptureFailedRequests => some { s with isCaptureFailedRequestsEnabled := true }
  | .disable =>
    some { s with
      isNetworkTrackingEnabled := false
      isNetworkBreadcrumbEnabled := false
      isCaptureFailedRequestsEnabled := false }
  | .create => some { s with tasks := s.tasks ++ [⟨.suspended, none, none, false⟩] }
  | .resume task request options scopeSpan date =>
    (s.tasks[task]?).map fun sessionTask =>
      s.urlSessionTaskResume task sessionTask request options scopeSpan date
  | .setState task newState request options =>
    (s.tasks[task]?).map fun _ => s.urlSessionTaskSetState task newState request options
  | .proceed call request options => s.proceed call request options

end State

end SentryCocoa.NetworkTracker
