import SentryCocoa.TracerRuns

/-! The transactions of user interactions. The tracker of the events keeps the active ones in a
list and looks at the last of them; a transaction leaves the list when it finishes. -/
namespace SentryCocoa.Tracer
open SentryCocoa.Foundation SentryCocoa.Session SentryCocoa.Library.Machine

/-- A tracer with its idle timeout: whether a block of it is still to run, and how many have
been dispatched. -/
structure UIEventTransaction where
  name : String
  tracer : SentryTracer
  idleTimeoutBlock : Bool
  dispatched : Nat

namespace UIEventTransaction

variable (moment : Moment)

def finishInternal (transaction : UIEventTransaction) : UIEventTransaction :=
  { transaction with
    tracer := transaction.tracer.finishInternal moment (SentryTracer.canBeFinished moment) }

/-- A block that is left is cancelled first. -/
def dispatchIdleTimeout (transaction : UIEventTransaction) : UIEventTransaction :=
  if moment.createDispatchBlock then
    { transaction with
      idleTimeoutBlock := true
      dispatched := transaction.dispatched + 1 }
  else { transaction with idleTimeoutBlock := false }.finishInternal moment

def cancelIdleTimeout (transaction : UIEventTransaction) : UIEventTransaction :=
  if transaction.tracer.hasIdleTimeout then { transaction with idleTimeoutBlock := false }
  else transaction

def canBeFinished (transaction : UIEventTransaction) : UIEventTransaction :=
  let tracer := transaction.tracer
  if tracer.isFinished then transaction
  else
    let hasUnfinished := tracer.hasUnfinishedChildSpansToWaitFor moment
    if ¬tracer.wasFinishCalled ∧ ¬hasUnfinished ∧ tracer.hasIdleTimeout then
      transaction.dispatchIdleTimeout moment
    else if ¬tracer.wasFinishCalled ∨ hasUnfinished then transaction
    else transaction.finishInternal moment

def finishChildWithStatus (child : Nat) (status : SentrySpanStatus)
    (transaction : UIEventTransaction) : UIEventTransaction :=
  { transaction with
    tracer.children := transaction.tracer.children.modify child fun span =>
      span.finishWithStatus status (moment.dates child) }.canBeFinished moment

def finish (transaction : UIEventTransaction) : UIEventTransaction :=
  { transaction with tracer.wasFinishCalled := true, tracer.finishStatus := .ok }.canBeFinished
    moment

def startChildWithOperation (activeSpan : Option Nat) (operation : String)
    (description : Option String) (transaction : UIEventTransaction) : UIEventTransaction :=
  let transaction := transaction.cancelIdleTimeout
  { transaction with
    tracer := (transaction.tracer.startChildWithOperation moment activeSpan operation
      description).1 }

def finishUnlessFinished (status : SentrySpanStatus) (transaction : UIEventTransaction)
    (child : Nat) : UIEventTransaction :=
  if transaction.tracer.childIsFinished child then transaction
  else transaction.finishChildWithStatus moment child status

def deadlineTimerFired (transaction : UIEventTransaction) : UIEventTransaction :=
  if transaction.tracer.isFinished then transaction
  else
    let transaction := (List.range transaction.tracer.children.length).foldl
      (finishUnlessFinished moment .deadlineExceeded) transaction
    { transaction with tracer.finishStatus := .deadlineExceeded }.finishInternal moment

/-- The block that was dispatched last. -/
def idleTimeout (transaction : UIEventTransaction) : UIEventTransaction :=
  { transaction with idleTimeoutBlock := false }.finishInternal moment

/-- The finish callback is set once the transaction has been started. -/
def startTransaction (name operation : String) (idleTimeout : ℚ) (isProfiling bindToScope : Bool) :
    UIEventTransaction :=
  let tracer := SentryTracer.initWithTransactionContext moment (moment.spanIds 0) operation true
    { waitForChildren := true, finishMustBeCalled := false, idleTimeout := idleTimeout }
    isProfiling false
  let dispatches := tracer.hasIdleTimeout && moment.createDispatchBlock
  { name := name
    tracer := { tracer with isSpanOfScope := bindToScope, finishCallback := true }
    idleTimeoutBlock := dispatches
    dispatched := if dispatches then 1 else 0 }

/-! The tracer of a transaction takes the steps of a tracer. -/

theorem tracer_dispatchIdleTimeout (transaction : UIEventTransaction) :
    (transaction.dispatchIdleTimeout moment).tracer =
      transaction.tracer.dispatchIdleTimeout moment (SentryTracer.canBeFinished moment) := by
  unfold dispatchIdleTimeout SentryTracer.dispatchIdleTimeout
  split <;> rfl

theorem tracer_canBeFinished (transaction : UIEventTransaction) :
    (transaction.canBeFinished moment).tracer = transaction.tracer.canBeFinished moment := by
  rw [SentryTracer.canBeFinished_eq]
  unfold canBeFinished SentryTracer.canBeFinishedWith
  dsimp only
  split_ifs
  · rfl
  · exact tracer_dispatchIdleTimeout moment transaction
  · rfl
  · rfl

theorem tracer_finishChildWithStatus (child : Nat) (status : SentrySpanStatus)
    (transaction : UIEventTransaction) :
    (transaction.finishChildWithStatus moment child status).tracer =
      transaction.tracer.finishChildWithStatus moment (SentryTracer.canBeFinished moment) child
        status :=
  tracer_canBeFinished moment _

theorem tracer_finish (transaction : UIEventTransaction) :
    (transaction.finish moment).tracer = transaction.tracer.finish moment :=
  tracer_canBeFinished moment _

theorem tracer_deadlineTimerFired (transaction : UIEventTransaction) :
    (transaction.deadlineTimerFired moment).tracer =
      transaction.tracer.deadlineTimerFired moment := by
  have hloop : ∀ (children : List Nat) (first : UIEventTransaction),
      (children.foldl (finishUnlessFinished moment .deadlineExceeded) first).tracer =
        children.foldl (fun tracer child =>
          if tracer.childIsFinished child then tracer
          else tracer.finishChildWithStatus moment (SentryTracer.canBeFinished moment) child
            .deadlineExceeded) first.tracer := by
    intro children
    induction children with
    | nil => exact fun _ => rfl
    | cons child children ih =>
      intro first
      rw [List.foldl_cons, List.foldl_cons, ih]
      congr 1
      unfold finishUnlessFinished
      split
      · rfl
      · exact tracer_finishChildWithStatus moment child .deadlineExceeded first
  unfold deadlineTimerFired SentryTracer.deadlineTimerFired
  split
  · rfl
  · unfold finishInternal
    dsimp only
    rw [hloop]

end UIEventTransaction

/-- The transactions in the order of their start, and the positions of the active ones. -/
structure SentryUIEventTrackerTransactionMode where
  idleTimeout : ℚ
  transactions : List UIEventTransaction
  activeTransactions : List Nat

namespace SentryUIEventTrackerTransactionMode

def initWithIdleTimeout (idleTimeout : ℚ) : SentryUIEventTrackerTransactionMode where
  idleTimeout := idleTimeout
  transactions := []
  activeTransactions := []

variable (moment : Moment)

def lastObject (tracker : SentryUIEventTrackerTransactionMode) : Option Nat :=
  tracker.activeTransactions.getLast?

/-- The finish callback, which is there once at most, takes a transaction off the list. -/
def update (position : Nat) (change : UIEventTransaction → UIEventTransaction)
    (tracker : SentryUIEventTrackerTransactionMode) : SentryUIEventTrackerTransactionMode :=
  match tracker.transactions[position]? with
  | none => tracker
  | some transaction =>
    let calledBack :=
      transaction.tracer.finishCallback && !(change transaction).tracer.finishCallback
    { tracker with
      transactions := tracker.transactions.set position (change transaction)
      activeTransactions :=
        if calledBack then tracker.activeTransactions.filter fun active => active ≠ position
        else tracker.activeTransactions }

def sameAction (action : String) (tracker : SentryUIEventTrackerTransactionMode)
    (position : Nat) : Bool :=
  tracker.transactions[position]?.any fun transaction => transaction.name = action

def startTransaction (action operation : String) (isProfiling bindToScope : Bool)
    (tracker : SentryUIEventTrackerTransactionMode) : SentryUIEventTrackerTransactionMode :=
  { tracker with
    transactions := tracker.transactions ++ [.startTransaction moment action operation
      tracker.idleTimeout isProfiling bindToScope]
    activeTransactions := tracker.activeTransactions ++ [tracker.transactions.length] }

/-- There might be more active transactions, but only the last one is looked at. -/
def handleUIEvent (action operation : String) (isProfiling bindToScope : Bool)
    (tracker : SentryUIEventTrackerTransactionMode) : SentryUIEventTrackerTransactionMode :=
  match tracker.lastObject with
  | none => tracker.startTransaction moment action operation isProfiling bindToScope
  | some current =>
    if tracker.sameAction action current then
      tracker.update current (UIEventTransaction.dispatchIdleTimeout moment)
    else
      (tracker.update current (UIEventTransaction.finish moment)).startTransaction moment action
        operation isProfiling bindToScope

/-- A transaction is named by its position. -/
inductive Event where
  | handleUIEvent (action operation : String) (isProfiling bindToScope : Bool)
  | startChild (position : Nat) (activeSpan : Option Nat) (operation : String)
      (description : Option String)
  | finishChild (position child : Nat) (status : SentrySpanStatus)
  | idleTimeout (position : Nat)
  | deadlineTimer (position : Nat)
  deriving DecidableEq

def step (tracker : SentryUIEventTrackerTransactionMode) (input : Event × Moment) :
    Option SentryUIEventTrackerTransactionMode :=
  -- these transactions wait for all their children
  let moment := { input.2 with shouldIgnoreWaitForChildrenCallback := fun _ => false }
  match input.1 with
  | .handleUIEvent action operation isProfiling bindToScope =>
    some (tracker.handleUIEvent moment action operation isProfiling bindToScope)
  | .startChild position activeSpan operation description =>
    if position < tracker.transactions.length then
      some (tracker.update position
        (UIEventTransaction.startChildWithOperation moment activeSpan operation description))
    else none
  | .finishChild position child status =>
    match tracker.transactions[position]? with
    | some transaction =>
      if child < transaction.tracer.children.length then
        some (tracker.update position
          (UIEventTransaction.finishChildWithStatus moment child status))
      else none
    | none => none
  | .idleTimeout position =>
    match tracker.transactions[position]? with
    | some transaction =>
      if transaction.idleTimeoutBlock then
        some (tracker.update position (UIEventTransaction.idleTimeout moment))
      else none
    | none => none
  | .deadlineTimer position =>
    if position < tracker.transactions.length then
      some (tracker.update position (UIEventTransaction.deadlineTimerFired moment))
    else none

end SentryUIEventTrackerTransactionMode

end SentryCocoa.Tracer
